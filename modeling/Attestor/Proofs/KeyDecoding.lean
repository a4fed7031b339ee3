import Attestor.Proofs.KeyReading

namespace Attestor.KeyText

/-- Either one of the encodings accepts and its answer is the result, or each of them refuses and
the refusals are reported in the order of the attempts. -/
theorem decodeFirst_cases (text : String) (before : List KeyAttempt) (order : List KeyEncoding) :
    (∃ encoding ∈ order, ∃ secret, decodeAs text encoding = .ok secret ∧
      decodeFirst text before order = .ok secret) ∨
    ∃ attempts : List KeyAttempt, attempts.map (·.encoding) = order ∧
      (∀ a ∈ attempts, decodeAs text a.encoding = .error a.fault) ∧
      decodeFirst text before order = .error (.unrecognized (before ++ attempts)) := by
  induction order generalizing before with
  | nil => exact .inr ⟨[], rfl, by simp, by rw [List.append_nil]; rfl⟩
  | cons encoding order ih =>
    rw [decodeFirst]
    cases ha : decodeAs text encoding with
    | ok secret => exact .inl ⟨encoding, List.mem_cons_self .., secret, ha, rfl⟩
    | error fault =>
      obtain ⟨other, hmem, hother⟩ | ⟨attempts, horder, hfaults, hresult⟩ :=
        ih (before ++ [⟨encoding, fault⟩])
      · exact .inl ⟨other, List.mem_cons_of_mem _ hmem, hother⟩
      · refine .inr ⟨⟨encoding, fault⟩ :: attempts, by rw [List.map_cons, horder], ?_, ?_⟩
        · intro a hmem
          rcases List.mem_cons.mp hmem with rfl | hmem
          · exact ha
          · exact hfaults a hmem
        · rw [List.append_assoc] at hresult
          exact hresult

/-- Whatever the order, the result is the secret key of the one spelling that the text has. -/
theorem decodeFirst_iff {text : String} {order : List KeyEncoding} {secret : Bytes} :
    decodeFirst text [] order = .ok secret ↔ ∃ encoding ∈ order, Spells text encoding secret := by
  obtain ⟨encoding, hmem, found, ha, hresult⟩ | ⟨attempts, horder, hfaults, hresult⟩ :=
    decodeFirst_cases text [] order
  · rw [hresult]
    have hfound := decodeAs_iff.mp ha
    constructor
    · rintro ⟨⟩
      exact ⟨encoding, hmem, hfound⟩
    · rintro ⟨other, -, hs⟩
      rw [hfound.secret_eq hs]
  · rw [hresult]
    constructor
    · rintro ⟨⟩
    · rintro ⟨encoding, hmem, hs⟩
      rw [← horder] at hmem
      obtain ⟨a, ha, rfl⟩ := List.mem_map.mp hmem
      have hclash := (hfaults a ha).symm.trans (decodeAs_iff.mpr hs)
      cases hclash

theorem mem_all (encoding : KeyEncoding) : encoding ∈ KeyEncoding.all := by
  cases encoding <;> decide

theorem decode_iff {s : String} {secret : Bytes} :
    decode s = .ok secret ↔ ∃ encoding, Spells (Text.trim s) encoding secret := by
  rw [decode, decodeFirst_iff]
  constructor
  · rintro ⟨encoding, -, h⟩
    exact ⟨encoding, h⟩
  · rintro ⟨encoding, h⟩
    exact ⟨encoding, mem_all encoding, h⟩

/-- The three spellings of a seed, in lower case where there is a choice. -/
def seedTexts (seed : Bytes) : List String :=
  Text.Hex.encode seed :: versions.map (seedText · seed)

theorem plain_digit : ∀ v < 16, Text.isBlank (Text.Hex.digit v) = false := by
  decide

theorem plain_character :
    ∀ d < 58, Text.isBlank (Char.ofNat (Text.Base58.character d).toNat) = false := by
  decide +kernel

theorem decode_seedTexts {seed : Bytes} (hs : seed.length = seedLength) {text : String}
    (h : text ∈ seedTexts seed) : decode text = .ok (secretOfSeed seed) := by
  rw [decode_iff]
  rcases List.mem_cons.mp h with rfl | h
  · rw [Text.trim_of_plain]
    · exact ⟨_, .seedHex hs (Text.Hex.toLower_encode seed)⟩
    · intro c hc
      rw [Text.Hex.encode_eq, String.toList_ofList] at hc
      obtain ⟨v, hv, rfl⟩ := List.mem_map.mp hc
      exact plain_digit v (Text.Hex.halves_lt seed v hv)
  · obtain ⟨version, hv, rfl⟩ := List.mem_map.mp h
    rw [Text.trim_of_plain]
    · exact ⟨_, .seedBase58 hv hs rfl⟩
    · intro c hc
      rw [seedText, Bytes.ascii, String.toList_ofList] at hc
      obtain ⟨b, hb, rfl⟩ := List.mem_map.mp hc
      obtain ⟨d, hd, rfl⟩ := Text.Base58.encode_characters _ b hb
      exact plain_character d hd

namespace Guarded

/-- A difference, or nothing where it would be below zero. -/
def minus (m n : Nat) : Option Nat :=
  if n ≤ m then some (m - n) else none

/-- The bytes from `start` to `stop`, or nothing where some of them are missing. -/
def slice (bytes : Bytes) (start stop : Nat) : Option Bytes :=
  if start ≤ stop ∧ stop ≤ bytes.length then some ((bytes.take stop).drop start) else none

/-- The bytes that fill a place of this length, or nothing where they are more or fewer. -/
def copy (length : Nat) (bytes : Bytes) : Option Bytes :=
  if bytes.length = length then some bytes else none

variable {bytes : Bytes} {length start stop m n : Nat}

theorem minus_eq (h : n ≤ m) : minus m n = some (m - n) :=
  if_pos h

theorem slice_eq (hstart : start ≤ stop) (hstop : stop ≤ bytes.length) :
    slice bytes start stop = some ((bytes.take stop).drop start) :=
  if_pos ⟨hstart, hstop⟩

theorem copy_eq (h : bytes.length = length) : copy length bytes = some bytes :=
  if_pos h

-- The functions of the decoding once more. Each is nothing where one of its steps cannot be done,
-- and the equations below say that this never happens.

def secretOfSeed (seed : Bytes) : Option Bytes := do
  copy keyLength (← slice (Hash.Sha512.hash seed) 0 keyLength)

def checksum (payload : Bytes) : Option Bytes :=
  slice (Hash.Sha256.hash (Hash.Sha256.hash payload)) 0 checksumLength

def decodeHex (length : Nat) (text : String) : Option (Except KeyFault Bytes) :=
  if text.utf8ByteSize ≠ 2 * length then
    some (.error (.digitCount (2 * length) text.utf8ByteSize))
  else
    match Text.Hex.decode text with
    | .error e => some (.error (.hex e))
    | .ok bytes => (copy length bytes).map .ok

def decodeSeed (text : String) : Option (Except KeyFault Bytes) :=
  match Text.Base58.decode (Bytes.ofString text) with
  | .error e => some (.error (.base58 e))
  | .ok raw =>
    match versions.find? fun v =>
        raw.length = v.length + seedLength + checksumLength ∧ raw.take v.length = v with
    | none => some (.error (.noVersion raw.length))
    | some version => do
      let cut ← minus raw.length checksumLength
      let payload ← slice raw 0 cut
      let sum ← slice raw cut raw.length
      if sum = (← checksum payload) then
        return .ok (← copy seedLength (← slice payload version.length payload.length))
      else
        return .error .checksum

def decodeAs (text : String) : KeyEncoding → Option (Except KeyFault Bytes)
  | .secretHex => decodeHex keyLength text
  | .seedBase58 => do
    match ← decodeSeed text with
    | .ok seed => (secretOfSeed seed).map .ok
    | .error fault => return .error fault
  | .seedHex => do
    match ← decodeHex seedLength text with
    | .ok seed => (secretOfSeed seed).map .ok
    | .error fault => return .error fault

def decodeFirst (text : String) (before : List KeyAttempt) :
    List KeyEncoding → Option (Except KeyError Bytes)
  | [] => some (.error (.unrecognized before))
  | encoding :: rest => do
    match ← decodeAs text encoding with
    | .ok secret => return .ok secret
    | .error fault => decodeFirst text (before ++ [⟨encoding, fault⟩]) rest

def decode (s : String) : Option (Except KeyError Bytes) :=
  decodeFirst (Text.trim s) [] KeyEncoding.all

theorem secretOfSeed_eq (seed : Bytes) : secretOfSeed seed = some (KeyText.secretOfSeed seed) := by
  have hlength := Hash.Sha512.length_hash seed
  rw [secretOfSeed, slice_eq (Nat.zero_le _) (by rw [hlength]; decide)]
  have hhalf : ((Hash.Sha512.hash seed).take keyLength).length = keyLength := by
    rw [List.length_take, hlength]
    rfl
  exact copy_eq hhalf

theorem checksum_eq (payload : Bytes) : checksum payload = some (KeyText.checksum payload) := by
  rw [checksum, slice_eq (Nat.zero_le _) (by rw [Hash.Sha256.length_hash]; decide)]
  rfl

theorem decodeHex_eq (length : Nat) (text : String) :
    decodeHex length text = some (KeyText.decodeHex length text) := by
  rw [decodeHex, KeyText.decodeHex]
  by_cases hsize : text.utf8ByteSize = 2 * length
  · rw [if_neg (not_not_intro hsize), if_neg (not_not_intro hsize)]
    cases hd : Text.Hex.decode text with
    | error e => rfl
    | ok bytes =>
      have := Text.Hex.size_of_lower (Text.Hex.decode_iff.mp hd)
      dsimp only
      rw [copy_eq (by omega)]
      rfl
  · rw [if_pos hsize, if_pos hsize]

theorem decodeSeed_eq (text : String) : decodeSeed text = some (KeyText.decodeSeed text) := by
  rw [decodeSeed, KeyText.decodeSeed]
  cases Text.Base58.decode (Bytes.ofString text) with
  | error e => rfl
  | ok raw =>
    simp only [Except.mapError, bind, Except.bind]
    cases hfind : versions.find? fun v =>
        raw.length = v.length + seedLength + checksumLength ∧ raw.take v.length = v with
    | none => rfl
    | some version =>
      have hfound := List.find?_some hfind
      have hlength := (of_decide_eq_true hfound).1
      have hcut : minus raw.length checksumLength = some (raw.length - checksumLength) :=
        minus_eq (by omega)
      have hfront : slice raw 0 (raw.length - checksumLength) =
          some (raw.take (raw.length - checksumLength)) :=
        slice_eq (Nat.zero_le _) (Nat.sub_le ..)
      have hsum : slice raw (raw.length - checksumLength) raw.length =
          some (raw.drop (raw.length - checksumLength)) := by
        rw [slice_eq (Nat.sub_le ..) (Nat.le_refl _), List.take_length]
      have hpayload : (raw.take (raw.length - checksumLength)).length =
          version.length + seedLength := by
        rw [List.length_take]
        omega
      generalize raw.take (raw.length - checksumLength) = payload at hfront hpayload
      have hseed : slice payload version.length payload.length =
          some (payload.drop version.length) := by
        rw [slice_eq (by omega) (Nat.le_refl _), List.take_length]
      have hcopy : copy seedLength (payload.drop version.length) =
          some (payload.drop version.length) :=
        copy_eq (by rw [List.length_drop, hpayload]; omega)
      simp only [hcut, hfront, hsum, hseed, hcopy, checksum_eq, Option.bind_some]
      split <;> rfl

theorem decodeAs_eq (text : String) (encoding : KeyEncoding) :
    decodeAs text encoding = some (KeyText.decodeAs text encoding) := by
  cases encoding with
  | secretHex => exact decodeHex_eq keyLength text
  | seedBase58 =>
    rw [decodeAs, decodeSeed_eq, KeyText.decodeAs]
    cases KeyText.decodeSeed text with
    | ok seed =>
      change (secretOfSeed seed).map Except.ok = _
      rw [secretOfSeed_eq]
      rfl
    | error fault => rfl
  | seedHex =>
    rw [decodeAs, decodeHex_eq, KeyText.decodeAs]
    cases KeyText.decodeHex seedLength text with
    | ok seed =>
      change (secretOfSeed seed).map Except.ok = _
      rw [secretOfSeed_eq]
      rfl
    | error fault => rfl

theorem decodeFirst_eq (text : String) (before : List KeyAttempt) (order : List KeyEncoding) :
    decodeFirst text before order = some (KeyText.decodeFirst text before order) := by
  induction order generalizing before with
  | nil => rfl
  | cons encoding order ih =>
    rw [decodeFirst, decodeAs_eq, KeyText.decodeFirst]
    cases KeyText.decodeAs text encoding with
    | ok secret => rfl
    | error fault => exact ih _

theorem decode_eq (s : String) : decode s = some (KeyText.decode s) :=
  decodeFirst_eq (Text.trim s) [] KeyEncoding.all

end Guarded

/-- A text has at most one spelling of a secret key, and all spellings of one seed have the same.
The decoding finds it in whatever order it looks, without a cut or copy of bytes that are missing,
and otherwise says of each encoding in turn why it refuses. -/
theorem decode_unambiguous (s : String) :
    (∀ e other secret found, decodeAs (Text.trim s) e = .ok secret →
      decodeAs (Text.trim s) other = .ok found → e = other) ∧
    (∀ order : List KeyEncoding, order.Perm KeyEncoding.all → ∀ secret,
      decodeFirst (Text.trim s) [] order = .ok secret ↔ decode s = .ok secret) ∧
    (∀ secret, decode s = .ok secret ↔ ∃ e, Spells (Text.trim s) e secret) ∧
    ((∃ secret, Spells (Text.trim s) .secretHex secret) ↔
      (Text.trim s).toList.length = 64 ∧ (Text.trim s).toList.all isHexDigit = true) ∧
    ((∃ secret, Spells (Text.trim s) .seedHex secret) ↔
      (Text.trim s).toList.length = 32 ∧ (Text.trim s).toList.all isHexDigit = true) ∧
    ((∀ secret, decode s ≠ .ok secret) → ∃ attempts : List KeyAttempt,
      decode s = .error (.unrecognized attempts) ∧
      attempts.map (·.encoding) = [.secretHex, .seedBase58, .seedHex] ∧
      ∀ a ∈ attempts, decodeAs (Text.trim s) a.encoding = .error a.fault) ∧
    Guarded.decode s = some (decode s) ∧
    ∀ seed : Bytes, seed.length = seedLength → ∀ text ∈ seedTexts seed,
      decode text = .ok (secretOfSeed seed) := by
  refine ⟨?_, ?_, fun secret => decode_iff, ?_, ?_, ?_, Guarded.decode_eq s, ?_⟩
  · intro e other secret found h ho
    exact (decodeAs_iff.mp h).encoding_eq (decodeAs_iff.mp ho)
  · intro order horder secret
    rw [decodeFirst_iff, decode_iff]
    constructor
    · rintro ⟨e, -, h⟩
      exact ⟨e, h⟩
    · rintro ⟨e, h⟩
      exact ⟨e, horder.mem_iff.mpr (mem_all e), h⟩
  · rw [← Text.Hex.digits_iff 32]
    constructor
    · rintro ⟨secret, hlength, hdigits⟩
      exact ⟨secret, hlength, hdigits⟩
    · rintro ⟨secret, hlength, hdigits⟩
      exact ⟨secret, .secretHex hlength hdigits⟩
  · rw [← Text.Hex.digits_iff 16]
    constructor
    · rintro ⟨_, _ | _ | ⟨hlength, hdigits⟩⟩
      exact ⟨_, hlength, hdigits⟩
    · rintro ⟨seed, hlength, hdigits⟩
      exact ⟨_, .seedHex hlength hdigits⟩
  · intro hnone
    obtain ⟨e, -, secret, -, hresult⟩ | ⟨attempts, horder, hfaults, hresult⟩ :=
      decodeFirst_cases (Text.trim s) [] KeyEncoding.all
    · exact (hnone secret hresult).elim
    · exact ⟨attempts, hresult, horder, hfaults⟩
  · intro seed hs text htext
    exact decode_seedTexts hs htext

/-- The seed of the bytes from one to sixteen in its three spellings, and a text that has none. -/
theorem decode_unambiguous_spelled :
    (∀ text ∈ ["0102030405060708090a0b0c0d0e0f10", "sp5fghtJtpUorTwvof1NpDXAzNwf5",
        "sEdSKaCy2JT7JaM7v95H9SxkhP9wS2r"],
      decode text = .ok (secretOfSeed [1, 2, 3, 4, 5, 6, 7, 8, 9, 10, 11, 12, 13, 14, 15, 16])) ∧
    ∃ attempts : List KeyAttempt, decode "not a key" = .error (.unrecognized attempts) ∧
      attempts.map (·.encoding) = [.secretHex, .seedBase58, .seedHex] := by
  have htexts : ["0102030405060708090a0b0c0d0e0f10", "sp5fghtJtpUorTwvof1NpDXAzNwf5",
      "sEdSKaCy2JT7JaM7v95H9SxkhP9wS2r"] =
        seedTexts [1, 2, 3, 4, 5, 6, 7, 8, 9, 10, 11, 12, 13, 14, 15, 16] := by decide +kernel
  have hnone : (decode "not a key").toOption = none := by decide
  obtain ⟨-, -, -, -, -, hrefused, -, hseeds⟩ := decode_unambiguous "not a key"
  refine ⟨fun text htext => hseeds _ rfl text (htexts ▸ htext), ?_⟩
  obtain ⟨attempts, hresult, horder, -⟩ := hrefused fun secret h => by
    rw [h] at hnone
    cases hnone
  exact ⟨attempts, hresult, horder⟩

end Attestor.KeyText
