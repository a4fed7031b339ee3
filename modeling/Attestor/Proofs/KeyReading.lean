import Attestor.Proofs.Base58Reading
import Attestor.Proofs.HexReading
import Attestor.Signing.KeyText

namespace Attestor

namespace Text

theorem trim_of_plain {s : String} (h : ∀ c ∈ s.toList, isBlank c = false) : trim s = s := by
  have hdrop : ∀ cs : List Char, (∀ c ∈ cs, isBlank c = false) → cs.dropWhile isBlank = cs := by
    intro cs hcs
    cases cs with
    | nil => rfl
    | cons c cs => exact List.dropWhile_cons_of_neg (by simp [hcs c (List.mem_cons_self ..)])
  rw [trim, hdrop _ h, hdrop _ fun c hc => h c (List.mem_reverse.mp hc), List.reverse_reverse,
    String.ofList_toList]

end Text

namespace KeyText

/-- A seed behind its version, and the checksum of both. -/
def marked (version seed : Bytes) : Bytes :=
  version ++ seed ++ checksum (version ++ seed)

/-- The base58 spelling of a seed. -/
def seedText (version seed : Bytes) : String :=
  Bytes.ascii (Text.Base58.encode (marked version seed))

/-- The text spells this secret key in the encoding. Hexadecimal digits are of either case. -/
inductive Spells (text : String) : KeyEncoding → Bytes → Prop where
  | secretHex {secret : Bytes} (length : secret.length = keyLength)
      (digits : text.toLower = Text.Hex.encode secret) : Spells text .secretHex secret
  | seedBase58 {version seed : Bytes} (known : version ∈ versions)
      (length : seed.length = seedLength) (same : text = seedText version seed) :
      Spells text .seedBase58 (secretOfSeed seed)
  | seedHex {seed : Bytes} (length : seed.length = seedLength)
      (digits : text.toLower = Text.Hex.encode seed) : Spells text .seedHex (secretOfSeed seed)

theorem decodeHex_iff {length : Nat} {text : String} {bytes : Bytes} :
    decodeHex length text = .ok bytes ↔
      bytes.length = length ∧ text.toLower = Text.Hex.encode bytes := by
  rw [decodeHex]
  constructor
  · intro h
    split at h
    · cases h
    · rename_i hsize
      cases hd : Text.Hex.decode text with
      | error e =>
        rw [hd] at h
        cases h
      | ok found =>
        rw [hd] at h
        cases h
        have hdigits := Text.Hex.decode_iff.mp hd
        have := Text.Hex.size_of_lower hdigits
        exact ⟨by omega, hdigits⟩
  · rintro ⟨rfl, hdigits⟩
    have hsize := Text.Hex.size_of_lower hdigits
    rw [if_neg (by omega), Text.Hex.decode_iff.mpr hdigits]
    rfl

theorem length_checksum (payload : Bytes) : (checksum payload).length = checksumLength := by
  rw [checksum, List.length_take, Hash.Sha256.length_hash]
  rfl

theorem length_marked {version seed : Bytes} (hs : seed.length = seedLength) :
    (marked version seed).length = version.length + seedLength + checksumLength := by
  rw [marked, List.length_append, List.length_append, length_checksum, hs]

/-- The versions differ in length, so the length alone finds the version. -/
theorem find_version {version seed : Bytes} (hv : version ∈ versions)
    (hs : seed.length = seedLength) :
    (versions.find? fun v =>
      (marked version seed).length = v.length + seedLength + checksumLength ∧
        (marked version seed).take v.length = v) = some version := by
  have htake : (marked version seed).take version.length = version := by
    rw [marked, List.append_assoc, List.take_left]
  rw [length_marked hs]
  simp only [versions, List.mem_cons, List.not_mem_nil, or_false] at hv
  obtain rfl | rfl := hv
  · rw [versions, List.find?_cons_of_pos]
    simpa using htake
  · rw [versions, List.find?_cons_of_neg, List.find?_cons_of_pos]
    · simpa using htake
    · simp

theorem decodeSeed_of_read {text : String} {version seed : Bytes} (hv : version ∈ versions)
    (hs : seed.length = seedLength)
    (h : Text.Base58.decode (Bytes.ofString text) = .ok (marked version seed)) :
    decodeSeed text = .ok seed := by
  have hrest : (marked version seed).length - checksumLength = (version ++ seed).length := by
    rw [length_marked hs, List.length_append, hs]
    omega
  rw [decodeSeed, h]
  simp only [Except.mapError, bind, Except.bind, find_version hv hs, hrest]
  rw [marked, List.drop_left, List.take_left, if_pos rfl, List.drop_left]
  rfl

theorem read_of_decodeSeed {text : String} {seed : Bytes} (h : decodeSeed text = .ok seed) :
    ∃ version ∈ versions, seed.length = seedLength ∧
      Text.Base58.decode (Bytes.ofString text) = .ok (marked version seed) := by
  rw [decodeSeed] at h
  cases hd : Text.Base58.decode (Bytes.ofString text) with
  | error e =>
    rw [hd] at h
    cases h
  | ok raw =>
    rw [hd] at h
    simp only [Except.mapError, bind, Except.bind] at h
    split at h
    · cases h
    · rename_i version hfind
      split at h
      · rename_i hsum
        cases h
        have hfound := List.find?_some hfind
        obtain ⟨hlength, hstart⟩ := of_decide_eq_true hfound
        have hpayload := List.prefix_append_drop (List.prefix_take_iff.mpr
          ⟨List.prefix_iff_eq_take.mpr hstart.symm,
            (by omega : version.length ≤ raw.length - checksumLength)⟩)
        refine ⟨version, List.mem_of_find?_eq_some hfind, ?_, ?_⟩
        · rw [List.length_drop, List.length_take, hlength]
          omega
        · rw [marked, ← hpayload, ← hsum, List.take_append_drop]
      · cases h

theorem ofString_seedText (version seed : Bytes) :
    Bytes.ofString (seedText version seed) = Text.Base58.encode (marked version seed) := by
  apply Bytes.ofString_ascii
  intro c hc
  obtain ⟨d, hd, rfl⟩ := Text.Base58.encode_characters _ c hc
  exact Text.Base58.character_ascii d hd

theorem decodeSeed_iff {text : String} {seed : Bytes} :
    decodeSeed text = .ok seed ↔
      ∃ version ∈ versions, seed.length = seedLength ∧ text = seedText version seed := by
  constructor
  · intro h
    obtain ⟨version, hv, hs, hread⟩ := read_of_decodeSeed h
    refine ⟨version, hv, hs, Bytes.ofString_inj ?_⟩
    rw [ofString_seedText, Text.Base58.decode_iff.mp hread]
  · rintro ⟨version, hv, hs, rfl⟩
    exact decodeSeed_of_read hv hs (Text.Base58.decode_iff.mpr (ofString_seedText version seed))

theorem decodeAs_iff {text : String} {encoding : KeyEncoding} {secret : Bytes} :
    decodeAs text encoding = .ok secret ↔ Spells text encoding secret := by
  cases encoding with
  | secretHex =>
    rw [decodeAs, decodeHex_iff]
    constructor
    · rintro ⟨hlength, hdigits⟩
      exact .secretHex hlength hdigits
    · rintro ⟨hlength, hdigits⟩
      exact ⟨hlength, hdigits⟩
  | seedBase58 =>
    rw [decodeAs]
    constructor
    · intro h
      cases hd : decodeSeed text with
      | error e =>
        rw [hd] at h
        cases h
      | ok seed =>
        rw [hd] at h
        cases h
        obtain ⟨version, hv, hs, htext⟩ := decodeSeed_iff.mp hd
        exact .seedBase58 hv hs htext
    · rintro (_ | ⟨hv, hs, htext⟩)
      rw [decodeSeed_iff.mpr ⟨_, hv, hs, htext⟩]
      rfl
  | seedHex =>
    rw [decodeAs]
    constructor
    · intro h
      cases hd : decodeHex seedLength text with
      | error e =>
        rw [hd] at h
        cases h
      | ok seed =>
        rw [hd] at h
        cases h
        obtain ⟨hs, hdigits⟩ := decodeHex_iff.mp hd
        exact .seedHex hs hdigits
    · rintro (_ | _ | ⟨hs, hdigits⟩)
      rw [decodeHex_iff.mpr ⟨hs, hdigits⟩]
      rfl

/-- The base58 spelling of a seed has 29 or 31 characters, by its version. -/
theorem size_seedText {version seed : Bytes} (hv : version ∈ versions)
    (hs : seed.length = seedLength) :
    (seedText version seed).utf8ByteSize = 29 ∨ (seedText version seed).utf8ByteSize = 31 := by
  have hrest : ∀ payload, (seed ++ checksum payload).length = 20 := by
    intro payload
    rw [List.length_append, length_checksum, hs]
    rfl
  rw [← Bytes.length_ofString, ofString_seedText, marked, List.append_assoc]
  simp only [versions, List.mem_cons, List.not_mem_nil, or_false] at hv
  obtain rfl | rfl := hv
  · exact .inl (Text.Base58.encode_length (by decide) (hrest _) (by decide) (by decide))
  · have hlength : ∀ payload, ([0xE1, 0x4B] ++ (seed ++ checksum payload)).length = 22 := by
      intro payload
      rw [List.length_append, hrest]
      rfl
    exact .inr (Text.Base58.encode_length (by decide) (hlength _) (by decide) (by decide))

/-- How many bytes the spellings of each encoding have. -/
def sizes : KeyEncoding → List Nat
  | .secretHex => [64]
  | .seedBase58 => [29, 31]
  | .seedHex => [32]

theorem sizes_apart (encoding other : KeyEncoding) :
    ∀ n ∈ sizes encoding, n ∈ sizes other → encoding = other := by
  cases encoding <;> cases other <;> decide

theorem Spells.size {text : String} {encoding : KeyEncoding} {secret : Bytes}
    (h : Spells text encoding secret) : text.utf8ByteSize ∈ sizes encoding := by
  cases h with
  | secretHex hlength hdigits =>
    rw [Text.Hex.size_of_lower hdigits, hlength]
    decide
  | seedBase58 hv hs htext =>
    rw [htext]
    obtain hsize | hsize := size_seedText hv hs <;> simp [sizes, hsize]
  | seedHex hs hdigits =>
    rw [Text.Hex.size_of_lower hdigits, hs]
    decide

/-- No text is spelled in two encodings. -/
theorem Spells.encoding_eq {text : String} {encoding other : KeyEncoding} {secret found : Bytes}
    (h : Spells text encoding secret) (ho : Spells text other found) : encoding = other :=
  sizes_apart encoding other _ h.size ho.size

theorem Spells.secret_eq {text : String} {encoding other : KeyEncoding} {secret found : Bytes}
    (h : Spells text encoding secret) (ho : Spells text other found) : secret = found := by
  obtain rfl := h.encoding_eq ho
  exact Except.ok.inj ((decodeAs_iff.mpr h).symm.trans (decodeAs_iff.mpr ho))

end KeyText

end Attestor
