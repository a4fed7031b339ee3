import Attestor.Asset.Currency
import Attestor.Proofs.MessageReading
import Attestor.Text.Hex
import Mathlib.Data.List.Forall2

namespace Attestor

namespace Bytes

theorem ofString_ofList (cs : List Char) :
    ofString (String.ofList cs) = cs.flatMap String.utf8EncodeChar := by
  simp [ofString, String.ofList, List.utf8Encode]

/-- The text whose characters the bytes are. -/
def ascii (bytes : Bytes) : String :=
  String.ofList (bytes.map fun b => Char.ofNat b.toNat)

theorem encoded_ascii : ∀ n < 128, String.utf8EncodeChar (Char.ofNat n) = [UInt8.ofNat n] := by
  decide

theorem ofString_ascii {bytes : Bytes} (h : ∀ b ∈ bytes, b.toNat < 128) :
    ofString (ascii bytes) = bytes := by
  rw [ascii, ofString_ofList, List.flatMap_map]
  induction bytes with
  | nil => rfl
  | cons b bytes ih =>
    rw [List.flatMap_cons, encoded_ascii _ (h b (List.mem_cons_self ..)), UInt8.ofNat_toNat,
      ih fun b hb => h b (List.mem_cons_of_mem _ hb)]
    rfl

end Bytes

namespace Text.Hex

/-- The values of the digits, the high half of each byte first. -/
def halves (bytes : Bytes) : List Nat :=
  bytes.flatMap fun b => [b.toNat / 16, b.toNat % 16]

@[simp] theorem halves_cons (b : UInt8) (bytes : Bytes) :
    halves (b :: bytes) = b.toNat / 16 :: b.toNat % 16 :: halves bytes :=
  rfl

theorem halves_ofNat {v w : Nat} (hv : v < 16) (hw : w < 16) (bytes : Bytes) :
    halves (UInt8.ofNat (16 * v + w) :: bytes) = v :: w :: halves bytes := by
  have hbyte : (UInt8.ofNat (16 * v + w)).toNat = 16 * v + w :=
    UInt8.toNat_ofNat_of_lt' (by omega : 16 * v + w < 256)
  have hfirst : (16 * v + w) / 16 = v := by omega
  have hsecond : (16 * v + w) % 16 = w := by omega
  rw [halves_cons, hbyte, hfirst, hsecond]

theorem length_halves (bytes : Bytes) : (halves bytes).length = 2 * bytes.length := by
  induction bytes with
  | nil => rfl
  | cons b bytes ih =>
    rw [halves_cons, List.length_cons, List.length_cons, ih, List.length_cons]
    omega

theorem halves_lt (bytes : Bytes) : ∀ v ∈ halves bytes, v < 16 := by
  intro v hv
  obtain ⟨b, -, hb⟩ := List.mem_flatMap.mp hv
  have := b.toNat_lt
  simp only [List.mem_cons, List.not_mem_nil, or_false] at hb
  omega

theorem encode_eq (bytes : Bytes) : encode bytes = String.ofList ((halves bytes).map digit) := by
  rw [encode, halves, List.map_flatMap]
  rfl

/-- A byte of the text is the digit of a value. -/
def Reads (b : UInt8) (v : Nat) : Prop :=
  value? b = some v

theorem ascii_of_reads {b : UInt8} {v : Nat} (h : Reads b v) : b.toNat < 128 := by
  have hnine : '9'.toNat < 128 := by decide
  have hlower : 'f'.toNat < 128 := by decide
  have hupper : 'F'.toNat < 128 := by decide
  simp only [Reads, value?] at h
  split at h
  · omega
  · split at h
    · omega
    · split at h
      · omega
      · cases h

theorem lower_values :
    ∀ n < 128, ∀ v ∈ value? (UInt8.ofNat n), v < 16 ∧ (Char.ofNat n).toLower = digit v := by
  decide

theorem values_lower :
    ∀ n < 128, ∀ v < 16, (Char.ofNat n).toLower = digit v → value? (UInt8.ofNat n) = some v := by
  decide

theorem digit_lt : ∀ v < 16, (digit v).toNat < 128 := by
  decide

theorem lower_of_reads {b : UInt8} {v : Nat} (h : Reads b v) :
    v < 16 ∧ (Char.ofNat b.toNat).toLower = digit v := by
  apply lower_values _ (ascii_of_reads h)
  rw [UInt8.ofNat_toNat]
  exact h

theorem ascii_of_lower {c : Char} (h : c.toLower.toNat < 128) : c.toNat < 128 := by
  by_cases hupper : c.val ≥ 'A'.val ∧ c.val ≤ 'Z'.val
  · exact Nat.lt_of_le_of_lt hupper.2 (by decide)
  · have hsame : c.toLower = c := dif_neg hupper
    exact hsame ▸ h

theorem reads_of_lower {c : Char} {v : Nat} (hv : v < 16) (h : c.toLower = digit v) :
    String.utf8EncodeChar c = [UInt8.ofNat c.toNat] ∧ Reads (UInt8.ofNat c.toNat) v := by
  have hascii : c.toNat < 128 := ascii_of_lower (h ▸ digit_lt v hv)
  have hchar : Char.ofNat c.toNat = c := Char.ofNat_toNat c
  refine ⟨?_, values_lower _ hascii v hv (hchar.symm ▸ h)⟩
  rw [← Bytes.encoded_ascii _ hascii, hchar]

theorem reads_of_digits {cs : List Char} {vs : List Nat} (hvs : ∀ v ∈ vs, v < 16)
    (h : cs.map Char.toLower = vs.map digit) :
    List.Forall₂ Reads (cs.flatMap String.utf8EncodeChar) vs := by
  induction vs generalizing cs with
  | nil =>
    rw [List.map_eq_nil_iff.mp h]
    exact .nil
  | cons v vs ih =>
    obtain ⟨c, cs, rfl, hc, hcs⟩ := List.map_eq_cons_iff.mp h
    obtain ⟨hencoded, hreads⟩ := reads_of_lower (hvs v (List.mem_cons_self ..)) hc
    rw [List.flatMap_cons, hencoded]
    exact .cons hreads (ih (fun v hv => hvs v (List.mem_cons_of_mem _ hv)) hcs)

theorem lower_iff_digits {text : String} {vs : List Nat} :
    text.toLower = String.ofList (vs.map digit) ↔ text.toList.map Char.toLower = vs.map digit := by
  have hmap : text.toLower.toList = text.toList.map Char.toLower := String.toList_map
  rw [← String.toList_inj, hmap, String.toList_ofList]

/-- The bytes of the text tell whether it is made of these digits. -/
theorem lower_iff {text : String} {vs : List Nat} (hvs : ∀ v ∈ vs, v < 16) :
    text.toLower = String.ofList (vs.map digit) ↔
      List.Forall₂ Reads (Bytes.ofString text) vs := by
  rw [lower_iff_digits]
  constructor
  · intro h
    rw [← String.ofList_toList (s := text), Bytes.ofString_ofList]
    exact reads_of_digits hvs h
  · intro h
    have hascii : ∀ b ∈ Bytes.ofString text, b.toNat < 128 :=
      ((List.forall₂_and_left _ _).mp (h.imp fun b v hb => ⟨ascii_of_reads hb, hb⟩)).1
    have htext : text = Bytes.ascii (Bytes.ofString text) :=
      Bytes.ofString_inj (Bytes.ofString_ascii hascii).symm
    rw [htext, Bytes.ascii, String.toList_ofList, List.map_map, ← List.forall₂_eq_eq_eq,
      List.forall₂_map_left_iff, List.forall₂_map_right_iff]
    exact h.imp fun b v hb => (lower_of_reads hb).2

theorem pairs_of_reads (position : Nat) {raw bytes : Bytes}
    (h : List.Forall₂ Reads raw (halves bytes)) : pairs position raw = .ok bytes := by
  induction bytes generalizing raw position with
  | nil =>
    rw [List.forall₂_nil_right_iff.mp h]
    rfl
  | cons b bytes ih =>
    rw [halves_cons] at h
    obtain _ | ⟨hhigh, _ | ⟨hlow, hrest⟩⟩ := h
    have hbyte : 16 * (b.toNat / 16) + b.toNat % 16 = b.toNat := Nat.div_add_mod ..
    rw [pairs, hhigh]
    dsimp only
    rw [hlow]
    dsimp only
    rw [ih _ hrest, hbyte, UInt8.ofNat_toNat]
    rfl

theorem reads_of_pairs {position : Nat} {raw bytes : Bytes} (h : pairs position raw = .ok bytes)
    (heven : raw.length % 2 = 0) : List.Forall₂ Reads raw (halves bytes) := by
  fun_induction pairs position raw generalizing bytes with
  | case1 => cases h
  | case2 => cases h
  | case3 position high low rest v hhigh w hlow ih =>
    cases hrest : pairs (position + 2) rest with
    | error e =>
      rw [hrest] at h
      cases h
    | ok bytes =>
      rw [hrest] at h
      cases h
      rw [halves_ofNat (lower_of_reads hhigh).1 (lower_of_reads hlow).1]
      rw [List.length_cons, List.length_cons] at heven
      exact .cons hhigh (.cons hlow (ih hrest (by omega)))
  | case4 raw _ hshort =>
    cases h
    match raw with
    | [] => exact .nil
    | [_] => cases heven
    | high :: low :: rest => exact (hshort high low rest rfl).elim

/-- A text is read exactly if in lower case it is the written form of some bytes. -/
theorem decode_iff {text : String} {bytes : Bytes} :
    decode text = .ok bytes ↔ text.toLower = encode bytes := by
  rw [encode_eq, lower_iff (halves_lt bytes), decode]
  constructor
  · intro h
    split at h
    · cases h
    · exact reads_of_pairs h (by omega)
  · intro h
    have hlength := h.length_eq
    rw [length_halves] at hlength
    rw [if_neg (by omega)]
    exact pairs_of_reads 0 h

theorem size_of_lower {text : String} {bytes : Bytes} (h : text.toLower = encode bytes) :
    text.utf8ByteSize = 2 * bytes.length := by
  rw [encode_eq, lower_iff (halves_lt bytes)] at h
  rw [← Bytes.length_ofString, h.length_eq, length_halves]

theorem toLower_digit : ∀ v < 16, (digit v).toLower = digit v := by
  decide

theorem toLower_encode (bytes : Bytes) : (encode bytes).toLower = encode bytes := by
  rw [encode_eq, lower_iff_digits, String.toList_ofList, List.map_map]
  exact List.map_congr_left fun v hv => toLower_digit v (halves_lt bytes v hv)

/-- Bytes are read back from their digits. -/
theorem decode_encode (bytes : Bytes) : decode (encode bytes) = .ok bytes :=
  decode_iff.mpr (toLower_encode bytes)

theorem isHexDigit_values :
    ∀ n < 128, isHexDigit (Char.ofNat n) = (value? (UInt8.ofNat n)).isSome := by
  decide

theorem ascii_of_isHexDigit {c : Char} (h : isHexDigit c = true) : c.toNat < 128 := by
  simp only [isHexDigit, Bool.or_eq_true, Bool.and_eq_true, decide_eq_true_eq] at h
  obtain (⟨-, h⟩ | ⟨-, h⟩) | ⟨-, h⟩ := h
  all_goals exact Nat.lt_of_le_of_lt h (by decide)

theorem isHexDigit_iff (c : Char) : isHexDigit c = true ↔ ∃ v < 16, c.toLower = digit v := by
  constructor
  · intro h
    have hascii := ascii_of_isHexDigit h
    rw [← Char.ofNat_toNat c, isHexDigit_values _ hascii, Option.isSome_iff_exists] at h
    obtain ⟨v, hv⟩ := h
    obtain ⟨hlt, hlower⟩ := lower_values _ hascii v hv
    exact ⟨v, hlt, Char.ofNat_toNat c ▸ hlower⟩
  · rintro ⟨v, hv, h⟩
    have hascii : c.toNat < 128 := ascii_of_lower (h ▸ digit_lt v hv)
    have hreads : value? (UInt8.ofNat c.toNat) = some v := (reads_of_lower hv h).2
    rw [← Char.ofNat_toNat c, isHexDigit_values _ hascii, hreads]
    rfl

/-- Twice as many hexadecimal digits are the bytes of some text. -/
theorem exists_bytes {n : Nat} {cs : List Char} (hlength : cs.length = 2 * n)
    (h : ∀ c ∈ cs, isHexDigit c = true) :
    ∃ bytes : Bytes, bytes.length = n ∧ cs.map Char.toLower = (halves bytes).map digit := by
  induction n generalizing cs with
  | zero =>
    rw [List.length_eq_zero_iff.mp hlength]
    exact ⟨[], rfl, rfl⟩
  | succ n ih =>
    match cs with
    | high :: low :: cs =>
      obtain ⟨v, hv, hhigh⟩ := (isHexDigit_iff high).mp (h _ (by simp))
      obtain ⟨w, hw, hlow⟩ := (isHexDigit_iff low).mp (h _ (by simp))
      rw [List.length_cons, List.length_cons] at hlength
      obtain ⟨bytes, hbytes, hcs⟩ := ih (by omega : cs.length = 2 * n)
        fun c hc => h c (List.mem_cons_of_mem _ (List.mem_cons_of_mem _ hc))
      refine ⟨UInt8.ofNat (16 * v + w) :: bytes, by rw [List.length_cons, hbytes], ?_⟩
      rw [halves_ofNat hv hw, List.map_cons, List.map_cons, hhigh, hlow, hcs]
      rfl

/-- The texts of so many bytes are those of twice as many digits. -/
theorem digits_iff (n : Nat) (text : String) :
    (∃ bytes : Bytes, bytes.length = n ∧ text.toLower = encode bytes) ↔
      text.toList.length = 2 * n ∧ text.toList.all isHexDigit = true := by
  simp only [encode_eq, lower_iff_digits, List.all_eq_true]
  constructor
  · rintro ⟨bytes, hbytes, h⟩
    have hlength := congrArg List.length h
    rw [List.length_map, List.length_map, length_halves, hbytes] at hlength
    refine ⟨hlength, fun c hc => (isHexDigit_iff c).mpr ?_⟩
    have hc : c.toLower ∈ (halves bytes).map digit := h ▸ List.mem_map_of_mem hc
    obtain ⟨v, hv, hdigit⟩ := List.mem_map.mp hc
    exact ⟨v, halves_lt bytes v hv, hdigit.symm⟩
  · rintro ⟨hlength, h⟩
    exact exists_bytes hlength h

end Text.Hex

end Attestor
