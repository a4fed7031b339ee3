import Attestor.Proofs.NumberReading
import Attestor.Text.Base58
import Mathlib.Data.List.GetD
import Mathlib.Data.Nat.Digits.Lemmas

namespace Attestor.Text.Base58

theorem digits_eq {base : Nat} (hb : 1 < base) (acc : List Nat) (n : Nat) :
    digits base acc n = (base.digits n).reverse ++ acc := by
  induction n using Nat.strongRecOn generalizing acc with
  | ind n ih =>
    rw [digits]
    by_cases hn : 0 < n
    · rw [dif_pos ⟨hn, hb⟩, ih (n / base) (Nat.div_lt_self hn hb), Nat.digits_def' hb hn,
        List.reverse_cons, List.append_assoc, List.singleton_append]
    · rw [dif_neg fun h => hn h.1, Nat.eq_zero_of_not_pos hn, Nat.digits_zero]
      rfl

theorem ofDigits_eq (base : Nat) (ds : List Nat) :
    ofDigits base ds = Nat.ofDigits base ds.reverse := by
  rw [ofDigits, Nat.ofDigits_eq_foldr, List.foldr_reverse]
  congr 1
  funext n d
  exact Nat.add_comm ..

theorem zeros_split (ds : List Nat) :
    ∃ zeros rest, ds = List.replicate zeros 0 ++ rest ∧ rest.head? ≠ some 0 := by
  obtain ⟨zeros, hzeros⟩ := zeros_before 0 ds
  exact ⟨zeros, _, hzeros, head_after_zeros 0 ds⟩

/-- Zeros at the front stand for themselves, and do not count in the number of the rest. -/
theorem rebase_zeros {target : Nat} (ht : 1 < target) (source zeros : Nat) {rest : List Nat}
    (h : rest.head? ≠ some 0) :
    rebase source target (List.replicate zeros 0 ++ rest) =
      List.replicate zeros 0 ++ (target.digits (Nat.ofDigits source rest.reverse)).reverse := by
  have htake : rest.takeWhile (· == 0) = [] := by
    cases rest with
    | nil => rfl
    | cons d rest =>
      rw [List.takeWhile_cons_of_neg]
      simpa using h
  rw [rebase, List.takeWhile_append_of_pos (by simp), htake, digits_eq ht, ofDigits_eq,
    List.reverse_append, List.reverse_replicate, Nat.ofDigits_append_replicate_zero,
    List.append_nil, List.append_nil]

theorem digits_head {base : Nat} (n : Nat) : (base.digits n).reverse.head? ≠ some 0 := by
  rw [List.head?_reverse]
  intro h
  by_cases hn : n = 0
  · rw [hn, Nat.digits_zero] at h
    cases h
  · have hne : base.digits n ≠ [] := Nat.digits_ne_nil_iff_ne_zero.mpr hn
    rw [List.getLast?_eq_getLast_of_ne_nil hne, Option.some.injEq] at h
    exact Nat.getLast_digit_ne_zero base hn h

theorem rebase_lt {source target : Nat} (ht : 1 < target) (ds : List Nat) :
    ∀ d ∈ rebase source target ds, d < target := by
  obtain ⟨zeros, rest, rfl, hrest⟩ := zeros_split ds
  rw [rebase_zeros ht source zeros hrest]
  intro d hd
  rcases List.mem_append.mp hd with hd | hd
  · rw [(List.mem_replicate.mp hd).2]
    omega
  · exact Nat.digits_lt_base ht (List.mem_reverse.mp hd)

/-- Going to another base and back loses nothing. -/
theorem rebase_rebase {source target : Nat} (hs : 1 < source) (ht : 1 < target) {ds : List Nat}
    (h : ∀ d ∈ ds, d < source) : rebase target source (rebase source target ds) = ds := by
  obtain ⟨zeros, rest, rfl, hrest⟩ := zeros_split ds
  rw [rebase_zeros ht source zeros hrest, rebase_zeros hs target zeros (digits_head _),
    List.reverse_reverse, Nat.ofDigits_digits, Nat.digits_ofDigits source hs, List.reverse_reverse]
  · intro d hd
    exact h d (List.mem_append_right _ (List.mem_reverse.mp hd))
  · intro hne hlast
    have hhead : rest.head? = some 0 := by
      rw [← List.getLast?_reverse, List.getLast?_eq_getLast_of_ne_nil hne, hlast]
    exact hrest hhead

/-- The character of a digit. -/
def character (d : Nat) : UInt8 :=
  alphabet.getD d 0

theorem character_read :
    ∀ d < 58, ¬ 127 < character d ∧ alphabet.idxOf? (character d) = some d := by
  decide

theorem character_of_read {b : UInt8} {d : Nat} (h : alphabet.idxOf? b = some d) :
    d < 58 ∧ character d = b := by
  have hlength : alphabet.length = 58 := by decide
  obtain ⟨hd, hb, -⟩ := List.idxOf?_eq_some_iff.mp h
  refine ⟨hlength ▸ hd, ?_⟩
  rw [character, List.getD_eq_getElem _ _ hd, hb]

theorem values_characters {ds : List Nat} (h : ∀ d ∈ ds, d < 58) (position : Nat) :
    values position (ds.map character) = .ok ds := by
  induction ds generalizing position with
  | nil => rfl
  | cons d ds ih =>
    obtain ⟨hascii, hread⟩ := character_read d (h d (List.mem_cons_self ..))
    rw [List.map_cons, values, if_neg hascii, hread]
    dsimp only
    rw [ih fun d hd => h d (List.mem_cons_of_mem _ hd)]
    rfl

theorem characters_of_values {position : Nat} {text : Bytes} {ds : List Nat}
    (h : values position text = .ok ds) : text = ds.map character ∧ ∀ d ∈ ds, d < 58 := by
  induction text generalizing position ds with
  | nil =>
    cases h
    exact ⟨rfl, by simp⟩
  | cons b text ih =>
    rw [values] at h
    split at h
    · cases h
    · split at h
      · cases h
      · rename_i v hv
        cases hrest : values (position + 1) text with
        | error e =>
          rw [hrest] at h
          cases h
        | ok rest =>
          rw [hrest] at h
          cases h
          obtain ⟨hlt, hb⟩ := character_of_read hv
          obtain ⟨htext, hall⟩ := ih hrest
          refine ⟨by rw [List.map_cons, hb, ← htext], ?_⟩
          intro d hd
          rcases List.mem_cons.mp hd with rfl | hd
          · exact hlt
          · exact hall d hd

theorem map_toNat_ofNat {ds : List Nat} (h : ∀ d ∈ ds, d < 256) :
    (ds.map UInt8.ofNat).map UInt8.toNat = ds := by
  have hid : ∀ d ∈ ds, (UInt8.toNat ∘ UInt8.ofNat) d = id d :=
    fun d hd => UInt8.toNat_ofNat_of_lt' (h d hd)
  rw [List.map_map, List.map_congr_left hid, List.map_id]

/-- A text is read exactly if it is the written form of some bytes, and then as these bytes. -/
theorem decode_iff {text bytes : Bytes} : decode text = .ok bytes ↔ text = encode bytes := by
  constructor
  · intro h
    rw [decode] at h
    cases hv : values 0 text with
    | error e =>
      rw [hv] at h
      cases h
    | ok ds =>
      rw [hv] at h
      cases h
      obtain ⟨rfl, hds⟩ := characters_of_values hv
      rw [encode, map_toNat_ofNat (rebase_lt (by decide) ds),
        rebase_rebase (by decide) (by decide) hds]
      rfl
  · rintro rfl
    have hbytes : ∀ d ∈ bytes.map UInt8.toNat, d < 256 := by
      intro d hd
      obtain ⟨b, -, rfl⟩ := List.mem_map.mp hd
      exact b.toNat_lt
    have hencode : encode bytes = (rebase 256 58 (bytes.map UInt8.toNat)).map character := rfl
    rw [decode, hencode, values_characters (rebase_lt (by decide) _), Except.map,
      rebase_rebase (by decide) (by decide) hbytes, List.map_map]
    congr 1
    exact List.map_id'' (fun b => UInt8.ofNat_toNat) bytes

/-- The first byte and the count of the others bound the number that bytes make up. -/
theorem ofDigits_bounds (b : UInt8) (rest : Bytes) :
    b.toNat * 256 ^ rest.length ≤ Nat.ofDigits 256 ((b :: rest).map UInt8.toNat).reverse ∧
      Nat.ofDigits 256 ((b :: rest).map UInt8.toNat).reverse <
        (b.toNat + 1) * 256 ^ rest.length := by
  have hrest : Nat.ofDigits 256 (rest.map UInt8.toNat).reverse < 256 ^ rest.length := by
    have h := Nat.ofDigits_lt_base_pow_length (b := 256) (l := (rest.map UInt8.toNat).reverse)
      (by decide) fun d hd => by
        obtain ⟨b, -, rfl⟩ := List.mem_map.mp (List.mem_reverse.mp hd)
        exact b.toNat_lt
    rwa [List.length_reverse, List.length_map] at h
  rw [List.map_cons, List.reverse_cons, Nat.ofDigits_append, List.length_reverse, List.length_map,
    Nat.ofDigits_singleton, Nat.add_mul, Nat.one_mul, Nat.mul_comm (256 ^ rest.length)]
  omega

/-- The first byte and the count of the others tell how long the written form is. -/
theorem encode_length {b : UInt8} {rest : Bytes} {m k : Nat} (hb : b ≠ 0) (hm : rest.length = m)
    (hl : 58 ^ k ≤ b.toNat * 256 ^ m) (hu : (b.toNat + 1) * 256 ^ m ≤ 58 ^ (k + 1)) :
    (encode (b :: rest)).length = k + 1 := by
  have hhead : ((b :: rest).map UInt8.toNat).head? ≠ some 0 := by
    intro h
    exact hb (UInt8.toNat_inj.mp (Option.some.inj h))
  have hrebase := rebase_zeros (by decide : 1 < 58) 256 0 hhead
  rw [List.replicate_zero, List.nil_append, List.nil_append] at hrebase
  obtain ⟨hleast, hmost⟩ := ofDigits_bounds b rest
  rw [hm] at hleast hmost
  have h₁ := (Nat.lt_digits_length_iff (by decide : 1 < 58) _).mpr (Nat.le_trans hl hleast)
  have h₂ := (Nat.digits_length_le_iff (by decide : 1 < 58) _).mpr (Nat.lt_of_lt_of_le hmost hu)
  rw [encode, hrebase, List.length_map, List.length_reverse]
  exact Nat.le_antisymm h₂ h₁

theorem character_ascii : ∀ d < 58, (character d).toNat < 128 := by
  decide

theorem encode_characters (bytes : Bytes) : ∀ c ∈ encode bytes, ∃ d < 58, c = character d := by
  intro c hc
  obtain ⟨d, hd, rfl⟩ := List.mem_map.mp hc
  exact ⟨d, rebase_lt (by decide) _ d hd, rfl⟩

end Attestor.Text.Base58
