import Attestor.Proofs.DecimalSpelling
import Mathlib.Tactic.FieldSimp

namespace Attestor.Decimal

/-- The number that a spelling denotes: tenths, hundredths and so on stand after the point. -/
def Spelling.number (p : Spelling) : ℚ :=
  (if p.negative then -1 else 1) *
    (Text.digitsValue 0 p.whole + Text.digitsValue 0 p.fraction / 10 ^ p.fraction.length) *
      10 ^ p.exponent

theorem cast_withSign (negative : Bool) (n : Nat) :
    (Text.withSign negative n : ℚ) = (if negative then -1 else 1) * n := by
  cases negative <;> simp [Text.withSign]

/-- All digits in front of one power of ten. -/
theorem Spelling.number_eq (p : Spelling) :
    p.number = Text.withSign p.negative (Text.digitsValue 0 (p.whole ++ p.fraction)) *
      10 ^ (p.exponent - p.fraction.length) := by
  have hten : (10 : ℚ) ^ p.fraction.length ≠ 0 := pow_ne_zero _ (by norm_num)
  rw [number, cast_withSign, Text.digitsValue_append, zpow_sub₀ (by norm_num), zpow_natCast, mul_assoc,
    mul_assoc]
  congr 1
  push_cast
  field_simp

/-- The digits between the zeros at either end. -/
theorem between_zeros {text digits significant : List Char}
    (hd : text.dropWhile (· == '0') = digits)
    (hs : (digits.reverse.dropWhile (· == '0')).reverse = significant) :
    ∃ before after : Nat, digits = significant ++ List.replicate after '0' ∧
      text = List.replicate before '0' ++ digits ∧ significant.head? ≠ some '0' ∧
        significant.getLast? ≠ some '0' := by
  obtain ⟨before, hbefore⟩ := Text.zeros_before '0' text
  obtain ⟨after, hafter⟩ := Text.zeros_before '0' digits.reverse
  have hdigits : digits = significant ++ List.replicate after '0' := by
    rw [← hs, ← List.reverse_inj, List.reverse_append, List.reverse_replicate,
      List.reverse_reverse]
    exact hafter
  refine ⟨before, after, hdigits, hd ▸ hbefore, ?_, ?_⟩
  · intro h
    have hhead : digits.head? = some '0' := by
      rw [hdigits, List.head?_append, h, Option.some_or]
    exact Text.head_after_zeros '0' text (hd ▸ hhead)
  · rw [← hs, List.getLast?_reverse]
    exact Text.head_after_zeros '0' digits.reverse

theorem significant_mod {significant : List Char}
    (hd : ∀ c ∈ significant, Text.isDigit c = true) (hne : significant ≠ [])
    (hlast : significant.getLast? ≠ some '0') : Text.digitsValue 0 significant % 10 ≠ 0 := by
  obtain ⟨front, c, rfl⟩ : ∃ front c, significant = front ++ [c] :=
    ⟨_, _, (List.dropLast_append_getLast hne).symm⟩
  have hc := hd c (by simp)
  have hlt := Text.digitValue_lt hc
  have hvalue : Text.digitsValue 0 [c] = Text.digitValue c := by simp [Text.digitsValue]
  rw [Text.digitsValue_append, hvalue]
  intro h
  have hzero : Text.digitValue c = 0 := by
    simp at h
    omega
  have hchar := Text.digitChar_digitValue hc
  rw [hzero] at hchar
  subst hchar
  exact hlast (by simp)

/-- Digits without a zero in front are more than sixteen exactly if their number needs more. -/
theorem significant_long {significant : List Char}
    (hd : ∀ c ∈ significant, Text.isDigit c = true) (hne : significant ≠ [])
    (hhead : significant.head? ≠ some '0') :
    16 < significant.length ↔ ¬ Text.digitsValue 0 significant < 10 ^ 16 := by
  have hcount := Nat.length_toDigits_le_iff (b := 10) (n := Text.digitsValue 0 significant)
    (k := 16) (by decide) (by decide)
  rw [Text.toDigits_digitsValue hd hhead hne] at hcount
  rw [← hcount, Nat.not_le]

theorem zeros_le {m z : Nat} (hm : 0 < m) (h : m * 10 ^ z ≤ greatestMantissa.toNat) :
    m < 10 ^ 16 ∧ z ≤ 15 := by
  have hgreatest : greatestMantissa.toNat = 9999999999999999 := rfl
  have hl : m ≤ m * 10 ^ z := Nat.le_mul_of_pos_right _ (Nat.pow_pos (by decide))
  have hr : 10 ^ z ≤ m * 10 ^ z := Nat.le_mul_of_pos_left _ hm
  refine ⟨by omega, ?_⟩
  apply Nat.le_of_not_lt
  intro hz
  have hp : 10 ^ 16 ≤ 10 ^ z := Nat.pow_le_pow_right (by decide) hz
  omega

/-- A value's digits end within sixteen places of its exponent. -/
theorem digits_bound {d : Decimal} {negative : Bool} {n : Nat} {y : Int} (hn : n % 10 ≠ 0)
    (h : d.number = Text.withSign negative n * 10 ^ y) : n < 10 ^ 16 ∧ -96 ≤ y ∧ y ≤ 95 := by
  obtain ⟨h0, -⟩ | ⟨-, hu, hel, heu⟩ := d.normal
  · rw [number_eq_zero.mpr h0] at h
    have hzero : (Text.withSign negative n : ℚ) = 0 :=
      (mul_eq_zero.mp h.symm).resolve_right (zpow_ne_zero _ (by norm_num))
    have habs := Text.natAbs_withSign negative n
    rw [Int.cast_eq_zero.mp hzero] at habs
    subst habs
    exact absurd rfl hn
  · simp only [leastExponent, greatestExponent] at hel heu
    have hle : d.exponent.toInt ≤ y := by
      by_contra hlt
      obtain ⟨k, hk⟩ : ∃ k : Nat, d.exponent.toInt = y + (k + 1 : Nat) :=
        ⟨(d.exponent.toInt - y - 1).toNat, by omega⟩
      rw [number, hk] at h
      have habs := natAbs_scaled h
      rw [Text.natAbs_withSign, pow_succ, ← mul_assoc] at habs
      omega
    obtain ⟨k, rfl⟩ : ∃ k : Nat, y = d.exponent.toInt + k :=
      ⟨(y - d.exponent.toInt).toNat, by omega⟩
    have habs := natAbs_scaled h.symm
    rw [Text.natAbs_withSign] at habs
    rw [← habs] at hu
    obtain ⟨hs, hk⟩ := zeros_le (by omega) hu
    exact ⟨hs, by omega, by omega⟩

/-- Zeros at either end of the digits only move the power of ten. -/
theorem Spelling.number_between {p : Spelling} {significant : List Char} {before after : Nat}
    (h : p.whole ++ p.fraction =
      List.replicate before '0' ++ (significant ++ List.replicate after '0')) :
    p.number = Text.withSign p.negative (Text.digitsValue 0 significant) *
      10 ^ (p.exponent - p.fraction.length + after) := by
  have hvalue : Text.digitsValue 0 (p.whole ++ p.fraction) =
      Text.digitsValue 0 significant * 10 ^ after := by
    rw [h, Text.digitsValue_append, Text.digitsValue_zeros, Text.digitsValue_append,
      Text.digitsValue_zeros, List.length_replicate, Nat.zero_mul, Nat.zero_add, Nat.add_zero]
  rw [number_eq, hvalue, Text.withSign_mul, zpow_add₀ (by norm_num), zpow_natCast]
  push_cast
  ring

/-- Where a value denotes the number, its digits and exponents fit their words. -/
theorem fits_of_number {d : Decimal} {negative : Bool} {n after : Nat} {places : Int}
    (hn : n % 10 ≠ 0) (hafter : after < twoPow 30)
    (h : d.number = Text.withSign negative n * 10 ^ (places + after)) :
    n < 10 ^ 16 ∧ FitsSigned 32 places ∧ FitsSigned 32 (places + after) := by
  have hroom : twoPow 30 = 1073741824 := rfl
  have hword : (twoPow (32 - 1) : Int) = 2147483648 := rfl
  obtain ⟨hs, hl, hu⟩ := digits_bound hn h
  simp only [FitsSigned, hword]
  omega

/-- What a spelling is read as. Up to this length of the text no exponent on the way leaves its
word, unless the number has no normal form anyway. -/
theorem ofString_of_read {s : String} {p : Spelling} {d : Decimal}
    (hp : Spelling.read? s.toList = some p) (hlength : (p.whole ++ p.fraction).length < twoPow 30) :
    ofString s = .ok d ↔ d.number = p.number := by
  obtain ⟨-, -, hdigits⟩ := Spelling.read_iff.mp hp
  simp only [ofString, hp]
  generalize hd : (p.whole ++ p.fraction).dropWhile (· == '0') = digits
  generalize hs : (digits.reverse.dropWhile (· == '0')).reverse = significant
  obtain ⟨before, after, rfl, htext, hhead, hlast⟩ := between_zeros hd hs
  have hdropped :
      (significant ++ List.replicate after '0').length - significant.length = after := by
    rw [List.length_append, List.length_replicate, Nat.add_sub_cancel_left]
  have hafter : after < twoPow 30 := by
    simp only [htext, List.length_append, List.length_replicate] at hlength
    omega
  rw [Spelling.number_between htext, hdropped]
  by_cases hne : significant = []
  · rw [if_pos hne, hne]
    have hzero : (Text.withSign p.negative (Text.digitsValue 0 []) : ℚ) = 0 := by
      cases p.negative <;> rfl
    rw [hzero, zero_mul, ← zero_number, number_inj, Except.ok.injEq, eq_comm]
  rw [if_neg hne]
  have hsig : ∀ c ∈ significant, Text.isDigit c = true := by
    intro c hc
    apply hdigits c
    rw [htext]
    simp [hc]
  have hmod := significant_mod hsig hne hlast
  have hlong := significant_long hsig hne hhead
  generalize Text.digitsValue 0 significant = n at hmod hlong
  generalize p.exponent - p.fraction.length = places
  by_cases hfits : n < 10 ^ 16 ∧ FitsSigned 32 places ∧ FitsSigned 32 (places + after)
  · obtain ⟨hn, hexponents⟩ := hfits
    have hword : (twoPow (32 - 1) : Int) = 2147483648 := rfl
    have hm : (UInt64.ofNat n).toNat = n := UInt64.toNat_ofNat_of_lt' (by simp [UInt64.size]; omega)
    have hx : (Int32.ofInt (places + after)).toInt = places + after := by
      simp only [FitsSigned, hword] at hexponents
      exact Int32.toInt_ofInt_of_le (by omega) (by omega)
    rw [if_neg (fun h => hlong.mp h hn), if_pos hexponents, ofParts_iff, hm, hx]
  · constructor
    · intro h
      split at h
      · cases h
      · rename_i hshort
        rw [hlong, not_not] at hshort
        rw [if_neg (fun he => hfits ⟨hshort, he⟩)] at h
        cases h
    · intro h
      exact absurd (fits_of_number hmod hafter h) hfits

/-- Sixteen digits at most, in front of a power of ten. -/
def FewDigits (q : ℚ) : Prop :=
  ∃ n x : Int, n.natAbs < 10 ^ 16 ∧ q = n * 10 ^ x

/-- The power of ten that remains when sixteen digits stand in front of it. -/
def HasExponent (q : ℚ) (e : Int) : Prop :=
  10 ^ (e + 15) ≤ |q| ∧ |q| < 10 ^ (e + 16)

theorem hasExponent_iff {n : Int} {e : Int} :
    HasExponent (n * 10 ^ e) e ↔
      leastMantissa.toNat ≤ n.natAbs ∧ n.natAbs ≤ greatestMantissa.toNat := by
  have hleast : leastMantissa.toNat = 10 ^ 15 := rfl
  have hgreatest : greatestMantissa.toNat = 10 ^ 16 - 1 := rfl
  have hpos : (0 : ℚ) < 10 ^ e := zpow_pos (by norm_num) e
  have habs : |(n : ℚ) * 10 ^ e| = n.natAbs * 10 ^ e := by
    rw [abs_mul, abs_of_pos hpos, Nat.cast_natAbs, Int.cast_abs]
  rw [HasExponent, habs, add_comm e 15, add_comm e 16, zpow_add₀ (by norm_num),
    zpow_add₀ (by norm_num), mul_le_mul_iff_left₀ hpos, mul_lt_mul_iff_left₀ hpos, hleast,
    hgreatest]
  have hl : (10 : ℚ) ^ (15 : Int) ≤ n.natAbs ↔ 10 ^ 15 ≤ n.natAbs := by norm_cast
  have hu : (n.natAbs : ℚ) < 10 ^ (16 : Int) ↔ n.natAbs < 10 ^ 16 := by norm_cast
  rw [hl, hu]
  omega

/-- Few digits reach a magnitude only by a power of ten that is high enough. -/
theorem le_of_hasExponent {n x e : Int} (hn : n.natAbs < 10 ^ 16)
    (h : HasExponent (n * 10 ^ x) e) : e ≤ x := by
  by_contra hlt
  have hpos : (0 : ℚ) < 10 ^ x := zpow_pos (by norm_num) x
  have hcast : (n.natAbs : ℚ) < 10 ^ (16 : Int) := by exact_mod_cast hn
  have hsmall : |(n : ℚ) * 10 ^ x| < 10 ^ (x + 16) := by
    rw [abs_mul, abs_of_pos hpos, ← Int.cast_abs, ← Nat.cast_natAbs, add_comm,
      zpow_add₀ (by norm_num)]
    exact mul_lt_mul_of_pos_right hcast hpos
  have hmono : (10 : ℚ) ^ (x + 16) ≤ 10 ^ (e + 15) :=
    zpow_le_zpow_right₀ (by norm_num) (by omega)
  exact absurd h.1 (not_le.mpr (hsmall.trans_le hmono))

theorem exists_of_normal {m e : Int} (h : Normal m e) :
    ∃ d : Decimal, d.mantissa.toInt = m ∧ d.exponent.toInt = e := by
  have hgreatest : greatestMantissa.toNat = 9999999999999999 := rfl
  have hl : leastExponent = -96 := rfl
  have hu : greatestExponent = 80 := rfl
  have hm : (Int64.ofInt m).toInt = m := by
    apply Int64.toInt_ofInt_of_le <;> rcases h with ⟨rfl, -⟩ | ⟨-, h, -, -⟩ <;> omega
  have he : (Int32.ofInt e).toInt = e := by
    apply Int32.toInt_ofInt_of_le <;> rcases h with ⟨-, rfl⟩ | ⟨-, -, h, h'⟩ <;> omega
  exact ⟨⟨Int64.ofInt m, Int32.ofInt e, by rwa [hm, he]⟩, hm, he⟩

/-- The numbers that values denote. -/
theorem exists_number_iff {q : ℚ} :
    (∃ d : Decimal, d.number = q) ↔
      q = 0 ∨ FewDigits q ∧ ∃ e, leastExponent ≤ e ∧ e ≤ greatestExponent ∧ HasExponent q e := by
  have hleast : leastMantissa.toNat = 1000000000000000 := rfl
  have hgreatest : greatestMantissa.toNat = 9999999999999999 := rfl
  constructor
  · rintro ⟨d, rfl⟩
    obtain ⟨h0, -⟩ | ⟨hl, hu, hel, heu⟩ := d.normal
    · exact .inl (number_eq_zero.mpr h0)
    · exact .inr ⟨⟨_, _, by omega, rfl⟩, _, hel, heu, hasExponent_iff.mpr ⟨hl, hu⟩⟩
  · rintro (rfl | ⟨⟨n, x, hn, rfl⟩, e, hel, heu, hexponent⟩)
    · exact ⟨zero, zero_number⟩
    · have hx := le_of_hasExponent hn hexponent
      obtain ⟨k, rfl⟩ : ∃ k : Nat, x = e + k := ⟨(x - e).toNat, by omega⟩
      have hm : (n : ℚ) * 10 ^ (e + k) = (n * 10 ^ k : Int) * 10 ^ e := by
        rw [zpow_add₀ (by norm_num), zpow_natCast]
        push_cast
        ring
      rw [hm] at hexponent ⊢
      obtain ⟨hl, hu⟩ := hasExponent_iff.mp hexponent
      obtain ⟨d, hmantissa, hexp⟩ := exists_of_normal (.inr ⟨hl, hu, hel, heu⟩)
      exact ⟨d, by rw [number, hmantissa, hexp]⟩

/-- A character takes one byte at least. -/
theorem length_le_utf8Size (s : String) : s.toList.length ≤ s.utf8ByteSize := by
  have hl : ∀ cs : List Char, cs.length ≤ (String.ofList cs).utf8ByteSize := by
    intro cs
    induction cs with
    | nil => simp
    | cons c cs ih =>
      have hc := c.utf8Size_pos
      rw [String.ofList_cons, String.utf8ByteSize_append, String.utf8ByteSize_singleton,
        List.length_cons]
      omega
  simpa using hl s.toList

theorem length_of_spells {text : List Char} {p : Spelling} (h : p.Spells text) :
    (p.whole ++ p.fraction).length ≤ text.length := by
  obtain ⟨⟨sign, digits, scale, rfl, -, hp, -⟩, -⟩ := h
  have hdigits : (p.whole ++ p.fraction).length ≤ digits.length := by
    generalize p.whole = whole, p.fraction = fraction at hp ⊢
    cases hp <;> simp
  simp only [List.length_append] at hdigits ⊢
  omega

theorem spells_of_ofString {s : String} {d : Decimal} (h : ofString s = .ok d) :
    ∃ p, Spelling.Spells s.toList p := by
  cases hp : Spelling.read? s.toList with
  | none =>
    simp only [ofString, hp] at h
    cases h
  | some p => exact ⟨p, Spelling.read_iff.mp hp⟩

/-- Reading is exact: a text shorter than a gibibyte gives a value exactly if it spells a number
that has one, and then the value denotes this number. -/
theorem ofString_iff {s : String} (hs : s.utf8ByteSize < twoPow 30) {d : Decimal} :
    ofString s = .ok d ↔ ∃ p, Spelling.Spells s.toList p ∧ d.number = p.number := by
  have hread : ∀ {p}, Spelling.Spells s.toList p → (ofString s = .ok d ↔ d.number = p.number) := by
    intro p hp
    apply ofString_of_read (Spelling.read_iff.mpr hp)
    have hlength := length_of_spells hp
    have hbytes := length_le_utf8Size s
    omega
  constructor
  · intro h
    obtain ⟨p, hp⟩ := spells_of_ofString h
    exact ⟨p, hp, (hread hp).mp h⟩
  · rintro ⟨p, hp, h⟩
    exact (hread hp).mpr h

theorem number_of_spelled {s : String} (hs : s.utf8ByteSize < twoPow 30) {d : Decimal}
    {p : Spelling} (h : ofString s = .ok d) (hp : p.Spells s.toList) : d.number = p.number := by
  obtain ⟨q, hq, hnumber⟩ := (ofString_iff hs).mp h
  have hread := (Spelling.read_iff.mpr hq).symm.trans (Spelling.read_iff.mpr hp)
  rw [hnumber, Option.some.inj hread]

/-- A text is read exactly if it spells zero or a number of sixteen digits in range. What is read is
this number in its normal form, so spellings of one number give one value. -/
theorem reading_exact (s : String) (hs : s.utf8ByteSize < twoPow 30) :
    ((∃ d, ofString s = .ok d) ↔ ∃ p, Spelling.Spells s.toList p ∧
      (p.number = 0 ∨
        FewDigits p.number ∧ ∃ e, -96 ≤ e ∧ e ≤ 80 ∧ HasExponent p.number e)) ∧
    (∀ d p, ofString s = .ok d → Spelling.Spells s.toList p →
      d.mantissa.toInt * 10 ^ d.exponent.toInt = p.number ∧
      (d = zero ∨ 10 ^ 15 ≤ d.mantissa.toInt.natAbs ∧ d.mantissa.toInt.natAbs < 10 ^ 16)) ∧
    ∀ t : String, t.utf8ByteSize < twoPow 30 → ∀ d e p q, ofString s = .ok d → ofString t = .ok e →
      Spelling.Spells s.toList p → Spelling.Spells t.toList q → (d = e ↔ p.number = q.number) := by
  refine ⟨?_, ?_, ?_⟩
  · constructor
    · rintro ⟨d, h⟩
      obtain ⟨p, hp, hnumber⟩ := (ofString_iff hs).mp h
      exact ⟨p, hp, exists_number_iff.mp ⟨d, hnumber⟩⟩
    · rintro ⟨p, hp, hrange⟩
      obtain ⟨d, hnumber⟩ := exists_number_iff.mpr hrange
      exact ⟨d, (ofString_iff hs).mpr ⟨p, hp, hnumber⟩⟩
  · intro d p h hp
    refine ⟨number_of_spelled hs h hp, ?_⟩
    obtain ⟨h0, -⟩ | ⟨hl, hu, -, -⟩ := d.normal
    · exact .inl (number_inj.mp ((number_eq_zero.mpr h0).trans zero_number.symm))
    · exact .inr ⟨hl, Nat.lt_succ_of_le hu⟩
  · intro t ht d e p q hd he hp hq
    rw [← number_of_spelled hs hd hp, ← number_of_spelled ht he hq, number_inj]

/-- Zeros at both ends and a written exponent make no difference. -/
theorem reading_exact_respelled :
    ∃ d, ofString "-0013.1000" = .ok d ∧ ofString "-1.31E+1" = .ok d ∧
      d.mantissa.toInt * 10 ^ d.exponent.toInt = (-131 / 10 : ℚ) := by
  have hp : Spelling.Spells "-0013.1000".toList
      ⟨true, ['0', '0', '1', '3'], ['1', '0', '0', '0'], 0⟩ := Spelling.read_iff.mp (by decide)
  have hq : Spelling.Spells "-1.31E+1".toList ⟨true, ['1'], ['3', '1'], 1⟩ :=
    Spelling.read_iff.mp (by decide)
  have hpn : Spelling.number ⟨true, ['0', '0', '1', '3'], ['1', '0', '0', '0'], 0⟩ =
      -131 / 10 := by
    have hdigits : Text.digitsValue 0 ['0', '0', '1', '3', '1', '0', '0', '0'] = 131000 := by decide
    norm_num [Spelling.number_eq, hdigits, Text.withSign]
  have hqn : Spelling.number ⟨true, ['1'], ['3', '1'], 1⟩ = -131 / 10 := by
    have hdigits : Text.digitsValue 0 ['1', '3', '1'] = 131 := by decide
    norm_num [Spelling.number_eq, hdigits, Text.withSign]
  have hfew : FewDigits (-131 / 10) := ⟨-131, -1, by decide, by norm_num⟩
  have hexponent : HasExponent (-131 / 10) (-14) := by norm_num [HasExponent, abs_div]
  obtain ⟨hreads, hvalue, hsame⟩ := reading_exact "-0013.1000" (by decide)
  obtain ⟨d, hd⟩ := hreads.mpr
    ⟨_, hp, .inr ⟨hpn ▸ hfew, -14, by decide, by decide, hpn ▸ hexponent⟩⟩
  obtain ⟨e, he⟩ := (reading_exact "-1.31E+1" (by decide)).1.mpr
    ⟨_, hq, .inr ⟨hqn ▸ hfew, -14, by decide, by decide, hqn ▸ hexponent⟩⟩
  obtain rfl := (hsame "-1.31E+1" (by decide) d e _ _ hd he hp hq).mpr (hpn.trans hqn.symm)
  exact ⟨d, hd, he, (hvalue d _ hd hp).1.trans hpn⟩

end Attestor.Decimal
