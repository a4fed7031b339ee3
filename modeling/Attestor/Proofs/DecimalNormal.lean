import Attestor.Proofs.DecimalValue
import Attestor.Proofs.NumberReading
import Mathlib.Tactic.NormNum
import Mathlib.Tactic.Positivity
import Mathlib.Tactic.Ring

namespace Attestor.Decimal

/-- The integer, kept between the least and the greatest exponent of a word. -/
def clamp (x : Int) : Int :=
  max Int32.minValue.toInt (min x Int32.maxValue.toInt)

theorem clamp_toInt (e : Int32) : clamp e.toInt = e.toInt := by
  have hmin := e.minValue_le_toInt
  have hmax := e.toInt_le
  rw [clamp]
  omega

theorem clamp_eq {x : Int} (hl : -1000 ≤ x) (hu : x ≤ 1000) : clamp x = x := by
  have hmin : Int32.minValue.toInt = -2147483648 := rfl
  have hmax : Int32.maxValue.toInt = 2147483647 := rfl
  rw [clamp]
  omega

/-- What is in range after clamping was there before. -/
theorem of_clamp {x : Int} (hl : -1000 ≤ clamp x) (hu : clamp x ≤ 1000) : clamp x = x := by
  have hmin : Int32.minValue.toInt = -2147483648 := rfl
  have hmax : Int32.maxValue.toInt = 2147483647 := rfl
  rw [clamp] at hl hu ⊢
  omega

theorem toInt_pred (e : Int32) : (pred e).toInt = clamp (e.toInt - 1) := by
  have hmin : Int32.minValue.toInt = -2147483648 := rfl
  have hmax : Int32.maxValue.toInt = 2147483647 := rfl
  have hle := e.minValue_le_toInt
  have hlt := e.toInt_le
  rw [clamp]
  by_cases h : e = Int32.minValue
  · rw [pred, if_pos h, h]
    omega
  · have hne : e.toInt ≠ Int32.minValue.toInt := fun he => h (Int32.toInt_inj.mp he)
    rw [pred, if_neg h, Int32.toInt_sub, Int32.toInt_one,
      Int.bmod_eq_of_le_mul_two (by omega) (by omega)]
    omega

theorem toInt_succ (e : Int32) : (succ e).toInt = clamp (e.toInt + 1) := by
  have hmin : Int32.minValue.toInt = -2147483648 := rfl
  have hmax : Int32.maxValue.toInt = 2147483647 := rfl
  have hle := e.minValue_le_toInt
  have hlt := e.toInt_le
  rw [clamp]
  by_cases h : e = Int32.maxValue
  · rw [succ, if_pos h, h]
    omega
  · have hne : e.toInt ≠ Int32.maxValue.toInt := fun he => h (Int32.toInt_inj.mp he)
    rw [succ, if_neg h, Int32.toInt_add, Int32.toInt_one,
      Int.bmod_eq_of_le_mul_two (by omega) (by omega)]
    omega

theorem toNat_tenfold {m : UInt64} (h : m < leastMantissa) : (m * 10).toNat = m.toNat * 10 := by
  have hleast : leastMantissa.toNat = 1000000000000000 := rfl
  rw [UInt64.lt_iff_toNat_lt] at h
  rw [UInt64.toNat_mul]
  exact Nat.mod_eq_of_lt (by simp only [UInt64.reduceToNat]; omega)

/-- Raising multiplies by tens until sixteen digits are there, and not once more. -/
theorem raise_spec {m : UInt64} (hm : 0 < m.toNat) (e : Int32) :
    ∃ k : Nat, (raise m e).1.toNat = m.toNat * 10 ^ k ∧ (raise m e).2.toInt = clamp (e.toInt - k) ∧
      leastMantissa.toNat ≤ m.toNat * 10 ^ k ∧
      (k = 0 ∨ m.toNat * 10 ^ k ≤ greatestMantissa.toNat) := by
  have hleast : leastMantissa.toNat = 1000000000000000 := rfl
  have hgreatest : greatestMantissa.toNat = 9999999999999999 := rfl
  induction m, e using raise.induct with
  | case1 m e h ih =>
    obtain ⟨k, hvalue, hexponent, hlarge, hsmall⟩ := ih (by rw [toNat_tenfold h.2]; omega)
    have hstep : (m * 10).toNat * 10 ^ k = m.toNat * 10 ^ (k + 1) := by
      rw [toNat_tenfold h.2, pow_succ, mul_assoc, mul_comm 10]
    rw [raise, dif_pos h]
    refine ⟨k + 1, hvalue.trans hstep, ?_, hstep ▸ hlarge, .inr ?_⟩
    · have hmax := e.toInt_le
      rw [hexponent, toInt_pred, clamp, clamp, clamp]
      push_cast
      omega
    · rw [← hstep]
      obtain rfl | hsmall := hsmall
      · rw [toNat_tenfold h.2, pow_zero]
        have := UInt64.lt_iff_toNat_lt.mp h.2
        omega
      · exact hsmall
  | case2 m e h =>
    rw [raise, dif_neg h]
    refine ⟨0, by simp, by rw [Nat.cast_zero, sub_zero, clamp_toInt], ?_, .inl rfl⟩
    rw [pow_zero, mul_one]
    by_contra hlt
    exact h ⟨UInt64.lt_iff_toNat_lt.mpr hm, UInt64.lt_iff_toNat_lt.mpr (by omega)⟩

/-- Lowering takes tens out until sixteen digits are left. -/
theorem lower_spec {m n : UInt64} {e x : Int32} (h : lower? m e = some (n, x)) :
    ∃ j : Nat, n.toNat * 10 ^ j = m.toNat ∧ x.toInt = clamp (e.toInt + j) ∧
      n.toNat ≤ greatestMantissa.toNat ∧ (j = 0 ∨ leastMantissa.toNat ≤ n.toNat) := by
  have hleast : leastMantissa.toNat = 1000000000000000 := rfl
  have hgreatest : greatestMantissa.toNat = 9999999999999999 := rfl
  induction m, e using lower?.induct with
  | case1 m e h' hzero ih =>
    rw [lower?, dif_pos h', if_pos hzero] at h
    obtain ⟨j, hvalue, hexponent, hsmall, hlarge⟩ := ih h
    have hdigit : m.toNat % 10 = 0 := by simpa using congrArg UInt64.toNat hzero
    have hm := UInt64.lt_iff_toNat_lt.mp h'
    have hten : (10 : UInt64).toNat = 10 := rfl
    rw [UInt64.toNat_div, hten] at hvalue
    refine ⟨j + 1, by rw [pow_succ, ← mul_assoc, hvalue]; omega, ?_, hsmall, .inr ?_⟩
    · have hmin := e.minValue_le_toInt
      rw [hexponent, toInt_succ, clamp, clamp, clamp]
      push_cast
      omega
    · obtain rfl | hlarge := hlarge
      · rw [pow_zero] at hvalue
        omega
      · exact hlarge
  | case2 m e h' hdigit =>
    rw [lower?, dif_pos h', if_neg hdigit] at h
    cases h
  | case3 m e h' =>
    rw [lower?, dif_neg h'] at h
    cases h
    refine ⟨0, by simp, by rw [Nat.cast_zero, add_zero, clamp_toInt], ?_, .inl rfl⟩
    by_contra hlt
    exact h' (UInt64.lt_iff_toNat_lt.mpr (by omega))

theorem lower_of_small {m : UInt64} (h : m.toNat ≤ greatestMantissa.toNat) (e : Int32) :
    lower? m e = some (m, e) := by
  rw [lower?, dif_neg]
  rw [UInt64.lt_iff_toNat_lt]
  omega

/-- Lowering fails only on a digit that is not zero. -/
theorem lower_of_zeros {m : UInt64} {e : Int32} {n j : Nat} (hm : n * 10 ^ j = m.toNat)
    (hn : n ≤ greatestMantissa.toNat) : ∃ r, lower? m e = some r := by
  induction j generalizing m e with
  | zero =>
    rw [pow_zero, mul_one] at hm
    exact ⟨_, lower_of_small (hm ▸ hn) e⟩
  | succ j ih =>
    rw [pow_succ, ← mul_assoc] at hm
    rw [lower?]
    split
    · have hzero : m % 10 = 0 := by
        apply UInt64.toNat_inj.mp
        rw [UInt64.toNat_mod, ← hm]
        exact Nat.mul_mod_left _ 10
      rw [if_pos hzero]
      apply ih
      rw [UInt64.toNat_div, ← hm]
      exact (Nat.mul_div_cancel _ (by decide)).symm
    · exact ⟨_, rfl⟩

/-- A mantissa of sixteen digits fits the word it is kept in, with either sign. -/
theorem toInt_withSign (negative : Bool) {m : UInt64} (h : m.toNat ≤ greatestMantissa.toNat) :
    (if negative then -m.toInt64 else m.toInt64).toInt = Text.withSign negative m.toNat := by
  have hgreatest : greatestMantissa.toNat = 9999999999999999 := rfl
  have hm : m.toInt64.toInt = m.toNat := by
    rw [← UInt64.ofNat_toNat (x := m), UInt64.toInt64_ofNat', UInt64.ofNat_toNat,
      Int64.toInt_ofNat_of_lt (by omega)]
  cases negative with
  | true =>
    simp only [Text.withSign, ↓reduceIte]
    rw [Int64.toInt_neg, hm, Int.bmod_eq_of_le_mul_two (by omega) (by omega)]
  | false => simpa [Text.withSign] using hm

/-- What raising and lowering leave has sixteen digits and denotes the number of the parts, with an
exponent that is the right one unless it was stopped. -/
theorem normalized {m n : UInt64} {e x : Int32} (hm : 0 < m.toNat)
    (h : lower? (raise m e).1 (raise m e).2 = some (n, x)) :
    leastMantissa.toNat ≤ n.toNat ∧ n.toNat ≤ greatestMantissa.toNat ∧
      ∃ y : Int, x.toInt = clamp y ∧ (n.toNat * 10 ^ y : ℚ) = m.toNat * 10 ^ e.toInt := by
  obtain ⟨k, hraised, hexponent, hlarge, hfew⟩ := raise_spec hm e
  -- a mantissa is raised or lowered, never both
  obtain rfl | hfew := hfew
  · rw [pow_zero, mul_one] at hraised hlarge
    obtain ⟨j, hlowered, hx, hsmall, hmany⟩ := lower_spec h
    rw [hraised] at hlowered
    refine ⟨?_, hsmall, e.toInt + j, ?_, ?_⟩
    · obtain rfl | hmany := hmany
      · rw [pow_zero, mul_one] at hlowered
        exact hlowered ▸ hlarge
      · exact hmany
    · rw [hx, hexponent, Nat.cast_zero, sub_zero, clamp_toInt]
    · rw [← hlowered, zpow_add₀ (by norm_num), zpow_natCast]
      push_cast
      ring
  · rw [lower_of_small (hraised ▸ hfew), Option.some.injEq, Prod.mk.injEq] at h
    obtain ⟨rfl, rfl⟩ := h
    refine ⟨hraised ▸ hlarge, hraised ▸ hfew, e.toInt - k, hexponent, ?_⟩
    rw [hraised, Nat.cast_mul, Nat.cast_pow, mul_assoc, Nat.cast_ofNat, ← zpow_natCast,
      ← zpow_add₀ (by norm_num), add_sub_cancel]

theorem zero_number : zero.number = 0 := by
  rw [number_eq_zero]
  rfl

/-- A nonzero number with a normal form takes no digit away and stays clear of the ends. -/
theorem lower_of_number {m : UInt64} {e : Int32} {d : Decimal} {negative : Bool}
    (hm : 0 < m.toNat) (h : d.number = Text.withSign negative m.toNat * 10 ^ e.toInt) :
    ∃ r, lower? (raise m e).1 (raise m e).2 = some r := by
  obtain ⟨k, hraised, -, hlarge, -⟩ := raise_spec hm e
  have hsmall : d.mantissa.toInt.natAbs ≤ greatestMantissa.toNat := by
    obtain ⟨h0, -⟩ | ⟨-, hu, -, -⟩ := d.normal
    · rw [h0]
      exact Nat.zero_le _
    · exact hu
  have hnumber : (d.mantissa.toInt : ℚ) * 10 ^ d.exponent.toInt =
      (Text.withSign negative (m.toNat * 10 ^ k) : Int) * 10 ^ (e.toInt - k) := by
    rw [Text.withSign_mul, zpow_sub₀ (by norm_num), zpow_natCast]
    push_cast
    rw [mul_assoc, mul_div_cancel₀ _ (by positivity)]
    exact h
  have hle := exponent_le hsmall (by rwa [Text.natAbs_withSign]) hnumber
  obtain ⟨j, hj⟩ : ∃ j : Nat, d.exponent.toInt = e.toInt - k + j :=
    ⟨(d.exponent.toInt - (e.toInt - k)).toNat, by omega⟩
  rw [hj] at hnumber
  refine lower_of_zeros ?_ hsmall (j := j)
  rw [natAbs_scaled hnumber, Text.natAbs_withSign, hraised]

/-- An exponent that was stopped is out of range still. -/
theorem normal_clamp_iff {n y : Int} (hl : leastMantissa.toNat ≤ n.natAbs)
    (hu : n.natAbs ≤ greatestMantissa.toNat) :
    Normal n (clamp y) ↔ leastExponent ≤ y ∧ y ≤ greatestExponent := by
  have hleast : leastMantissa.toNat = 1000000000000000 := rfl
  have hexponent : leastExponent = -96 := rfl
  have hexponent' : greatestExponent = 80 := rfl
  constructor
  · rintro (⟨h0, -⟩ | ⟨-, -, hel, heu⟩)
    · omega
    · have hy : clamp y = y := of_clamp (by omega) (by omega)
      omega
  · rintro ⟨hel, heu⟩
    rw [clamp_eq (by omega) (by omega)]
    exact .inr ⟨hl, hu, hel, heu⟩

/-- Sixteen digits in front of a number leave no choice of the exponent. -/
theorem exponent_range {d : Decimal} {n y : Int} (hl : leastMantissa.toNat ≤ n.natAbs)
    (hu : n.natAbs ≤ greatestMantissa.toNat) (h : d.number = n * 10 ^ y) :
    leastExponent ≤ y ∧ y ≤ greatestExponent := by
  have hleast : leastMantissa.toNat = 1000000000000000 := rfl
  obtain ⟨h0, -⟩ | ⟨hdl, hdu, hel, heu⟩ := d.normal
  · rw [number_eq_zero.mpr h0] at h
    have hn : n = 0 := by
      rcases mul_eq_zero.mp h.symm with hn | hn
      · exact_mod_cast hn
      · exact absurd hn (zpow_ne_zero _ (by norm_num))
    omega
  · have hle := exponent_le hdu hl h
    have hge := exponent_le hu hdl h.symm
    omega

/-- The parts make up a value exactly if it denotes their number. -/
theorem ofParts_iff {negative : Bool} {m : UInt64} {e : Int32} {d : Decimal} :
    ofParts negative m e = .ok d ↔ d.number = Text.withSign negative m.toNat * 10 ^ e.toInt := by
  by_cases hm : m = 0
  · have hzero : (Text.withSign negative (0 : UInt64).toNat : ℚ) = 0 := by cases negative <;> rfl
    rw [ofParts, if_pos hm, hm, hzero, zero_mul, ← zero_number, number_inj, Except.ok.injEq,
      eq_comm]
  have hpos : 0 < m.toNat := Nat.pos_of_ne_zero fun h => hm (UInt64.toNat_inj.mp h)
  rw [ofParts, if_neg hm]
  dsimp only
  cases hlow : lower? (raise m e).1 (raise m e).2 with
  | none =>
    constructor
    · intro h
      cases h
    · intro h
      obtain ⟨r, hr⟩ := lower_of_number hpos h
      rw [hlow] at hr
      cases hr
  | some r =>
    obtain ⟨n, x⟩ := r
    obtain ⟨hl, hu, y, hx, hnumber⟩ := normalized hpos hlow
    have hmantissa := toInt_withSign negative hu
    have hvalue : (Text.withSign negative n.toNat : ℚ) * 10 ^ y =
        Text.withSign negative m.toNat * 10 ^ e.toInt := by
      cases negative <;> simp [Text.withSign, hnumber]
    have hl' : leastMantissa.toNat ≤ (Text.withSign negative n.toNat).natAbs := by
      rwa [Text.natAbs_withSign]
    have hu' : (Text.withSign negative n.toNat).natAbs ≤ greatestMantissa.toNat := by
      rwa [Text.natAbs_withSign]
    dsimp only
    generalize (if negative = true then -n.toInt64 else n.toInt64) = mantissa at hmantissa
    rw [← hvalue]
    have hrange : Normal mantissa.toInt x.toInt ↔ leastExponent ≤ y ∧ y ≤ greatestExponent := by
      rw [hmantissa, hx]
      exact normal_clamp_iff hl' hu'
    split
    · rename_i normal
      have hy : x.toInt = y := by
        obtain ⟨hyl, hyu⟩ := hrange.mp normal
        simp only [leastExponent, greatestExponent] at hyl hyu
        rw [hx, clamp_eq (by omega) (by omega)]
      have hc : (⟨mantissa, x, normal⟩ : Decimal).number =
          Text.withSign negative n.toNat * 10 ^ y := by
        rw [number, hmantissa, hy]
      rw [← hc, Except.ok.injEq, eq_comm, number_inj]
    · rename_i hnot
      constructor
      · intro h
        cases h
      · intro h
        exact absurd (hrange.mpr (exponent_range hl' hu' h)) hnot

end Attestor.Decimal
