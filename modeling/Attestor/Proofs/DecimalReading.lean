import Attestor.Proofs.DecimalExact

namespace Attestor.Decimal

theorem trimZeros_spec (n : Nat) (h : 0 < n) :
    (trimZeros n).1 * 10 ^ (trimZeros n).2 = n ∧ (trimZeros n).1 % 10 ≠ 0 := by
  induction n using Nat.strongRecOn with
  | ind n ih =>
    unfold trimZeros
    split
    · rename_i hn
      obtain ⟨hv, hm⟩ := ih (n / 10) (by omega) (by omega)
      refine ⟨?_, hm⟩
      dsimp only
      rw [Nat.pow_succ, ← Nat.mul_assoc, hv]
      omega
    · rename_i hn
      exact ⟨Nat.mul_one n, fun hm => hn ⟨h, hm⟩⟩

/-- The four ways to write digits in front of `10 ^ x`: with an exponent, with zeros after them,
with the point between them, and with zeros between the point and them. -/
inductive Written (digits : List Char) (x : Int) : List Char → Prop
  | scientific (far : x < -25 ∨ 10 < x) :
    Written digits x (digits ++ 'e' :: (ToString.toString x).toList)
  | appended (zeros : Nat) (exponent : x = zeros) (near : x ≤ 10) :
    Written digits x (digits ++ List.replicate zeros '0')
  | inside (whole fraction : List Char) (split : digits = whole ++ fraction) (some : whole ≠ [])
      (exponent : x = -fraction.length) (near : -25 ≤ x ∧ x < 0) :
    Written digits x (whole ++ '.' :: fraction)
  | below (zeros : Nat) (exponent : x = -(zeros + digits.length : Nat)) (near : -25 ≤ x) :
    Written digits x ('0' :: '.' :: List.replicate zeros '0' ++ digits)

theorem layout_written {digits : List Char} (hne : digits ≠ []) (x : Int) :
    Written digits x (layout digits x) := by
  by_cases hfar : x < -25 ∨ 10 < x
  · rw [layout, if_pos hfar]
    exact .scientific hfar
  · by_cases hpos : 0 ≤ x
    · rw [layout, if_neg hfar, if_pos hpos]
      exact .appended x.toNat (by omega) (by omega)
    · rw [layout, if_neg hfar, if_neg hpos]
      dsimp only
      by_cases hin : x.natAbs < digits.length
      · rw [if_pos hin]
        refine .inside _ _ (List.take_append_drop _ _).symm ?_ ?_ (by omega)
        · intro h
          rcases List.take_eq_nil_iff.mp h with h | h
          · omega
          · exact hne h
        · rw [List.length_drop]
          omega
      · rw [if_neg hin]
        exact .below _ (by omega) (by omega)

theorem digits_append {digits : List Char} (hd : Text.Digits digits) (n : Nat) :
    Text.Digits (digits ++ List.replicate n '0') ∧
      Text.Digits (List.replicate n '0' ++ digits) := by
  have hzeros : ∀ c ∈ List.replicate n '0', Text.isDigit c = true := by
    intro c hc
    rw [(List.mem_replicate.mp hc).2]
    rfl
  refine ⟨⟨by simp [hd.1], ?_⟩, ⟨by simp [hd.1], ?_⟩⟩
  · intro c hc
    exact (List.mem_append.mp hc).elim (hd.2 c) (hzeros c)
  · intro c hc
    exact (List.mem_append.mp hc).elim (hzeros c) (hd.2 c)

/-- However they are written, the digits come back between zeros, and the exponent with them. -/
theorem Written.spells {digits text sign : List Char} {x : Int} {negative : Bool}
    (h : Written digits x text) (hd : Text.Digits digits) (hx : FitsSigned 32 x)
    (hs : Text.Sign sign negative) :
    ∃ p, Spelling.Spells (sign ++ text) p ∧ p.negative = negative ∧
      p.number = Text.withSign negative (Text.digitsValue 0 digits) * 10 ^ x ∧
        (p.whole ++ p.fraction).length ≤ digits.length + 26 := by
  cases h with
  | scientific =>
    have hscale := (Text.signed_iff.mp (Text.signed_toString hx)).1
    refine ⟨⟨negative, digits, [], x⟩, ⟨⟨sign, digits, _, rfl, hs, .whole digits,
      .mark (.inl rfl) hscale hx⟩, by simpa using hd⟩, rfl, ?_, by simp⟩
    simp [Spelling.number_eq]
  | appended zeros exponent near =>
    refine ⟨⟨negative, digits ++ List.replicate zeros '0', [], 0⟩, ⟨⟨sign, _, [], by simp, hs,
      .whole _, .none⟩, by simpa using (digits_append hd zeros).1⟩, rfl, ?_, by simp; omega⟩
    have hbetween : digits ++ List.replicate zeros '0' ++ [] =
        List.replicate 0 '0' ++ (digits ++ List.replicate zeros '0') := by
      simp
    rw [Spelling.number_between hbetween, exponent]
    simp
  | inside whole fraction split some exponent near =>
    subst split
    refine ⟨⟨negative, whole, fraction, 0⟩, ⟨⟨sign, _, [], by simp, hs, .point whole fraction,
      .none⟩, hd⟩, rfl, ?_, by simp⟩
    rw [Spelling.number_eq, exponent]
    simp
  | below zeros exponent near =>
    refine ⟨⟨negative, ['0'], List.replicate zeros '0' ++ digits, 0⟩, ⟨⟨sign, _, [], by simp, hs,
      .point ['0'] _, .none⟩, ?_⟩, rfl, ?_, by simp; omega⟩
    · have hzeros : ['0'] ++ (List.replicate zeros '0' ++ digits) =
          List.replicate (zeros + 1) '0' ++ digits := by simp [List.replicate_succ]
      rw [hzeros]
      exact (digits_append hd (zeros + 1)).2
    · have hbetween : ['0'] ++ (List.replicate zeros '0' ++ digits) =
          List.replicate (zeros + 1) '0' ++ (digits ++ List.replicate 0 '0') := by
        simp [List.replicate_succ]
      rw [Spelling.number_between hbetween, exponent]
      simp

theorem eq_zero_of_mantissa {d : Decimal} (h : d.mantissa = 0) : d = zero := by
  rw [← number_inj, zero_number, number_eq_zero, h]
  rfl

/-- The text of a nonzero value: a sign, and the digits of the mantissa without its last zeros. -/
theorem toString_written {d : Decimal} (h : d ≠ zero) :
    ∃ n zeros : Nat, n % 10 ≠ 0 ∧ d.mantissa.toInt.natAbs = n * 10 ^ zeros ∧
      ∃ text, d.toString.toList = (if d.isNegative then ['-'] else []) ++ text ∧
        Written (Nat.toDigits 10 n) (d.exponent.toInt + zeros) text := by
  have hne : d.mantissa ≠ 0 := fun h0 => h (eq_zero_of_mantissa h0)
  have hpos : 0 < d.mantissa.toInt.natAbs :=
    Int.natAbs_pos.mpr fun h0 => hne (Int64.toInt_inj.mp h0)
  obtain ⟨hv, hm⟩ := trimZeros_spec d.mantissa.toInt.natAbs hpos
  refine ⟨_, _, hm, hv.symm, _, ?_, layout_written Nat.toDigits_ne_nil _⟩
  simp only [toString, chars, hne, ↓reduceIte, String.toList_ofList, isNegative,
    decide_eq_true_eq]

theorem withSign_mantissa (d : Decimal) :
    Text.withSign d.isNegative d.mantissa.toInt.natAbs = d.mantissa.toInt := by
  have hn : d.isNegative = true ↔ d.mantissa.toInt < 0 := by
    rw [isNegative, decide_eq_true_eq, Int64.lt_iff_toInt_lt, Int64.toInt_zero]
  unfold Text.withSign
  split
  · rename_i h
    have := hn.mp h
    omega
  · rename_i h
    have := mt hn.mpr h
    omega

/-- What is printed is read back as the same value. -/
@[simp] theorem ofString_toString (d : Decimal) : ofString d.toString = .ok d := by
  by_cases h : d = zero
  · subst h
    have hz : Spelling.read? zero.toString.toList = some ⟨false, ['0'], [], 0⟩ := by decide
    rw [ofString_of_read hz (by decide), zero_number]
    simp [Spelling.number_eq, Text.withSign, Text.digitsValue, Text.digitValue]
  · obtain ⟨n, zeros, hm, hv, text, htext, hw⟩ := toString_written h
    obtain ⟨h0, -⟩ | ⟨-, hu, hel, heu⟩ := d.normal
    · exact absurd (eq_zero_of_mantissa (Int64.toInt_inj.mp h0)) h
    · simp only [leastExponent, greatestExponent] at hel heu
      rw [hv] at hu
      obtain ⟨hs, hz⟩ := zeros_le (by omega) hu
      have hword : (twoPow (32 - 1) : Int) = 2147483648 := rfl
      have hroom : twoPow 30 = 1073741824 := rfl
      have hsign : Text.Sign (if d.isNegative then ['-'] else []) d.isNegative := by
        cases d.isNegative
        · exact .none
        · exact .minus
      obtain ⟨p, hp, -, hnumber, hlength⟩ := hw.spells (Text.digits_toDigits n)
        (by simp only [FitsSigned, hword]; omega) hsign
      have hcount := (Nat.length_toDigits_le_iff (b := 10) (n := n) (k := 16) (by decide)
        (by decide)).mpr hs
      rw [← htext] at hp
      rw [ofString_of_read (Spelling.read_iff.mpr hp) (by omega), hnumber,
        Text.digitsValue_toDigits, number, ← withSign_mantissa, hv, Text.withSign_mul,
        zpow_add₀ (by norm_num), zpow_natCast]
      push_cast
      ring

/-- Every value is printed in one of the four layouts, or as a single zero, and read back with the
same mantissa and the same exponent. -/
theorem layouts_read_back (d : Decimal) :
    ((d = zero ∧ d.toString = "0") ∨
      ∃ n zeros : Nat, n % 10 ≠ 0 ∧ d.mantissa.toInt.natAbs = n * 10 ^ zeros ∧
        ∃ text, d.toString.toList = (if d.isNegative then ['-'] else []) ++ text ∧
          Written (Nat.toDigits 10 n) (d.exponent.toInt + zeros) text) ∧
    ∃ e, ofString d.toString = .ok e ∧ e.mantissa = d.mantissa ∧ e.exponent = d.exponent := by
  refine ⟨?_, d, ofString_toString d, rfl, rfl⟩
  by_cases h : d = zero
  · subst h
    exact .inl ⟨rfl, by decide⟩
  · exact .inr (toString_written h)

end Attestor.Decimal
