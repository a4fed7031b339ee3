import Attestor.Proofs.DecimalReading
import Mathlib.Data.Nat.Digits.Lemmas

namespace Attestor.Decimal

theorem toNat_pos {m : UInt64} (h : m ≠ 0) : 0 < m.toNat :=
  Nat.pos_of_ne_zero fun h0 => h (UInt64.toNat_inj.mp h0)

namespace Guarded

/-- A product, or nothing where it does not fit the word. -/
def times (m n : UInt64) : Option UInt64 :=
  if FitsUnsigned 64 (m.toNat * n.toNat : Nat) then some (m * n) else none

/-- A sum of exponents, or nothing where it does not fit the word. -/
def plus (e x : Int32) : Option Int32 :=
  if FitsSigned 32 (e.toInt + x.toInt) then some (e + x) else none

/-- A difference of exponents, or nothing where it does not fit the word. -/
def minus (e x : Int32) : Option Int32 :=
  if FitsSigned 32 (e.toInt - x.toInt) then some (e - x) else none

/-- The same number in a word with a sign, or nothing where it does not fit. -/
def signed (m : UInt64) : Option Int64 :=
  if FitsSigned 64 m.toNat then some m.toInt64 else none

/-- The opposite number, or nothing where it does not fit the word. -/
def negate (m : Int64) : Option Int64 :=
  if FitsSigned 64 (-m.toInt) then some (-m) else none

def pred (e : Int32) : Option Int32 :=
  if e = Int32.minValue then some e else minus e 1

def succ (e : Int32) : Option Int32 :=
  if e = Int32.maxValue then some e else plus e 1

/-- Appends zeros until there are sixteen digits, or nothing where so many rounds are too few. -/
def raise : Nat → UInt64 → Int32 → Option (UInt64 × Int32)
  | 0, m, e => if m < leastMantissa then none else some (m, e)
  | rounds + 1, m, e =>
    if m < leastMantissa then do raise rounds (← times m 10) (← pred e) else some (m, e)

/-- Takes zeros off until there are sixteen digits, or nothing where so many rounds are too few. -/
def lower? : Nat → UInt64 → Int32 → Option (Option (UInt64 × Int32))
  | 0, m, e => if greatestMantissa < m then none else some (some (m, e))
  | rounds + 1, m, e =>
    if greatestMantissa < m then
      if m % 10 = 0 then do lower? rounds (m / 10) (← succ e) else some none
    else some (some (m, e))

def ofParts (negative : Bool) (mantissa : UInt64) (exponent : Int32) :
    Option (Except ValueError Decimal) :=
  if mantissa = 0 then some (.ok zero)
  else do
    let (m, e) ← raise 15 mantissa exponent
    match ← lower? 4 m e with
    | none => return .error .longMantissa
    | some (m, e) =>
      let plain ← signed m
      let signed ← if negative then negate plain else some plain
      if normal : Normal signed.toInt e.toInt then return .ok ⟨signed, e, normal⟩
      else return .error (.exponentRange e.toInt)

theorem pred_eq (e : Int32) : pred e = some (Decimal.pred e) := by
  rw [pred, Decimal.pred]
  split
  · rfl
  · rename_i h
    have hmin : Int32.minValue.toInt = -2147483648 := rfl
    have hne : e.toInt ≠ Int32.minValue.toInt := fun he => h (Int32.toInt_inj.mp he)
    have hle := e.minValue_le_toInt
    have hlt := e.toInt_lt
    have hword : (twoPow (32 - 1) : Int) = 2147483648 := rfl
    rw [minus, if_pos]
    rw [FitsSigned, hword, Int32.toInt_one]
    omega

theorem succ_eq (e : Int32) : succ e = some (Decimal.succ e) := by
  rw [succ, Decimal.succ]
  split
  · rfl
  · rename_i h
    have hmax : Int32.maxValue.toInt = 2147483647 := rfl
    have hne : e.toInt ≠ Int32.maxValue.toInt := fun he => h (Int32.toInt_inj.mp he)
    have hle := e.le_toInt
    have hlt := e.toInt_le
    have hword : (twoPow (32 - 1) : Int) = 2147483648 := rfl
    rw [plus, if_pos]
    rw [FitsSigned, hword, Int32.toInt_one]
    omega

theorem times_eq {m : UInt64} (h : m < leastMantissa) : times m 10 = some (m * 10) := by
  have hleast : leastMantissa.toNat = 1000000000000000 := rfl
  have hten : (10 : UInt64).toNat = 10 := rfl
  have hword : (twoPow 64 : Int) = 18446744073709551616 := rfl
  rw [UInt64.lt_iff_toNat_lt] at h
  rw [times, if_pos]
  rw [FitsUnsigned, hword, hten]
  omega

theorem signed_eq {m : UInt64} (h : m.toNat ≤ greatestMantissa.toNat) :
    signed m = some m.toInt64 := by
  have hgreatest : greatestMantissa.toNat = 9999999999999999 := rfl
  have hword : (twoPow (64 - 1) : Int) = 9223372036854775808 := rfl
  rw [signed, if_pos]
  rw [FitsSigned, hword]
  omega

theorem negate_eq {m : UInt64} (h : m.toNat ≤ greatestMantissa.toNat) :
    negate m.toInt64 = some (-m.toInt64) := by
  have hgreatest : greatestMantissa.toNat = 9999999999999999 := rfl
  have hword : (twoPow (64 - 1) : Int) = 9223372036854775808 := rfl
  have hm : m.toInt64.toInt = m.toNat := by simpa [Text.withSign] using toInt_withSign false h
  rw [negate, if_pos]
  rw [FitsSigned, hword, hm]
  omega

/-- The first loop ends within as many rounds as sixteen digits lack, and no product overflows. -/
theorem raise_eq {rounds : Nat} {m : UInt64} (hm : 0 < m.toNat)
    (h : leastMantissa.toNat ≤ m.toNat * 10 ^ rounds) (e : Int32) :
    raise rounds m e = some (Decimal.raise m e) := by
  induction rounds generalizing m e with
  | zero =>
    have hlarge : ¬ m < leastMantissa := by
      rw [UInt64.lt_iff_toNat_lt]
      omega
    rw [raise, if_neg hlarge, Decimal.raise, dif_neg (fun hboth => hlarge hboth.2)]
  | succ rounds ih =>
    rw [raise, Decimal.raise]
    by_cases hsmall : m < leastMantissa
    · have hboth : 0 < m ∧ m < leastMantissa := ⟨UInt64.lt_iff_toNat_lt.mpr hm, hsmall⟩
      have htenfold := toNat_tenfold hsmall
      rw [if_pos hsmall, dif_pos hboth, times_eq hsmall, pred_eq]
      refine ih (by omega) ?_ _
      rw [htenfold, mul_assoc, mul_comm 10, ← pow_succ]
      exact h
    · rw [if_neg hsmall, dif_neg (fun hboth => hsmall hboth.2)]

/-- The second loop ends within as many rounds as there are digits after the sixteenth. -/
theorem lower_eq {rounds : Nat} {m : UInt64} (h : m.toNat < 10 ^ (16 + rounds)) (e : Int32) :
    lower? rounds m e = some (Decimal.lower? m e) := by
  have hgreatest : greatestMantissa.toNat = 10 ^ 16 - 1 := rfl
  induction rounds generalizing m e with
  | zero =>
    have hsmall : ¬ greatestMantissa < m := by
      rw [UInt64.lt_iff_toNat_lt]
      omega
    rw [lower?, if_neg hsmall, Decimal.lower?, dif_neg hsmall]
  | succ rounds ih =>
    rw [lower?, Decimal.lower?]
    by_cases hlarge : greatestMantissa < m
    · rw [if_pos hlarge, dif_pos hlarge]
      split
      · rw [succ_eq]
        refine ih ?_ _
        have hten : (10 : UInt64).toNat = 10 := rfl
        rw [UInt64.toNat_div, hten]
        exact Nat.div_lt_of_lt_mul (by rwa [mul_comm, ← pow_succ])
      · rfl
    · rw [if_neg hlarge, dif_neg hlarge]

/-- No guard trips, whatever the parts are. -/
theorem ofParts_eq (negative : Bool) (m : UInt64) (e : Int32) :
    ofParts negative m e = some (Decimal.ofParts negative m e) := by
  rw [ofParts, Decimal.ofParts]
  by_cases hm : m = 0
  · rw [if_pos hm, if_pos hm]
  have hpos := toNat_pos hm
  have hraise : raise 15 m e = some (Decimal.raise m e) := by
    have hleast : leastMantissa.toNat = 10 ^ 15 := rfl
    exact raise_eq hpos (by omega) e
  have hlower : ∀ n x, lower? 4 n x = some (Decimal.lower? n x) := by
    intro n x
    exact lower_eq (n.toNat_lt.trans (by decide)) x
  rw [if_neg hm, if_neg hm, hraise]
  simp only [Option.bind_eq_bind, Option.bind_some, hlower]
  cases hlow : Decimal.lower? (Decimal.raise m e).1 (Decimal.raise m e).2 with
  | none => rfl
  | some r =>
    obtain ⟨n, x⟩ := r
    obtain ⟨-, hsmall, -⟩ := normalized hpos hlow
    cases negative <;>
      simp only [signed_eq hsmall, negate_eq hsmall, Option.bind_some, ↓reduceIte,
        Bool.false_eq_true] <;>
      split <;> rfl

end Guarded

/-- The digits of a number without its last zeros, the last one first. -/
def significant (n : Nat) : List Nat :=
  (Nat.digits 10 n).dropWhile (· == 0)

/-- The exponent of `m * 10 ^ e` once it is written with a mantissa of sixteen digits. -/
def fullExponent (m : Nat) (e : Int) : Int :=
  e + (Nat.digits 10 m).length - 16

theorem length_digits_scaled {m : Nat} (hm : 0 < m) (k : Nat) :
    (Nat.digits 10 (m * 10 ^ k)).length = (Nat.digits 10 m).length + k := by
  rw [mul_comm, Nat.digits_base_pow_mul (by decide) hm, List.length_append, List.length_replicate,
    Nat.add_comm]

theorem significant_scaled {s : Nat} (hs : s % 10 ≠ 0) (k : Nat) :
    significant (s * 10 ^ k) = Nat.digits 10 s := by
  have hzeros : ∀ d ∈ List.replicate k 0, (d == 0) = true := by
    intro d hd
    rw [(List.mem_replicate.mp hd).2]
    rfl
  rw [significant, mul_comm, Nat.digits_base_pow_mul (by decide) (by omega),
    List.dropWhile_append_of_pos hzeros, Nat.digits_eq_cons_digits_div (by decide) (by omega)]
  exact List.dropWhile_cons_of_neg (by simpa using hs)

theorem sixteen_iff {n : Nat} :
    (Nat.digits 10 n).length = 16 ↔ leastMantissa.toNat ≤ n ∧ n ≤ greatestMantissa.toNat := by
  have hleast : leastMantissa.toNat = 10 ^ 15 := rfl
  have hgreatest : greatestMantissa.toNat = 10 ^ 16 - 1 := rfl
  have hfew := Nat.digits_length_le_iff (b := 10) (k := 16) (by decide) n
  have hmany := Nat.lt_digits_length_iff (b := 10) (k := 15) (by decide) n
  omega

/-- With sixteen digits in front of it, the power of ten is the full exponent. -/
theorem eq_fullExponent {negative : Bool} {m : Nat} {e n x : Int} (hm : 0 < m)
    (hl : leastMantissa.toNat ≤ n.natAbs) (hu : n.natAbs ≤ greatestMantissa.toNat)
    (h : (n : ℚ) * 10 ^ x = Text.withSign negative m * 10 ^ e) : x = fullExponent m e := by
  have hn := sixteen_iff.mpr ⟨hl, hu⟩
  have hleast : leastMantissa.toNat = 1000000000000000 := rfl
  rw [fullExponent]
  obtain hle | hle := le_total x e
  · obtain ⟨k, rfl⟩ : ∃ k : Nat, e = x + k := ⟨(e - x).toNat, by omega⟩
    have habs := natAbs_scaled h.symm
    rw [Text.natAbs_withSign] at habs
    rw [← habs, length_digits_scaled hm] at hn
    omega
  · obtain ⟨k, rfl⟩ : ∃ k : Nat, x = e + k := ⟨(x - e).toNat, by omega⟩
    have habs := natAbs_scaled h
    rw [Text.natAbs_withSign] at habs
    have hk := length_digits_scaled (m := n.natAbs) (by omega) k
    rw [habs] at hk
    omega

/-- A number with few significant digits is one with exactly sixteen digits before the power of ten
that is then left. -/
theorem exists_sixteen {m : Nat} (hm : 0 < m) (h : (significant m).length ≤ 16) (negative : Bool)
    (e : Int) : ∃ n : Nat, leastMantissa.toNat ≤ n ∧ n ≤ greatestMantissa.toNat ∧
      (Text.withSign negative n : ℚ) * 10 ^ fullExponent m e =
        Text.withSign negative m * 10 ^ e := by
  obtain ⟨hvalue, hs⟩ := trimZeros_spec m hm
  generalize (trimZeros m).1 = s, (trimZeros m).2 = z at hvalue hs
  subst hvalue
  have hpos : 0 < s := by omega
  rw [significant_scaled hs] at h
  obtain ⟨k, hk⟩ : ∃ k, (Nat.digits 10 s).length + k = 16 := Nat.exists_eq_add_of_le h |>.imp
    fun _ hk => hk.symm
  have hsixteen := sixteen_iff.mp ((length_digits_scaled hpos k).trans hk)
  refine ⟨s * 10 ^ k, hsixteen.1, hsixteen.2, ?_⟩
  have hexponent : fullExponent (s * 10 ^ z) e = e + z - k := by
    rw [fullExponent, length_digits_scaled hpos]
    omega
  rw [hexponent, Text.withSign_mul, Text.withSign_mul, zpow_sub₀ (by norm_num),
    zpow_add₀ (by norm_num), zpow_natCast, zpow_natCast]
  push_cast
  field_simp

/-- A value of a nonzero mantissa is not zero, so it has sixteen digits. -/
theorem digits_of_ok {negative : Bool} {m : UInt64} {e : Int32} {d : Decimal} (hm : m ≠ 0)
    (h : ofParts negative m e = .ok d) : leastMantissa.toNat ≤ d.mantissa.toInt.natAbs ∧
      d.mantissa.toInt.natAbs ≤ greatestMantissa.toNat := by
  obtain ⟨h0, -⟩ | ⟨hl, hu, -, -⟩ := d.normal
  · have hzero := (number_eq_zero.mpr h0).symm.trans (ofParts_iff.mp h)
    have hm := toNat_pos hm
    rw [cast_withSign] at hzero
    split at hzero <;> simp [zpow_ne_zero] at hzero <;> omega
  · exact ⟨hl, hu⟩

/-- The parts of a number other than zero make up a value exactly if sixteen digits hold it. -/
theorem ofParts_ok_iff {negative : Bool} {m : UInt64} {e : Int32} (hm : m ≠ 0) :
    (∃ d, ofParts negative m e = .ok d) ↔ (significant m.toNat).length ≤ 16 ∧
      -96 ≤ fullExponent m.toNat e.toInt ∧ fullExponent m.toNat e.toInt ≤ 80 := by
  constructor
  · rintro ⟨d, h⟩
    have hnumber := ofParts_iff.mp h
    obtain ⟨hl, hu⟩ := digits_of_ok hm h
    have hrange : leastExponent ≤ d.exponent.toInt ∧ d.exponent.toInt ≤ greatestExponent :=
      exponent_range hl hu rfl
    rw [← eq_fullExponent (toNat_pos hm) hl hu hnumber]
    refine ⟨?_, hrange⟩
    obtain ⟨hvalue, hs⟩ := trimZeros_spec m.toNat (toNat_pos hm)
    rw [← hvalue] at hnumber ⊢
    rw [significant_scaled hs, Nat.digits_length_le_iff (by decide)]
    rw [Text.withSign_mul, Int.cast_mul, mul_assoc] at hnumber
    push_cast at hnumber
    rw [← zpow_natCast, ← zpow_add₀ (by norm_num)] at hnumber
    exact (digits_bound hs hnumber).1
  · rintro ⟨hfew, hel, heu⟩
    obtain ⟨n, hl, hu, hnumber⟩ := exists_sixteen (toNat_pos hm) hfew negative e.toInt
    obtain ⟨d, hmantissa, hexponent⟩ := exists_of_normal (m := Text.withSign negative n)
      (.inr ⟨by rwa [Text.natAbs_withSign], by rwa [Text.natAbs_withSign], hel, heu⟩)
    exact ⟨d, ofParts_iff.mpr (by rw [number, hmantissa, hexponent, hnumber])⟩

/-- A value made up of its own parts is the value again. -/
theorem ofParts_self (d : Decimal) :
    ofParts d.isNegative (UInt64.ofNat d.mantissa.toInt.natAbs) d.exponent = .ok d := by
  have hgreatest : greatestMantissa.toNat = 9999999999999999 := rfl
  have hsmall : d.mantissa.toInt.natAbs ≤ greatestMantissa.toNat := by
    obtain ⟨h0, -⟩ | ⟨-, hu, -, -⟩ := d.normal
    · rw [h0]
      exact Nat.zero_le _
    · exact hu
  have hword : (UInt64.ofNat d.mantissa.toInt.natAbs).toNat = d.mantissa.toInt.natAbs :=
    UInt64.toNat_ofNat_of_lt' (by simp only [UInt64.size]; omega)
  rw [ofParts_iff, hword, withSign_mantissa, number]

/-- The making of a value ends without an overflow, and gives exactly the number of its parts in the
one form that it has; it refuses where sixteen digits or the range of exponents cannot hold it. -/
theorem parts_normalized (negative : Bool) (m : UInt64) (e : Int32) :
    Guarded.ofParts negative m e = some (ofParts negative m e) ∧
    (m = 0 → ofParts negative m e = .ok zero) ∧
    (m ≠ 0 → ((∃ d, ofParts negative m e = .ok d) ↔ (significant m.toNat).length ≤ 16 ∧
      -96 ≤ fullExponent m.toNat e.toInt ∧ fullExponent m.toNat e.toInt ≤ 80)) ∧
    ∀ d, ofParts negative m e = .ok d →
      (d.mantissa.toInt * 10 ^ d.exponent.toInt : ℚ) =
        (if negative then -1 else 1) * m.toNat * 10 ^ e.toInt ∧
      (m ≠ 0 → 10 ^ 15 ≤ d.mantissa.toInt.natAbs ∧ d.mantissa.toInt.natAbs < 10 ^ 16 ∧
        d.exponent.toInt = fullExponent m.toNat e.toInt) ∧
      (∀ n x : Int, 10 ^ 15 ≤ n.natAbs → n.natAbs < 10 ^ 16 →
        (n * 10 ^ x : ℚ) = (if negative then -1 else 1) * m.toNat * 10 ^ e.toInt →
        n = d.mantissa.toInt ∧ x = d.exponent.toInt) ∧
      ofParts d.isNegative (UInt64.ofNat d.mantissa.toInt.natAbs) d.exponent = .ok d := by
  refine ⟨Guarded.ofParts_eq negative m e, ?_, ofParts_ok_iff, ?_⟩
  · intro hm
    rw [ofParts, if_pos hm]
  · intro d h
    have hnumber := ofParts_iff.mp h
    refine ⟨cast_withSign negative _ ▸ hnumber, ?_, ?_, ofParts_self d⟩
    · intro hm
      obtain ⟨hl, hu⟩ := digits_of_ok hm h
      exact ⟨hl, Nat.lt_succ_of_le hu, eq_fullExponent (toNat_pos hm) hl hu hnumber⟩
    · intro n x hl hu hother
      rw [← cast_withSign] at hother
      have hu : n.natAbs ≤ greatestMantissa.toNat := Nat.le_of_lt_succ hu
      obtain rfl | hm := eq_or_ne m 0
      · have hzero : n = 0 := by
          cases negative <;> simpa [Text.withSign, zpow_ne_zero] using hother
        simp [hzero] at hl
      · obtain ⟨hdl, hdu⟩ := digits_of_ok hm h
        have hx : x = d.exponent.toInt := (eq_fullExponent (toNat_pos hm) hl hu hother).trans
          (eq_fullExponent (toNat_pos hm) hdl hdu hnumber).symm
        rw [← hnumber, number, hx] at hother
        exact ⟨by exact_mod_cast mul_right_cancel₀ (zpow_ne_zero _ (by norm_num)) hother, hx⟩

/-- Twenty digits whose last four are zeros, at the highest exponent and above it, and twenty
digits of which seventeen count. -/
theorem parts_normalized_long :
    (∃ d, ofParts true 12345678901234560000 76 = .ok d ∧
      d.mantissa.toInt = -1234567890123456 ∧ d.exponent.toInt = 80) ∧
    (¬ ∃ d, ofParts true 12345678901234560000 77 = .ok d) ∧
    ¬ ∃ d, ofParts true 12345678901234567000 60 = .ok d := by
  have hm : (12345678901234560000 : UInt64).toNat = 12345678901234560000 := rfl
  have hn : (12345678901234567000 : UInt64).toNat = 12345678901234567000 := rfl
  have hx : (76 : Int32).toInt = 76 := rfl
  have hdigits : (Nat.digits 10 12345678901234560000).length = 20 := by norm_num
  have hfew : (significant 12345678901234560000).length = 16 := by norm_num [significant]
  have hmany : (significant 12345678901234567000).length = 17 := by norm_num [significant]
  obtain ⟨-, -, haccepted, hvalue⟩ := parts_normalized true 12345678901234560000 76
  obtain ⟨-, -, hhigh, -⟩ := parts_normalized true 12345678901234560000 77
  obtain ⟨-, -, hlong, -⟩ := parts_normalized true 12345678901234567000 60
  rw [fullExponent, hm, hdigits, hfew] at haccepted hhigh
  rw [hn, hmany] at hlong
  refine ⟨?_, ?_, ?_⟩
  · obtain ⟨d, h⟩ := (haccepted (by decide)).mpr (by decide)
    obtain ⟨-, -, hunique, -⟩ := hvalue d h
    rw [hm, hx] at hunique
    obtain ⟨hmantissa, hexponent⟩ :=
      hunique (-1234567890123456) 80 (by decide) (by decide) (by norm_num)
    exact ⟨d, h, hmantissa.symm, hexponent.symm⟩
  · rw [hhigh (by decide)]
    decide
  · rw [hlong (by decide)]
    decide

end Attestor.Decimal
