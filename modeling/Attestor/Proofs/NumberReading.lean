import Attestor.Text.Integer
import Mathlib.Algebra.Group.Nat.Defs
import Mathlib.Data.List.Induction
import Mathlib.Data.List.TakeWhile

namespace Attestor.Text

theorem isDigit_of_mem {n : Nat} {c : Char} (h : c ∈ Nat.toDigits 10 n) : isDigit c = true := by
  have hd : c.isDigit = true := Nat.isDigit_of_mem_toDigits (by decide) (by decide) h
  simpa [Char.isDigit, isDigit, Char.le_def] using hd

theorem all_isDigit (n : Nat) : (Nat.toDigits 10 n).all isDigit = true :=
  List.all_eq_true.mpr fun _ => isDigit_of_mem

@[simp] theorem digitsValue_toDigits (n : Nat) : digitsValue 0 (Nat.toDigits 10 n) = n := by
  exact Nat.ofDigitChars_ten_toDigits

theorem natural_toDigits (n : Nat) : natural? (Nat.toDigits 10 n) = some n := by
  simp [natural?, all_isDigit]

theorem digitChar_ne_zero {k : Nat} (hk : k < 10) (h0 : k ≠ 0) : Nat.digitChar k ≠ '0' := by
  intro h
  have hv := Nat.toNat_digitChar_sub_48_of_lt_ten hk
  rw [h] at hv
  exact h0 hv.symm

theorem toDigits_head {n : Nat} (h : 0 < n) :
    ∃ c rest, Nat.toDigits 10 n = c :: rest ∧ c ≠ '0' := by
  induction n using Nat.strongRecOn with
  | ind n ih =>
    by_cases hn : n < 10
    · exact ⟨_, [], Nat.toDigits_of_lt_base hn, digitChar_ne_zero hn (by omega)⟩
    · obtain ⟨c, rest, hr, hc⟩ := ih (n / 10) (by omega) (by omega)
      refine ⟨c, rest ++ [Nat.digitChar (n % 10)], ?_, hc⟩
      rw [Nat.toDigits_of_base_le (by decide) (by omega), hr, List.cons_append]

theorem digitsValue_append (xs ys : List Char) :
    digitsValue 0 (xs ++ ys) = digitsValue 0 xs * 10 ^ ys.length + digitsValue 0 ys := by
  have ha := Nat.ofDigitChars_append (b := 10) (l := xs) (m := ys) 0
  rw [Nat.ofDigitChars_eq_ofDigitChars_zero (l := ys), Nat.mul_comm] at ha
  exact ha

theorem digitsValue_zeros (n : Nat) : digitsValue 0 (List.replicate n '0') = 0 :=
  (Nat.ofDigitChars_replicate_zero (b := 10)).trans (Nat.mul_zero _)

section

variable {α : Type} [BEq α] [LawfulBEq α] (zero : α) (digits : List α)

/-- The zeros in front, of whatever kind the digits are, and the other digits. -/
theorem zeros_before :
    ∃ n, digits = List.replicate n zero ++ digits.dropWhile (· == zero) := by
  have hzeros : digits.takeWhile (· == zero) =
      List.replicate (digits.takeWhile (· == zero)).length zero := by
    rw [List.eq_replicate_iff]
    refine ⟨rfl, ?_⟩
    intro d hd
    simpa using List.mem_takeWhile_imp hd
  refine ⟨(digits.takeWhile (· == zero)).length, ?_⟩
  rw [← hzeros, List.takeWhile_append_dropWhile]

theorem head_after_zeros : (digits.dropWhile (· == zero)).head? ≠ some zero := by
  intro h
  have hhead := List.head?_dropWhile_not (· == zero) digits
  rw [h] at hhead
  simp at hhead

end

theorem isDigit_iff {c : Char} : isDigit c = true ↔ 48 ≤ c.toNat ∧ c.toNat ≤ 57 := by
  simp [isDigit, Char.le_def, UInt32.le_iff_toNat_le]

theorem digitValue_lt {c : Char} (h : isDigit c = true) : digitValue c < 10 := by
  obtain ⟨-, hu⟩ := isDigit_iff.mp h
  have hv : digitValue c = c.toNat - 48 := rfl
  omega

theorem digitChar_digitValue {c : Char} (h : isDigit c = true) :
    Nat.digitChar (digitValue c) = c := by
  obtain ⟨hl, hu⟩ := isDigit_iff.mp h
  have hv : digitValue c = c.toNat - 48 := rfl
  have hd := Nat.toNat_digitChar_of_lt_ten (digitValue_lt h)
  exact Char.toNat_inj.mp (by omega)

/-- Digits that do not start with zero are those of their number. -/
theorem toDigits_digitsValue {digits : List Char} (hd : ∀ c ∈ digits, isDigit c = true)
    (h0 : digits.head? ≠ some '0') (hne : digits ≠ []) :
    Nat.toDigits 10 (digitsValue 0 digits) = digits := by
  induction digits using List.reverseRecOn with
  | nil => exact absurd rfl hne
  | append_singleton front c ih =>
    have hc := hd c (by simp)
    have hv : digitsValue 0 (front ++ [c]) = digitsValue 0 front * 10 + digitValue c := by
      rw [digitsValue_append]
      simp [digitsValue]
    have hlt := digitValue_lt hc
    cases front with
    | nil =>
      rw [hv, Nat.toDigits_of_lt_base (by simpa [digitsValue] using hlt)]
      simp [digitsValue, digitChar_digitValue hc]
    | cons f front =>
      have hfront := ih (fun c h => hd c (List.mem_append_left _ h)) h0 (List.cons_ne_nil _ _)
      have hpos : 0 < digitsValue 0 (f :: front) := by
        apply Nat.pos_of_ne_zero
        intro hz
        rw [hz] at hfront
        exact h0 (congrArg List.head? hfront.symm)
      rw [hv, Nat.mul_comm, ← Nat.toDigits_append_toDigits (by decide) hpos hlt, hfront,
        Nat.toDigits_of_lt_base hlt, digitChar_digitValue hc]

theorem sign_ne_digit {c : Char} (h : isDigit c = true) : c ≠ '+' ∧ c ≠ '-' := by
  constructor <;> rintro rfl <;> exact absurd h (by decide)

theorem unsigned_toDigits {bits n : Nat} (h : n < twoPow bits) :
    unsigned? bits (Nat.toDigits 10 n) = some n := by
  unfold unsigned?
  split
  · rename_i rest hr
    have hm : '+' ∈ Nat.toDigits 10 n := by simp [hr]
    exact absurd rfl (sign_ne_digit (isDigit_of_mem hm)).1
  · simp [natural_toDigits, Option.filter, h]

/-- A sign that may be left out. -/
inductive Sign : List Char → Bool → Prop
  | none : Sign [] false
  | plus : Sign ['+'] false
  | minus : Sign ['-'] true

/-- The integer with this absolute value, negative if so asked. -/
def withSign (negative : Bool) (n : Nat) : Int :=
  if negative then -n else n

theorem natAbs_withSign (negative : Bool) (n : Nat) : (withSign negative n).natAbs = n := by
  cases negative <;> simp [withSign]

theorem withSign_mul (negative : Bool) (m n : Nat) :
    withSign negative (m * n) = withSign negative m * n := by
  cases negative with
  | false => exact Int.natCast_mul m n
  | true => exact (congrArg Neg.neg (Int.natCast_mul m n)).trans (Int.neg_mul ..).symm

/-- At least one digit, and nothing else. -/
def Digits (text : List Char) : Prop :=
  text ≠ [] ∧ ∀ c ∈ text, isDigit c = true

theorem natural_iff {text : List Char} {n : Nat} :
    natural? text = some n ↔ Digits text ∧ digitsValue 0 text = n := by
  simp [natural?, Digits]

/-- The natural numbers of a given width are read from digits after at most one plus sign. -/
theorem unsigned_iff {bits : Nat} {text : List Char} {n : Nat} :
    unsigned? bits text = some n ↔ ∃ digits, (text = digits ∨ text = '+' :: digits) ∧
      Digits digits ∧ digitsValue 0 digits = n ∧ n < twoPow bits := by
  have hnatural : ∀ digits, (natural? digits).filter (· < twoPow bits) = some n ↔
      Digits digits ∧ digitsValue 0 digits = n ∧ n < twoPow bits := by
    intro digits
    rw [Option.filter_eq_some_iff, natural_iff, decide_eq_true_eq, and_assoc]
  constructor
  · intro h
    unfold unsigned? at h
    split at h
    · exact ⟨_, .inr rfl, (hnatural _).mp h⟩
    · exact ⟨_, .inl rfl, (hnatural _).mp h⟩
  · rintro ⟨digits, rfl | rfl, h⟩
    · unfold unsigned?
      split
      · exact absurd rfl (sign_ne_digit (h.1.2 '+' (by simp))).1
      · exact (hnatural _).mpr h
    · exact (hnatural _).mpr h

/-- The text is digits after an optional sign, and this is their number. -/
def SpellsInteger (text : List Char) (x : Int) : Prop :=
  ∃ sign digits negative, text = sign ++ digits ∧ Sign sign negative ∧ Digits digits ∧
    withSign negative (digitsValue 0 digits) = x

theorem spelled_of_sign {bits : Nat} {sign digits : List Char} {negative : Bool} {x : Int}
    {value : Nat → Int} (hs : Sign sign negative) (hv : ∀ n, value n = withSign negative n)
    (h : ((natural? digits).map value).filter (fun n => FitsSigned bits n) = some x) :
    SpellsInteger (sign ++ digits) x ∧ FitsSigned bits x := by
  obtain ⟨hx, hfits⟩ := Option.filter_eq_some_iff.mp h
  obtain ⟨n, hn, rfl⟩ := Option.map_eq_some_iff.mp hx
  obtain ⟨hd, rfl⟩ := natural_iff.mp hn
  exact ⟨⟨sign, digits, negative, rfl, hs, hd, (hv _).symm⟩, by simpa using hfits⟩

/-- The integers of a given width are read from all their spellings. -/
theorem signed_iff {bits : Nat} {text : List Char} {x : Int} :
    signed? bits text = some x ↔ SpellsInteger text x ∧ FitsSigned bits x := by
  constructor
  · intro h
    unfold signed? at h
    split at h
    · exact spelled_of_sign .plus (fun _ => rfl) h
    · exact spelled_of_sign .minus (fun _ => rfl) h
    · exact spelled_of_sign .none (fun _ => rfl) h
  · rintro ⟨⟨sign, digits, negative, rfl, hs, hd, rfl⟩, hx⟩
    have hn := natural_iff.mpr ⟨hd, rfl⟩
    cases hs with
    | none =>
      unfold signed?
      split
      · exact absurd rfl (sign_ne_digit (hd.2 '+' (by simp_all))).1
      · exact absurd rfl (sign_ne_digit (hd.2 '-' (by simp_all))).2
      · simpa [hn, Option.filter, withSign] using hx
    | plus => simpa [signed?, hn, Option.filter, withSign] using hx
    | minus => simpa [signed?, hn, Option.filter, withSign] using hx

theorem digits_toDigits (n : Nat) : Digits (Nat.toDigits 10 n) :=
  ⟨Nat.toDigits_ne_nil, fun _ => isDigit_of_mem⟩

theorem signed_toString {bits : Nat} {x : Int} (h : FitsSigned bits x) :
    signed? bits (toString x).toList = some x := by
  refine signed_iff.mpr ⟨?_, h⟩
  cases x with
  | ofNat n =>
    have ht : (toString (Int.ofNat n)).toList = Nat.toDigits 10 n := Nat.toList_repr
    exact ⟨[], Nat.toDigits 10 n, false, ht, .none, digits_toDigits n, by simp [withSign]⟩
  | negSucc n =>
    have ht : (toString (Int.negSucc n)).toList = '-' :: Nat.toDigits 10 (n + 1) := by
      simp [Int.toString_eq_repr, Int.repr]
    exact ⟨['-'], Nat.toDigits 10 (n + 1), true, ht, .minus, digits_toDigits (n + 1), by
      simp [withSign, Int.negSucc_eq]⟩

end Attestor.Text
