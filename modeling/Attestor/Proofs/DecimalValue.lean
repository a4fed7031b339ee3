import Attestor.Asset.Amount
import Mathlib.Algebra.Order.Field.Power
import Mathlib.Algebra.Order.Field.Rat
import Mathlib.Data.Int.CharZero

namespace Attestor

namespace Decimal

/-- The number `mantissa * 10 ^ exponent`. -/
def number (d : Decimal) : ℚ :=
  d.mantissa.toInt * 10 ^ d.exponent.toInt

/-- A higher power of ten is made up for by zeros at the end of the other integer. -/
theorem natAbs_scaled {m n x : Int} {k : Nat} (h : (m : ℚ) * 10 ^ (x + k) = n * 10 ^ x) :
    m.natAbs * 10 ^ k = n.natAbs := by
  have hx : (10 : ℚ) ^ x ≠ 0 := zpow_ne_zero x (by decide)
  rw [zpow_add₀ (by decide), zpow_natCast, mul_comm ((10 : ℚ) ^ x), ← mul_assoc] at h
  have hints : m * 10 ^ k = n := by exact_mod_cast mul_right_cancel₀ hx h
  rw [← hints, Int.natAbs_mul, Int.natAbs_pow]
  rfl

/-- Of two equal products, the one with sixteen digits at most has no smaller exponent than one with
sixteen digits at least. -/
theorem exponent_le {m n x y : Int} (hm : m.natAbs ≤ greatestMantissa.toNat)
    (hn : leastMantissa.toNat ≤ n.natAbs) (h : (m : ℚ) * 10 ^ x = n * 10 ^ y) : y ≤ x := by
  have hgreatest : greatestMantissa.toNat = 9999999999999999 := rfl
  have hleast : leastMantissa.toNat = 1000000000000000 := rfl
  by_contra hlt
  obtain ⟨k, rfl⟩ : ∃ k : Nat, y = x + (k + 1 : Nat) := ⟨(y - x - 1).toNat, by omega⟩
  have habs := natAbs_scaled h.symm
  have hk : 10 ≤ 10 ^ (k + 1) := Nat.le_self_pow (Nat.succ_ne_zero k) 10
  have hbig : 1000000000000000 * 10 ≤ n.natAbs * 10 ^ (k + 1) :=
    Nat.mul_le_mul (by omega) hk
  omega

theorem number_eq_zero {d : Decimal} : d.number = 0 ↔ d.mantissa.toInt = 0 := by
  rw [number, mul_eq_zero, Int.cast_eq_zero]
  exact or_iff_left (zpow_ne_zero _ (by decide))

/-- Each number has one form. -/
theorem number_inj {d e : Decimal} : d.number = e.number ↔ d = e := by
  constructor
  · intro h
    have hparts : d.mantissa.toInt = e.mantissa.toInt ∧ d.exponent.toInt = e.exponent.toInt := by
      obtain ⟨hd, hdx⟩ | ⟨hdl, hdu, -, -⟩ := d.normal
      · have he : e.mantissa.toInt = 0 := number_eq_zero.mp (h ▸ number_eq_zero.mpr hd)
        obtain ⟨-, hex⟩ | ⟨hel, -, -, -⟩ := e.normal
        · exact ⟨hd.trans he.symm, hdx.trans hex.symm⟩
        · rw [he] at hel
          exact absurd hel (by decide)
      · obtain ⟨he, -⟩ | ⟨hel, heu, -, -⟩ := e.normal
        · have hd : d.mantissa.toInt = 0 := number_eq_zero.mp (h ▸ number_eq_zero.mpr he)
          rw [hd] at hdl
          exact absurd hdl (by decide)
        · have hx : d.exponent.toInt = e.exponent.toInt :=
            Int.le_antisymm (exponent_le heu hdl h.symm) (exponent_le hdu hel h)
          refine ⟨?_, hx⟩
          rw [number, number, hx] at h
          exact_mod_cast mul_right_cancel₀ (zpow_ne_zero _ (by decide)) h
    obtain ⟨mantissa, exponent, _⟩ := d
    obtain ⟨mantissa', exponent', _⟩ := e
    obtain rfl := Int64.toInt_inj.mp hparts.1
    obtain rfl := Int32.toInt_inj.mp hparts.2
    rfl
  · rintro rfl
    rfl

end Decimal

namespace Amount

/-- Whether two amounts are equal as values: as many drops, or one number of one issue. -/
def SameValue : Amount → Amount → Prop
  | native m, native n => m = n
  | issued v currency issuer, issued w currency' issuer' =>
    v.number = w.number ∧ currency = currency' ∧ issuer = issuer'
  | _, _ => False

theorem sameValue_iff {a b : Amount} : a.SameValue b ↔ a = b := by
  cases a <;> cases b <;> simp [SameValue, Decimal.number_inj]

end Amount

end Attestor
