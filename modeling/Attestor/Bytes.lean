namespace Attestor

abbrev Bytes := List UInt8

namespace Bytes

/-- The text's UTF-8 form. -/
def ofString (s : String) : Bytes :=
  s.toUTF8.data.toList

/-- The `width` low bytes of `n`, the lowest first. -/
def littleEndian : (width n : Nat) → Bytes
  | 0, _ => []
  | width + 1, n => UInt8.ofNat n :: littleEndian width (n / 256)

/-- The `width` low bytes of `n`, the highest first. -/
def bigEndian (width n : Nat) : Bytes :=
  (littleEndian width n).reverse

/-- The number whose lowest byte comes first. -/
def toNatLittle : Bytes → Nat
  | [] => 0
  | b :: rest => b.toNat + 256 * toNatLittle rest

/-- The number whose highest byte comes first. -/
def toNatBig (bytes : Bytes) : Nat :=
  toNatLittle bytes.reverse

@[simp] theorem length_littleEndian (width n : Nat) : (littleEndian width n).length = width := by
  induction width generalizing n with
  | zero => rfl
  | succ width ih => simp [littleEndian, ih]

@[simp] theorem length_bigEndian (width n : Nat) : (bigEndian width n).length = width := by
  simp [bigEndian]

theorem toNatLittle_littleEndian (width n : Nat) (small : n < Nat.pow 256 width) :
    toNatLittle (littleEndian width n) = n := by
  induction width generalizing n with
  | zero =>
    have : n = 0 := by simpa using small
    simp [littleEndian, toNatLittle, this]
  | succ width ih =>
    have high : n / 256 < Nat.pow 256 width := by
      rw [show Nat.pow 256 (width + 1) = 256 * Nat.pow 256 width from Nat.mul_comm ..] at small
      exact Nat.div_lt_of_lt_mul small
    have low : (UInt8.ofNat n).toNat = n % 256 := by simp
    simp only [littleEndian, toNatLittle, ih _ high, low]
    omega

theorem toNatBig_bigEndian (width n : Nat) (small : n < Nat.pow 256 width) :
    toNatBig (bigEndian width n) = n := by
  simp [toNatBig, bigEndian, toNatLittle_littleEndian width n small]

/-- The bytes cut into pieces of `size`; the last may be shorter. -/
def chunks (size : Nat) (bytes : Bytes) : List Bytes :=
  if _h : 0 < size ∧ bytes ≠ [] then
    bytes.take size :: chunks size (bytes.drop size)
  else
    []
  termination_by bytes.length
  decreasing_by
    have := List.length_pos_iff.mpr _h.2
    simp only [List.length_drop]
    omega

end Bytes

end Attestor
