namespace Attestor

/-- Two to the power `n`: how many values a word of `n` bits has. -/
def twoPow (n : Nat) : Nat :=
  Nat.pow 2 n

def FitsUnsigned (bits : Nat) (n : Int) : Prop :=
  0 ≤ n ∧ n < twoPow bits

/-- In two's complement. -/
def FitsSigned (bits : Nat) (n : Int) : Prop :=
  -(twoPow (bits - 1) : Int) ≤ n ∧ n < twoPow (bits - 1)

instance (bits : Nat) (n : Int) : Decidable (FitsUnsigned bits n) :=
  inferInstanceAs (Decidable (0 ≤ n ∧ n < twoPow bits))

instance (bits : Nat) (n : Int) : Decidable (FitsSigned bits n) :=
  inferInstanceAs (Decidable (-(twoPow (bits - 1) : Int) ≤ n ∧ n < twoPow (bits - 1)))

end Attestor
