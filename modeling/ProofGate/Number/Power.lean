/-!
# Powers

The powers that bounds and scales of numbers are written with.
-/

namespace ProofGate

/-- Two to a power: numbers of at most so many bits lie below it. -/
def twoTo (n : Nat) : Nat :=
  Nat.pow 2 n

/-- Ten to a power. -/
def tenTo (n : Nat) : Nat :=
  Nat.pow 10 n

end ProofGate
