/-!
# Character sets

A set of characters is a list of code ranges, both ends included.
-/

namespace ProofGate.Text

abbrev Ranges := List (Nat × Nat)

def Ranges.has (rs : Ranges) (c : Char) : Bool :=
  rs.any fun r => r.1 ≤ c.toNat && c.toNat ≤ r.2

end ProofGate.Text
