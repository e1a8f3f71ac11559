/-!
# Byte strings

Lists of bytes, their readings as numbers with the first byte weighing least or most, and the
cuts that the wire formats are made of.
-/

namespace ProofGate

abbrev Bytes := List UInt8

namespace Bytes

/-! ## Numbers -/

/-- The number written by bytes of which the first weighs least. -/
def natLE : Bytes → Nat
  | [] => 0
  | b :: bs => b.toNat + 256 * natLE bs

/-- The number written by bytes of which the first weighs most. -/
def natBE (bs : Bytes) : Nat :=
  natLE bs.reverse

/-- The `width` low bytes of a number, the lowest first. -/
def ofNatLE : Nat → Nat → Bytes
  | 0, _ => []
  | width + 1, n => UInt8.ofNat n :: ofNatLE width (n / 256)

/-- The `width` low bytes of a number, the lowest last. -/
def ofNatBE (width n : Nat) : Bytes :=
  (ofNatLE width n).reverse

/-! ## Cuts and fillings -/

def zeros (n : Nat) : Bytes :=
  List.replicate n 0

/-- At most `count` bytes, from position `start` on. -/
def cut (bs : Bytes) (start count : Nat) : Bytes :=
  (bs.drop start).take count

/-- Zero bytes at the end up to a length. -/
def padTo (width : Nat) (bs : Bytes) : Bytes :=
  bs ++ zeros (width - bs.length)

/-- Pieces of `width` bytes; the last one may be shorter, and none is empty. -/
def chunks (width : Nat) (bs : Bytes) : List Bytes :=
  if _h : bs = [] ∨ width = 0 then [] else bs.take width :: chunks width (bs.drop width)
termination_by bs.length
decreasing_by
  have : bs ≠ [] := fun e => _h (.inl e)
  have : 0 < bs.length := List.length_pos_iff.2 this
  simp only [List.length_drop]
  omega

/-- The bytes with those from `start` on overwritten by `piece`. -/
def overwrite (bs : Bytes) (start : Nat) (piece : Bytes) : Bytes :=
  bs.take start ++ piece ++ bs.drop (start + piece.length)

end Bytes

end ProofGate
