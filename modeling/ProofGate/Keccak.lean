import ProofGate.Bytes

/-!
# Keccak-256

The sponge with 1600 bits of state, blocks of 136 bytes and the padding that puts a one bit
after the message and at the end of the last block. A lane is a 64-bit word; lane `(x, y)`
stands at index `x + 5 y`.
-/

namespace ProofGate.Keccak

abbrev State := Vector UInt64 25

def State.lane (s : State) (x y : Nat) : UInt64 :=
  s.get ⟨x % 5 + 5 * (y % 5), by omega⟩

/-- The state whose lane `(x, y)` is given by a function. -/
def State.ofLanes (f : Nat → Nat → UInt64) : State :=
  Vector.ofFn fun i : Fin 25 => f (i.val % 5) (i.val / 5)

def rotate (w : UInt64) (k : Nat) : UInt64 :=
  (w <<< UInt64.ofNat k) ||| (w >>> UInt64.ofNat (64 - k))

/-! ## Rounds -/

def theta (s : State) : State :=
  let column : Vector UInt64 5 := Vector.ofFn fun x : Fin 5 =>
    (List.range 5).foldl (fun w y => w ^^^ s.lane x y) 0
  let parity (x : Nat) : UInt64 := column.get ⟨x % 5, by omega⟩
  State.ofLanes fun x y => s.lane x y ^^^ parity (x + 4) ^^^ rotate (parity (x + 1)) 1

/-- How far each lane is rotated, by index. -/
def offsets : List Nat :=
  [0, 1, 62, 28, 27, 36, 44, 6, 55, 20, 3, 10, 43, 25, 39, 41, 45, 15, 21, 8, 18, 2, 61, 56, 14]

/-- Rotates every lane and moves it: `(x, y)` takes the place of `(y, 2 x + 3 y)`. -/
def rhoPi (s : State) : State :=
  State.ofLanes fun x y =>
    let source := (x + 3 * y) % 5
    rotate (s.lane source x) (offsets.getD (source + 5 * x) 0)

def chi (s : State) : State :=
  State.ofLanes fun x y => s.lane x y ^^^ (~~~(s.lane (x + 1) y) &&& s.lane (x + 2) y)

def iota (constant : UInt64) (s : State) : State :=
  s.set 0 (s[0] ^^^ constant)

def constants : List UInt64 :=
  [0x0000000000000001, 0x0000000000008082, 0x800000000000808A, 0x8000000080008000,
    0x000000000000808B, 0x0000000080000001, 0x8000000080008081, 0x8000000000008009,
    0x000000000000008A, 0x0000000000000088, 0x0000000080008009, 0x000000008000000A,
    0x000000008000808B, 0x800000000000008B, 0x8000000000008089, 0x8000000000008003,
    0x8000000000008002, 0x8000000000000080, 0x000000000000800A, 0x800000008000000A,
    0x8000000080008081, 0x8000000000008080, 0x0000000080000001, 0x8000000080008008]

def permute (s : State) : State :=
  constants.foldl (fun s c => iota c (chi (rhoPi (theta s)))) s

/-! ## Sponge -/

def blockLength : Nat := 136

/-- The message with its padding, a whole number of blocks. -/
def padded (message : Bytes) : Bytes :=
  let free := blockLength - message.length % blockLength
  if free = 1 then message ++ [0x81]
  else message ++ 0x01 :: (Bytes.zeros (free - 2) ++ [0x80])

/-- Eight bytes, the first weighing least. -/
def word (bs : Bytes) : UInt64 :=
  UInt64.ofNat (Bytes.natLE bs)

def absorb (s : State) (block : Bytes) : State :=
  let words := ((Bytes.chunks 8 block).map word).toArray
  permute (Vector.ofFn fun i : Fin 25 => s[i] ^^^ words.getD i.val 0)

/-- The 32 bytes of the digest. -/
def digest (message : Bytes) : Bytes :=
  let s := (Bytes.chunks blockLength (padded message)).foldl absorb (Vector.replicate 25 0)
  (s.toList.take 4).flatMap fun w => Bytes.ofNatLE 8 w.toNat

end ProofGate.Keccak
