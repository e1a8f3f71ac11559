import ProofGate.Failure

/-!
# Layouts

Where the members of a statement stand in its bytes. An element takes eight bytes and carries
one digit; a plan gives each field a span of elements. A layout is a plan whose spans, in the
order of their offsets, follow each other from zero to the total length without gap or overlap,
the length being that of 41 elements and one more for each id.
-/

namespace ProofGate

/-- The fields of a statement in the order in which circuits register them. -/
inductive Field where
  | blockNumber
  | range
  | minBlock
  | maxBlock
  | contract
  | user
  | mappingSlot
  | mappingSlotLength
  | nftIds
  | blockHash
  | rewardsRate
  | erc20Result
  | identifier
deriving Repr, DecidableEq

namespace Field

def all : List Field :=
  [blockNumber, range, minBlock, maxBlock, contract, user, mappingSlot, mappingSlotLength,
    nftIds, blockHash, rewardsRate, erc20Result, identifier]

def name : Field → String
  | blockNumber => "block_number"
  | range => "range"
  | minBlock => "min_block_number"
  | maxBlock => "max_block_number"
  | contract => "contract_address"
  | user => "user_address"
  | mappingSlot => "mapping_slot"
  | mappingSlotLength => "mapping_slot_length"
  | nftIds => "nft_ids"
  | blockHash => "block_hash"
  | rewardsRate => "rewards_rate"
  | erc20Result => "erc20_result"
  | identifier => "identifier"

def ofName? (s : Text) : Option Field :=
  all.find? fun f => Text.ofString f.name == s

/-- How many digits a field takes when a statement has `ids` ids. -/
def digits (ids : Int) : Field → Int
  | contract => 5
  | user => 5
  | nftIds => ids
  | blockHash => 8
  | rewardsRate => 8
  | erc20Result => 8
  | _ => 1

/-- How many bytes fields take together. -/
def bytes (ids : Int) : List Field → Int
  | [] => 0
  | f :: fs => f.digits ids * 8 + bytes ids fs

end Field

/-- A run of elements under a name. -/
structure Span where
  name : Text
  offset : Int
  digits : Int
deriving Repr, DecidableEq

namespace Span

def length (s : Span) : Int :=
  s.digits * 8

def stop (s : Span) : Int :=
  s.offset + s.length

/-- Where a digit of the span begins. -/
def digitOffset (s : Span) (index : Int) : Except Failure Int :=
  if 0 ≤ index ∧ index < s.digits then .ok (s.offset + index * 8)
  else .error (.digitIndex s.name s.digits (.int index))

/-- Where all digits of the span begin. -/
def digitOffsets (s : Span) : List Int :=
  (List.range s.digits.toNat).map fun i => s.offset + Int.ofNat i * 8

end Span

/-- Spans for all fields, a number of ids and a total length, not yet checked. -/
structure Plan where
  span : Field → Span
  ids : Int
  total : Int

namespace Plan

/-- Puts a span behind those that begin no later. -/
def place (sorted : List Span) (s : Span) : List Span :=
  match sorted with
  | [] => [s]
  | t :: ts => if s.offset < t.offset then s :: t :: ts else t :: place ts s

/-- The spans by offset; those of one offset in the order of registration. -/
def spans (p : Plan) : List Span :=
  (Field.all.map p.span).foldl place []

/-- Where spans that follow each other from an offset on end. -/
def tile (start : Int) : List Span → Except Failure Int
  | [] => .ok start
  | s :: rest =>
    if s.offset = start then tile s.stop rest
    else .error (.layoutGap s.name s.offset start)

def check (p : Plan) : Except Failure Unit := do
  let stop ← tile 0 p.spans
  if stop ≠ p.total then throw (.layoutEnd stop p.total)
  let due := (p.ids + 41) * 8
  if p.total ≠ due then throw (.layoutSize p.ids due p.total)

/-- Fields back to back in the order of registration. -/
def backToBack (ids : Int) : Plan :=
  { span := fun f => ⟨f.name, Field.bytes ids (Field.all.takeWhile (· ≠ f)), f.digits ids⟩
    ids
    total := Field.bytes ids Field.all }

end Plan

structure Layout extends Plan where
  sound : toPlan.check.isOk = true

namespace Layout

def ofPlan (p : Plan) : Except Failure Layout :=
  match h : p.check with
  | .ok () => .ok ⟨p, by simp [h, Except.isOk, Except.toBool]⟩
  | .error e => .error e

def build (ids : Int) : Except Failure Layout :=
  ofPlan (Plan.backToBack ids)

def identifierOffset (l : Layout) : Int :=
  (l.span .identifier).offset

/-- The number of ids in the statements that bundles carry. -/
def idsInBundle : Nat := 5

/-- The length of the statements that bundles carry. -/
def bytesInBundle : Nat := 368

/-- Only layouts of that length fit a bundle. -/
def checkTotal (l : Layout) : Except Failure Unit :=
  if l.total = bytesInBundle then .ok () else .error (.layoutTotal l.total bytesInBundle)

/-- The layout of the statements that bundles carry. -/
def standard : Layout :=
  { Plan.backToBack idsInBundle with sound := by decide +kernel }

end Layout

end ProofGate
