import ProofGate.Shown
import ProofGate.Statement

/-!
# The console

The lines and tables that commands show: short forms of addresses and tags, the members of a
statement, the inputs of a proof, and how a failure is told.
-/

namespace ProofGate

namespace Console

/-! ## Short forms -/

/-- Whether a length is at most another number. -/
def within (length : Nat) (limit : Value) : Except Failure Bool :=
  match limit.number? with
  | some x => .ok ((Double.exact length).le x)
  | none => .error (.notCompared "<=" (.int length) limit)

/-- The first six and the last four places of a list. -/
def ends {α : Type} (xs : List α) : List α × List α :=
  (xs.take 6, xs.drop (xs.length - 4))

/-- The first six and the last four places of a value, unless it is short enough or absent. -/
def shorten (v limit : Value) : Except Failure Value :=
  if v.isPresent then do
    let size := (← Member.sized v).length
    if ← within size limit then pure v
    else
      let both (front back : Value) : Value := .text (front.bare ++ "..." ++ back.bare)
      match v with
      | .text t => pure (both (.text (ends t).1) (.text (ends t).2))
      | .list vs => pure (both (.list (ends vs).1) (.list (ends vs).2))
      | .bytes bs => pure (both (.bytes (ends bs).1) (.bytes (ends bs).2))
      | v => throw (.notKey v)
  else .ok (.text "N/A")

def shortAddress (a : Address) : Text :=
  (ends a.checksum).1 ++ "..." ++ (ends a.checksum).2

/-- A tag by name and number, a value that is no tag as it is. -/
def tagText (v : Value) : Text :=
  match Tag.ofNumber? v with
  | some t => t.name ++ " (" ++ v.bare ++ ")"
  | none => "unknown (" ++ v.bare ++ ")"

/-! ## Tables -/

/-- A cell: a text or nothing. -/
def cell (v : Value) : Except Failure Text :=
  match v with
  | .null => .ok []
  | .text t => .ok t
  | v => .error (.notShowable v)

def hexCell (v : Value) : Except Failure Text :=
  match v.hex? with
  | some t => .ok t
  | none => .error (.notInteger v)

/-- The members of a statement, of which those of the other kind of query are left out, and the
digest of its bytes, if there is one. -/
def sketchTable (s : Sketch) (digest : Value) : Except Failure Table := do
  let contract ← cell s.contract
  let user ← cell s.user
  let hash ← Sketch.hashBytes s.blockHash
  let members : List (List Text) :=
    [["identifier", tagText s.identifier],
      ["block_number", s.blockNumber.bare],
      ["range", s.range.bare],
      ["blocks", s.minBlock.bare ++ " - " ++ s.maxBlock.bare],
      ["contract_address", contract],
      ["user_address", user],
      ["mapping_slot", s.mappingSlot.bare],
      ["mapping_slot_length", s.mappingSlotLength.bare],
      ["block_hash", Hex.marked hash]]
  let released : List (List Text) :=
    if Tag.ofNumber? s.identifier = some .erc20 then
      [["rewards_rate", s.rewardsRate.bare], ["erc20_result", s.erc20Result.bare]]
    else [["nft_ids", Text.join ", " (s.nftIds.map Value.bare)]]
  let last : List (List Text) ← match digest with
    | .null => pure []
    | v => do
      let d ← hexCell v
      pure [["digest", d]]
  pure
    { title := "Public Inputs"
      headings := ["Field", "Value"]
      rows := members ++ released ++ last }

def statementTable (s : Statement) (digest : Nat) : Except Failure Table :=
  sketchTable s.sketch (.int digest)

/-- One row for each input that has a mark, from a number on. -/
def inputRows (index : Nat) : List (Value × Bool) → Except Failure (List (List Text))
  | [] => .ok []
  | (v, ok) :: rest => do
    let number ← hexCell v
    let rows ← inputRows (index + 1) rest
    let mark : Text := if ok then "[green]✓[/green]" else "[red]✗[/red]"
    pure ([(Numeral.ofNat index : Text), number, mark] :: rows)

/-- The inputs of a pairing proof, each with whether it is an element of the field. -/
def inputsTable (inputs : List Value) (inField : List Bool) : Except Failure Table := do
  let rows ← inputRows 0 (inputs.zip inField)
  pure { title := "Groth16 Inputs", headings := ["#", "Value", "In field"], rows }

/-! ## Complaints -/

/-- How a command tells of a failure that ends it. -/
def complaint (e : Failure) : Text :=
  if e.isA .configuration then "[red]Configuration error:[/red] " ++ e.text
  else if e.isA .permanent then "[red]Rejected (" ++ e.kind.name ++ "):[/red] " ++ e.text
  else if e.isA .value then "[red]Error:[/red] " ++ e.text
  else "[red]Unexpected error:[/red] " ++ e.text

end Console

end ProofGate
