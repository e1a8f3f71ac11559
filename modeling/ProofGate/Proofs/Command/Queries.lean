import ProofGate.Command.Loading
import ProofGate.Proofs.Member
import ProofGate.Proofs.Run
import Mathlib.Tactic.Common

/-!
# Queries put together

A query is put together from members of three origins: the captured call, a file over it, and
switches over both. Only what is left of a member is checked, and the query has all of its members
from there.
-/

namespace ProofGate

namespace Value

/-! ## Members set one after the other -/

theorem lookup_cons_if (m : Text × Value) (ms : List (Text × Value)) (name : Text) :
    (m :: ms).lookup name = if name = m.1 then some m.2 else ms.lookup name := by
  rw [List.lookup_cons]
  by_cases same : name = m.1
  · simp [same]
  · have differs : (name == m.1) = false := beq_eq_false_iff_ne.mpr same
    simp [same, differs]

theorem lookup_replaced (ms : List (Text × Value)) (name other : Text) (v : Value) :
    (ms.map fun m => if m.1 == name then (name, v) else m).lookup other =
      (ms.lookup other).map fun w => if other = name then v else w := by
  induction ms with
  | nil => rfl
  | cons m ms ih =>
    rw [List.map_cons, lookup_cons_if, lookup_cons_if, ih]
    by_cases first : m.1 = name
    · by_cases found : other = name
      · simp [first, found]
      · simp [first, found]
    · by_cases found : other = m.1
      · subst found
        simp [first]
      · simp [first, found]

theorem find?_eq_none_iff {ms : List (Text × Value)} {name : Text} :
    find? ms name = none ↔ (ms.any fun m => m.1 == name) = false := by
  rw [find?, List.lookup_eq_none_iff, List.any_eq_false]
  simp only [bne_iff_ne, ne_eq, beq_iff_eq]
  exact forall₂_congr fun m _ => not_congr eq_comm

theorem find?_put (ms : List (Text × Value)) (name other : Text) (v : Value) :
    find? (put ms name v) other = if other = name then some v else find? ms other := by
  by_cases known : find? ms name = none
  · rw [put, if_neg (by simp [find?_eq_none_iff.mp known]), find?, List.lookup_append]
    by_cases found : other = name
    · subst found
      rw [find?] at known
      simp [known]
    · simp [find?, found, lookup_cons_if]
  · have there : (ms.any fun m => m.1 == name) = true := by
      rw [← Bool.not_eq_false, ← find?_eq_none_iff]
      exact known
    rw [put, if_pos there, find?, lookup_replaced]
    by_cases found : other = name
    · subst found
      obtain ⟨w, held⟩ := Option.ne_none_iff_exists'.mp known
      rw [find?] at held
      simp [held]
    · simp [find?, found]

/-- The value that a name was given last. -/
def latest (news : List (Text × Value)) (name : Text) : Option Value :=
  news.reverse.lookup name

theorem latest_cons (m : Text × Value) (news : List (Text × Value)) (name : Text) :
    latest (m :: news) name = (latest news name).or (if name = m.1 then some m.2 else none) := by
  rw [latest, List.reverse_cons, List.lookup_append, latest, lookup_cons_if]
  rfl

/-- Members set one after the other lie over those that were there. -/
theorem find?_foldl_put (news ms : List (Text × Value)) (name : Text) :
    find? (news.foldl (fun ms m => put ms m.1 m.2) ms) name =
      (latest news name).or (find? ms name) := by
  induction news generalizing ms with
  | nil => rfl
  | cons m news ih =>
    rw [List.foldl_cons, ih, find?_put, latest_cons]
    by_cases same : name = m.1
    · cases latest news name <;> simp [same]
    · cases latest news name <;> simp [same]

end Value

namespace Loading

/-! ## Members of a file -/

/-- The pairs of a list whose names are texts. -/
def pairsFrom (index : ℕ) : List Value → Except Failure (List (Text × Value))
  | [] => .ok []
  | v :: vs => do
    let (name, value) ← pairOf index v
    let rest ← pairsFrom (index + 1) vs
    match name with
    | .text s => pure ((s, value) :: rest)
    | _ => pure rest

/-- The members that a document names: those of an object, or pairs. -/
def namedIn (v : Value) : Except Failure (List (Text × Value)) :=
  match v with
  | .object ms => .ok ms
  | v => do pairsFrom 0 (← Member.elements v)

theorem putPairs_eq (ms : List (Text × Value)) (index : ℕ) (vs : List Value) :
    putPairs ms index vs =
      (pairsFrom index vs).map fun news => news.foldl (fun ms m => Value.put ms m.1 m.2) ms := by
  induction vs generalizing ms index with
  | nil => rfl
  | cons v vs ih =>
    rw [putPairs, pairsFrom]
    cases pairOf index v with
    | error e => rfl
    | ok p =>
      obtain ⟨name, value⟩ := p
      simp only [ok_bind, ih]
      cases pairsFrom (index + 1) vs with
      | error e => rfl
      | ok rest => cases name <;> rfl

theorem overlay_eq (ms : List (Text × Value)) (v : Value) :
    overlay ms v =
      (namedIn v).map fun news => news.foldl (fun ms m => Value.put ms m.1 m.2) ms := by
  have listed (v : Value) : (Member.elements v >>= putPairs ms 0) =
      (Member.elements v >>= pairsFrom 0).map
        fun news => news.foldl (fun ms m => Value.put ms m.1 m.2) ms := by
    cases Member.elements v with
    | error e => rfl
    | ok vs => exact putPairs_eq ms 0 vs
  cases v with
  | object news => rfl
  | null | bool | int | float | text | bytes | list => exact listed _

/-- The members that the file of a query names, if there is a file. -/
def fileMembers (d : Folder) (file : Option Text) : Except Failure (List (Text × Value)) :=
  match file with
  | some path => if path.isEmpty then .ok [] else do namedIn (← json d path)
  | none => .ok []

/-- Three origins of a member: the last of those given, else the last of the file, else the captured
one. -/
def origin (given news captured : List (Text × Value)) (name : Text) : Option Value :=
  (Value.latest given name).or ((Value.latest news name).or (Value.find? captured name))

/-! ## Checks -/

section

variable [Address.CaseRule]

/-- Addresses in checksum form, under the same names. -/
structure Checks (names : List Text) (ms checked : List (Text × Value)) : Prop where
  others : ∀ name, name ∉ names → Value.find? checked name = Value.find? ms name
  absent : ∀ name ∈ names, Value.find? ms name = none → Value.find? checked name = none
  held : ∀ name ∈ names, ∀ v, Value.find? ms name = some v →
    ∃ a, Address.validate name v = .ok a ∧ Value.find? checked name = some (.text a.checksum)

/-- A member that has to be an address and is none. -/
def Unfit (names : List Text) (ms : List (Text × Value)) : Prop :=
  ∃ name ∈ names, ∃ v, Value.find? ms name = some v ∧ ∀ a, Address.validate name v ≠ .ok a

/-- **Addresses.** Each is checked by itself, and one that is none is an error. -/
theorem checkAddresses_spec {names : List Text} (distinct : names.Nodup)
    (ms : List (Text × Value)) :
    (∃ checked, checkAddresses ms names = .ok checked ∧ Checks names ms checked) ∨
      (∃ e, checkAddresses ms names = .error e) ∧ Unfit names ms := by
  induction names generalizing ms with
  | nil => exact Or.inl ⟨ms, rfl, fun _ _ => rfl, fun _ _ absent => absent, nofun⟩
  | cons name names ih =>
    obtain ⟨fresh, distinct⟩ := List.nodup_cons.mp distinct
    rw [checkAddresses]
    cases there : Value.find? ms name with
    | none =>
      rcases ih distinct ms with ⟨checked, run, checks⟩ | ⟨failed, other, inside, unfit⟩
      · refine Or.inl ⟨checked, run, ?_, ?_, ?_⟩
        · intro other outside
          exact checks.others other fun inside => outside (List.mem_cons_of_mem _ inside)
        · intro other inside absent
          rcases List.mem_cons.mp inside with rfl | inside
          · rw [checks.others other fresh, absent]
          · exact checks.absent other inside absent
        · intro other inside v held
          rcases List.mem_cons.mp inside with rfl | inside
          · cases there.symm.trans held
          · exact checks.held other inside v held
      · exact Or.inr ⟨failed, other, List.mem_cons_of_mem _ inside, unfit⟩
    | some v =>
      cases valid : Address.validate name v with
      | error e =>
        refine Or.inr ⟨⟨e, ?_⟩, name, List.mem_cons_self, v, there, ?_⟩
        · simp only [valid, error_bind]
        · intro a found
          cases valid.symm.trans found
      | ok a =>
        -- Under the other names nothing has changed yet.
        have kept {other : Text} (differs : other ≠ name) :
            Value.find? (Value.put ms name (.text a.checksum)) other = Value.find? ms other := by
          rw [Value.find?_put, if_neg differs]
        have later {other : Text} (inside : other ∈ names) : other ≠ name := by
          rintro rfl
          exact fresh inside
        simp only [valid, ok_bind]
        rcases ih distinct (Value.put ms name (.text a.checksum)) with
          ⟨checked, run, checks⟩ | ⟨failed, other, inside, v, held, unfit⟩
        · refine Or.inl ⟨checked, run, ?_, ?_, ?_⟩
          · intro other outside
            rw [List.mem_cons, not_or] at outside
            rw [checks.others other outside.2, kept outside.1]
          · intro other inside absent
            rcases List.mem_cons.mp inside with rfl | inside
            · cases there.symm.trans absent
            · exact checks.absent other inside ((kept (later inside)).trans absent)
          · intro other inside w held
            rcases List.mem_cons.mp inside with rfl | inside
            · obtain rfl := Option.some.inj (there.symm.trans held)
              refine ⟨a, valid, ?_⟩
              rw [checks.others other fresh, Value.find?_put, if_pos rfl]
            · exact checks.held other inside w ((kept (later inside)).trans held)
        · rw [kept (later inside)] at held
          exact Or.inr ⟨failed, other, List.mem_cons_of_mem _ inside, v, held, unfit⟩

theorem tells_checkAddresses (ms : List (Text × Value)) (names : List Text) :
    Tells (· = .value) (checkAddresses ms names) := by
  induction names generalizing ms with
  | nil => exact tells_ok _
  | cons name names ih =>
    rw [checkAddresses]
    split
    · exact ih ms
    · exact Tells.bind (Address.tells_validate _ _) fun _ => ih _

theorem Checks.origin {names : List Text} {ms checked : List (Text × Value)}
    (checks : Checks names ms checked) {name : Text} (inside : name ∈ names) {v : Value}
    (found : Value.find? checked name = some v) :
    ∃ w a, Value.find? ms name = some w ∧ Address.validate name w = .ok a ∧
      v = .text a.checksum := by
  cases there : Value.find? ms name with
  | none => cases (checks.absent name inside there).symm.trans found
  | some w =>
    obtain ⟨a, valid, held⟩ := checks.held name inside w there
    exact ⟨w, a, rfl, valid, (Option.some.inj (held.symm.trans found)).symm⟩

theorem Checks.found {names : List Text} {ms checked : List (Text × Value)}
    (checks : Checks names ms checked) {name : Text} (inside : name ∈ names) {v : Value}
    {a : Address} (held : Value.find? ms name = some v) (valid : Address.validate name v = .ok a) :
    Value.find? checked name = some (.text a.checksum) := by
  obtain ⟨b, other, found⟩ := checks.held name inside v held
  rw [Except.ok.inj (valid.symm.trans other), found]

end

end Loading

namespace Query

/-! ## Members of a query -/

/-- What the members of a draft are picked from. -/
structure Picked (take : Text → Option Value) (d : Draft) : Prop where
  contract : take "contract_address" = some d.contract
  user : take "user_address" = some d.user
  client : (take "client_address").getD d.user = d.client
  minBlock : take "min_block_number" = some d.minBlock
  maxBlock : take "max_block_number" = some d.maxBlock
  blockHash : take "block_hash" = some d.blockHash
  rewardsRate : (take "rewards_rate").getD (.int 0) = d.rewardsRate
  identifier : take "identifier" = some d.identifier

/-- A member that a draft needs and gets is held. -/
theorem find?_of_need {ms : List (Text × Value)} {name : String} {v : Value}
    (need : (match Value.find? ms name with
      | some v => .ok v
      | none => .error (.queryMemberMissing name) : Except Failure Value) = .ok v) :
    Value.find? ms name = some v := by
  cases found : Value.find? ms name with
  | none =>
    rw [found] at need
    cases need
  | some w =>
    rw [found] at need
    cases need
    rfl

theorem draft_eq_ok_iff {ms : List (Text × Value)} {d : Draft} :
    draft ms = .ok d ↔ Picked (Value.find? ms) d := by
  constructor
  · intro h
    obtain ⟨contract, hcontract, h⟩ := bind_eq_ok.mp h
    obtain ⟨user, huser, h⟩ := bind_eq_ok.mp h
    obtain ⟨minBlock, hminBlock, h⟩ := bind_eq_ok.mp h
    obtain ⟨maxBlock, hmaxBlock, h⟩ := bind_eq_ok.mp h
    obtain ⟨blockHash, hblockHash, h⟩ := bind_eq_ok.mp h
    obtain ⟨identifier, hidentifier, h⟩ := bind_eq_ok.mp h
    cases h
    exact ⟨find?_of_need hcontract, find?_of_need huser, rfl, find?_of_need hminBlock,
      find?_of_need hmaxBlock, find?_of_need hblockHash, rfl, find?_of_need hidentifier⟩
  · intro h
    simp only [draft, h.contract, h.user, h.client, h.minBlock, h.maxBlock, h.blockHash,
      h.rewardsRate, h.identifier, ok_bind]
    rfl

theorem check_eq_ok [Address.CaseRule] {d : Draft} {q : Query} :
    d.check = .ok q ↔
      Member.address "contract_address" d.contract = .ok q.contract ∧
      Member.address "user_address" d.user = .ok q.user ∧
      Member.address "client_address" d.client = .ok q.client ∧
      block "min_block_number" d.minBlock = .ok q.minBlock ∧
      block "max_block_number" d.maxBlock = .ok q.maxBlock ∧
      wide "block_hash" d.blockHash = .ok q.blockHash ∧
      wide "rewards_rate" d.rewardsRate = .ok q.rewardsRate ∧
      wide "identifier" (resolveTag d.identifier) = .ok q.identifier := by
  constructor
  · intro h
    obtain ⟨contract, hcontract, h⟩ := bind_eq_ok.mp h
    obtain ⟨user, huser, h⟩ := bind_eq_ok.mp h
    obtain ⟨client, hclient, h⟩ := bind_eq_ok.mp h
    obtain ⟨minBlock, hminBlock, h⟩ := bind_eq_ok.mp h
    obtain ⟨maxBlock, hmaxBlock, h⟩ := bind_eq_ok.mp h
    obtain ⟨blockHash, hblockHash, h⟩ := bind_eq_ok.mp h
    obtain ⟨rewardsRate, hrewardsRate, h⟩ := bind_eq_ok.mp h
    obtain ⟨identifier, hidentifier, h⟩ := bind_eq_ok.mp h
    cases h
    exact ⟨hcontract, huser, hclient, hminBlock, hmaxBlock, hblockHash, hrewardsRate, hidentifier⟩
  · rintro ⟨contract, user, client, minBlock, maxBlock, blockHash, rewardsRate, identifier⟩
    simp only [Draft.check, contract, user, client, minBlock, maxBlock, blockHash, rewardsRate,
      identifier, ok_bind]
    rfl

end Query

namespace Loading

variable [Address.CaseRule]

/-- What a query is once each of its members is checked. A client that is named nowhere is the user,
and a rate that is named nowhere is zero. -/
structure Asked (take : Text → Option Value) (q : Query) : Prop where
  contract : ∃ v, take "contract_address" = some v ∧
    Address.validate "contract_address" v = .ok q.contract
  user : ∃ v, take "user_address" = some v ∧ Address.validate "user_address" v = .ok q.user
  client : match take "client_address" with
    | some v => Address.validate "client_address" v = .ok q.client
    | none => q.client = q.user
  minBlock : ∃ v, take "min_block_number" = some v ∧
    Query.block "min_block_number" v = .ok q.minBlock
  maxBlock : ∃ v, take "max_block_number" = some v ∧
    Query.block "max_block_number" v = .ok q.maxBlock
  blockHash : ∃ v, take "block_hash" = some v ∧ Query.wide "block_hash" v = .ok q.blockHash
  rewardsRate : match take "rewards_rate" with
    | some v => Query.wide "rewards_rate" v = .ok q.rewardsRate
    | none => q.rewardsRate = 0
  identifier : ∃ v t, take "identifier" = some v ∧ Tag.validate (.text v.bare) = .ok t ∧
    q.identifier = BitVec.ofNat 256 t.code

/-- The checks, once the origins lie over each other. -/
def finish (ms : List (Text × Value)) : Except Failure Query := do
  let ms ← checkAddresses ms addressNames
  let ms ← checkTag ms
  Query.ofMembers ms

theorem query_eq (d : Folder) (captured : List (Text × Value)) (file : Option Text)
    (given : List (Text × Value)) :
    query d captured file given = (fileMembers d file >>= fun news =>
      finish (given.foldl (fun ms m => Value.put ms m.1 m.2)
        (news.foldl (fun ms m => Value.put ms m.1 m.2) captured))) := by
  unfold query fileMembers
  cases file with
  | none => rfl
  | some path =>
    by_cases none : path.isEmpty = true
    · simp only [none, if_true]
      rfl
    · simp only [none, Bool.false_eq_true, if_false]
      cases json d path with
      | error e => rfl
      | ok v =>
        simp only [ok_bind, overlay_eq]
        cases namedIn v <;> rfl

omit [Address.CaseRule] in
theorem nodup_addressNames : addressNames.Nodup := by decide

omit [Address.CaseRule] in
theorem wide_code (t : Tag) :
    Query.wide "identifier" (Query.resolveTag (.int t.code)) = .ok (BitVec.ofNat 256 t.code) := by
  cases t <;> rfl

omit [Address.CaseRule] in
theorem find?_tagged {checked : List (Text × Value)} {v : Value} {name : Text}
    (other : name ≠ "identifier") :
    Value.find? (Value.put checked "identifier" v) name = Value.find? checked name := by
  rw [Value.find?_put, if_neg other]

/-- Members that are neither addresses nor the tag stay as they were given. -/
theorem Checks.tagged {ms checked : List (Text × Value)} (checks : Checks addressNames ms checked)
    {v : Value} {name : Text} (other : name ≠ "identifier") (outside : name ∉ addressNames) :
    Value.find? (Value.put checked "identifier" v) name = Value.find? ms name := by
  rw [find?_tagged other, checks.others name outside]

/-- An address in the query was checked as a member of that name. -/
theorem Checks.address {ms checked : List (Text × Value)} (checks : Checks addressNames ms checked)
    {name : Text} (inside : name ∈ addressNames) {other : String} {w : Value} {a : Address}
    (found : Value.find? checked name = some w) (fits : Member.address other w = .ok a) :
    ∃ v, Value.find? ms name = some v ∧ Address.validate name v = .ok a := by
  obtain ⟨v, b, held, valid, rfl⟩ := checks.origin inside found
  rw [Member.address_checksum] at fits
  cases fits
  exact ⟨v, held, valid⟩

/-- Once the addresses are checked, the tag is all that the query's reader does not see as given. -/
theorem finish_of_checks {ms checked : List (Text × Value)}
    (run : checkAddresses ms addressNames = .ok checked) (checks : Checks addressNames ms checked)
    {v : Value} {t : Tag} (named : Value.find? ms "identifier" = some v)
    (valid : Tag.validate (.text v.bare) = .ok t) :
    finish ms = Query.ofMembers (Value.put checked "identifier" (.int t.code)) := by
  have kept : Value.find? checked "identifier" = some v := by
    rw [checks.others _ (by decide), named]
  rw [finish, run, ok_bind, checkTag, kept]
  simp only [valid, ok_bind]
  rfl

/-- A query comes out only behind checked addresses and a tag. -/
theorem checks_of_finish {ms : List (Text × Value)} {q : Query} (run : finish ms = .ok q) :
    ∃ checked v t, Checks addressNames ms checked ∧ Value.find? ms "identifier" = some v ∧
      Tag.validate (.text v.bare) = .ok t ∧
      Query.ofMembers (Value.put checked "identifier" (.int t.code)) = .ok q := by
  rcases checkAddresses_spec nodup_addressNames ms with
    ⟨checked, addresses, checks⟩ | ⟨⟨e, failed⟩, _⟩
  case inr =>
    rw [finish, failed] at run
    cases run
  have kept : Value.find? checked "identifier" = Value.find? ms "identifier" :=
    checks.others _ (by decide)
  cases named : Value.find? ms "identifier" with
  | none =>
    rw [named] at kept
    rw [finish, addresses, ok_bind, checkTag, kept] at run
    simp only [ok_bind] at run
    obtain ⟨d, drafted, _⟩ := bind_eq_ok.mp run
    cases kept.symm.trans (Query.draft_eq_ok_iff.mp drafted).identifier
  | some v =>
    cases valid : Tag.validate (.text v.bare) with
    | error e =>
      rw [named] at kept
      rw [finish, addresses, ok_bind, checkTag, kept] at run
      simp only [valid, error_bind] at run
      cases run
    | ok t =>
      rw [finish_of_checks addresses checks named valid] at run
      exact ⟨checked, v, t, checks, rfl, valid, run⟩

theorem asked_of_finish {ms : List (Text × Value)} {q : Query} (run : finish ms = .ok q) :
    Asked (Value.find? ms) q := by
  obtain ⟨checked, v, t, checks, named, valid, run⟩ := checks_of_finish run
  obtain ⟨d, drafted, run⟩ := bind_eq_ok.mp run
  obtain ⟨hcontract, huser, hclient, hmin, hmax, hhash, hrate, hidentifier⟩ :=
    Query.check_eq_ok.mp run
  have picked := Query.draft_eq_ok_iff.mp drafted
  have hasContract : Value.find? checked "contract_address" = some d.contract :=
    (find?_tagged (by decide)).symm.trans picked.contract
  have hasUser : Value.find? checked "user_address" = some d.user :=
    (find?_tagged (by decide)).symm.trans picked.user
  have other {name : Text} (tag : name ≠ "identifier") (outside : name ∉ addressNames) {v : Value}
      (held : Value.find? (Value.put checked "identifier" (.int t.code)) name = some v) :
      Value.find? ms name = some v := (checks.tagged tag outside).symm.trans held
  refine
    { contract := checks.address (by decide) hasContract hcontract
      user := checks.address (by decide) hasUser huser
      client := ?client
      minBlock := ⟨_, other (by decide) (by decide) picked.minBlock, hmin⟩
      maxBlock := ⟨_, other (by decide) (by decide) picked.maxBlock, hmax⟩
      blockHash := ⟨_, other (by decide) (by decide) picked.blockHash, hhash⟩
      rewardsRate := ?rate
      identifier := ⟨v, t, named, valid, ?tag⟩ }
  case client =>
    have client : ("client_address" : Text) ∈ addressNames := by decide
    have taken := picked.client
    rw [find?_tagged (by decide)] at taken
    cases there : Value.find? ms "client_address" with
    | none =>
      rw [checks.absent _ client there] at taken
      -- A client that is named nowhere is read from the text of the user.
      obtain ⟨_, b, _, _, same⟩ := checks.origin (by decide) hasUser
      rw [← taken, Option.getD_none, same, Member.address_checksum] at hclient
      rw [same, Member.address_checksum] at huser
      exact Except.ok.inj (hclient.symm.trans huser)
    | some w =>
      obtain ⟨a, fine, found⟩ := checks.held _ client w there
      rw [found, Option.getD_some] at taken
      rw [← taken, Member.address_checksum] at hclient
      exact Except.ok.inj hclient ▸ fine
  case rate =>
    have taken := picked.rewardsRate
    rw [checks.tagged (by decide) (by decide)] at taken
    cases there : Value.find? ms "rewards_rate" with
    | none =>
      rw [there, Option.getD_none] at taken
      rw [← taken] at hrate
      exact (Except.ok.inj hrate).symm
    | some w =>
      rw [there, Option.getD_some] at taken
      exact taken ▸ hrate
  case tag =>
    have taken := picked.identifier
    rw [Value.find?_put, if_pos rfl] at taken
    rw [← Option.some.inj taken, wide_code] at hidentifier
    exact (Except.ok.inj hidentifier).symm

/-- A query that is asked for has no member that is none of its kind. -/
theorem Asked.fit {ms : List (Text × Value)} {q : Query} (asked : Asked (Value.find? ms) q) :
    ¬ Unfit addressNames ms := by
  rintro ⟨name, inside, v, held, unfit⟩
  simp only [addressNames, List.mem_cons, List.not_mem_nil, or_false] at inside
  rcases inside with rfl | rfl | rfl
  · obtain ⟨w, found, valid⟩ := asked.contract
    obtain rfl := Option.some.inj (held.symm.trans found)
    exact unfit _ valid
  · obtain ⟨w, found, valid⟩ := asked.user
    obtain rfl := Option.some.inj (held.symm.trans found)
    exact unfit _ valid
  · have valid := asked.client
    rw [held] at valid
    exact unfit _ valid

theorem finish_of_asked {ms : List (Text × Value)} {q : Query} (asked : Asked (Value.find? ms) q) :
    finish ms = .ok q := by
  rcases checkAddresses_spec nodup_addressNames ms with
    ⟨checked, addresses, checks⟩ | ⟨_, unfit⟩
  case inr => exact absurd unfit asked.fit
  obtain ⟨v, t, named, valid, tag⟩ := asked.identifier
  rw [finish_of_checks addresses checks named valid]
  obtain ⟨contract, hasContract, contractFits⟩ := asked.contract
  obtain ⟨user, hasUser, userFits⟩ := asked.user
  obtain ⟨least, hasLeast, leastFits⟩ := asked.minBlock
  obtain ⟨most, hasMost, mostFits⟩ := asked.maxBlock
  obtain ⟨hash, hasHash, hashFits⟩ := asked.blockHash
  have picked : Query.Picked (Value.find? (Value.put checked "identifier" (.int t.code)))
      { contract := .text q.contract.checksum
        user := .text q.user.checksum
        client := .text q.client.checksum
        minBlock := least
        maxBlock := most
        blockHash := hash
        rewardsRate := (Value.find? ms "rewards_rate").getD (.int 0)
        identifier := .int t.code } := by
    refine
      { contract :=
          (find?_tagged (by decide)).trans (checks.found (by decide) hasContract contractFits)
        user := (find?_tagged (by decide)).trans (checks.found (by decide) hasUser userFits)
        client := ?client
        minBlock := (checks.tagged (by decide) (by decide)).trans hasLeast
        maxBlock := (checks.tagged (by decide) (by decide)).trans hasMost
        blockHash := (checks.tagged (by decide) (by decide)).trans hasHash
        rewardsRate := by rw [checks.tagged (by decide) (by decide)]
        identifier := by rw [Value.find?_put, if_pos rfl] }
    have fits := asked.client
    rw [find?_tagged (by decide)]
    cases there : Value.find? ms "client_address" with
    | none =>
      rw [there] at fits
      rw [checks.absent _ (by decide) there, Option.getD_none, fits]
    | some w =>
      rw [there] at fits
      rw [checks.found (by decide) there fits, Option.getD_some]
  have rate : Query.wide "rewards_rate" ((Value.find? ms "rewards_rate").getD (.int 0)) =
      .ok q.rewardsRate := by
    have fits := asked.rewardsRate
    cases there : Value.find? ms "rewards_rate" with
    | none =>
      rw [there] at fits
      rw [fits]
      rfl
    | some w =>
      rw [there] at fits
      exact fits
  rw [Query.ofMembers, Query.draft_eq_ok_iff.mpr picked, ok_bind, Query.check_eq_ok]
  exact ⟨Member.address_checksum _ _, Member.address_checksum _ _, Member.address_checksum _ _,
    leastFits, mostFits, hashFits, rate, tag ▸ wide_code t⟩

omit [Address.CaseRule] in
theorem find?_merged (given news captured : List (Text × Value)) :
    Value.find? (given.foldl (fun ms m => Value.put ms m.1 m.2)
      (news.foldl (fun ms m => Value.put ms m.1 m.2) captured)) = origin given news captured := by
  funext name
  rw [Value.find?_foldl_put, Value.find?_foldl_put, origin]

/-- **Queries.** A query is put together exactly if the file can be read and every member, taken
from the first of its origins that names it, passes its check; then these are its members. -/
theorem query_eq_ok_iff {d : Folder} {captured : List (Text × Value)} {file : Option Text}
    {given : List (Text × Value)} {q : Query} :
    query d captured file given = .ok q ↔
      ∃ news, fileMembers d file = .ok news ∧ Asked (origin given news captured) q := by
  rw [query_eq, bind_eq_ok]
  constructor
  · rintro ⟨news, read, run⟩
    exact ⟨news, read, find?_merged given news captured ▸ asked_of_finish run⟩
  · rintro ⟨news, read, asked⟩
    rw [← find?_merged] at asked
    exact ⟨news, read, finish_of_asked asked⟩

/-- One address that is none is told, whatever the other members are. -/
theorem query_of_unfit {d : Folder} {captured news : List (Text × Value)} {file : Option Text}
    {given : List (Text × Value)} {name : Text} {v : Value}
    (read : fileMembers d file = .ok news) (inside : name ∈ addressNames)
    (held : origin given news captured name = some v)
    (unfit : ∀ a, Address.validate name v ≠ .ok a) :
    ∃ e, query d captured file given = .error e ∧ e.kind = .value := by
  rw [query_eq, read, ok_bind, finish]
  rw [← find?_merged] at held
  rcases checkAddresses_spec nodup_addressNames _ with ⟨_, _, checks⟩ | ⟨⟨e, failed⟩, _⟩
  · obtain ⟨a, valid, _⟩ := checks.held name inside v held
    exact absurd valid (unfit a)
  · exact ⟨e, by rw [failed, error_bind], tells_checkAddresses _ _ e failed⟩

end Loading

end ProofGate
