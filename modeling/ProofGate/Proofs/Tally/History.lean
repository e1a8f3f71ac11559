import ProofGate.Proofs.Literal.Grammar
import ProofGate.Proofs.Tally

/-!
# Tallies over a history

A tally is kept while bundles are accepted and rejected one after the other. What it holds in the end
is what its history says: how many were accepted, in all and under each identifier, what they were
released, how many were rejected and with which findings. Nothing is lost when the counts are put
under the texts of their keys, and another order of the same history leaves all counts as they are.
-/

namespace ProofGate

/-! ## Keys -/

namespace Value

theorem denotes_bare_int (n : ℤ) : Literal.Denotes .detected (Value.int n).bare.chars n :=
  Literal.denotes_ofInt n

/-- The text of a truth value is no literal, for that begins with a decimal figure or a sign. -/
theorem not_denotes_bare_bool (b : Bool) (n : ℤ) :
    ¬ Literal.Denotes .detected (Value.bool b).bare.chars n := by
  intro denotes
  cases b <;> cases denotes with
  | bare magnitude =>
    obtain ⟨_, _, _, ⟨⟩, ⟨⟩, small⟩ := magnitude.head
    exact absurd small (by decide)

/-- Numbers with the same text are the same key. -/
theorem sameKey_of_bare {v w : Value} {m n : ℤ} (hv : v.count? = some m) (hw : w.count? = some n)
    (same : v.bare = w.bare) : v.sameKey w = true := by
  have word (b : Bool) (n : ℤ) : (Value.bool b).bare ≠ (Value.int n).bare := fun same =>
    not_denotes_bare_bool b n (same ▸ denotes_bare_int n)
  cases v with
  | int m =>
    cases w with
    | int n =>
      have numbers := denotes_bare_int m
      rw [same] at numbers
      rw [sameKey_int, beq_iff_eq]
      exact Literal.denotes_unique numbers (denotes_bare_int n)
    | bool b => exact absurd same.symm (word b m)
    | null | float | text | bytes | list | object => cases hw
  | bool b =>
    cases w with
    | int n => exact absurd same (word b n)
    | bool c =>
      have words : ∀ b c, (Value.bool b).bare = (Value.bool c).bare → b = c := by decide
      rw [words b c same, sameKey_of_count rfl, beq_iff_eq]
      rfl
    | null | float | text | bytes | list | object => cases hw
  | null | float | text | bytes | list | object => cases hv

end Value

namespace Tally

variable {counts : List (Value × ℕ)}

/-! ## Counts under texts -/

/-- Counts under the texts of their keys, of which none is lost. -/
structure Lossless (counts : List (Value × ℕ)) (ms : List (Text × Value)) : Prop where
  members : ms = counts.map fun c => (c.1.bare, .int c.2)
  names : (ms.map Prod.fst).Nodup
  size : ms.length = counts.length
  sum : (ms.map fun m => m.2.count?.getD 0).sum = counted counts

theorem sum_counts (counts : List (Value × ℕ)) :
    ((counts.map fun c => ((c.1.bare, .int c.2) : Text × Value)).map fun m =>
      m.2.count?.getD 0).sum = counted counts := by
  induction counts with
  | nil => rfl
  | cons c counts ih =>
    obtain ⟨k, n⟩ := c
    rw [List.map_cons, List.map_cons, List.sum_cons, ih, counted]
    exact (Nat.cast_add n _).symm

/-- Nothing is lost if keys with the same text are the same key. -/
theorem lossless (apart : Apart counts) (texts : ∀ c ∈ counts, ∀ d ∈ counts,
    c.1.bare = d.1.bare → c.1.sameKey d.1 = true) :
    ∃ ms, countsValue counts = .object ms ∧ Lossless counts ms := by
  have distinct : (counts.map fun c => c.1.bare).Nodup := by
    rw [List.Nodup, List.pairwise_map]
    exact apart.imp_of_mem fun hc hd other same => other (texts _ hc _ hd same)
  have names : ((counts.map fun c => ((c.1.bare, .int c.2) : Text × Value)).map Prod.fst).Nodup := by
    rw [List.map_map]
    exact distinct
  have members := @Value.foldl_put [] _ names
  rw [List.foldl_map, List.nil_append] at members
  exact ⟨_, congrArg Value.object members, rfl, names, List.length_map .., sum_counts counts⟩

theorem toValue_eq {t : Tally} {grounds : List (Value × ℕ)} (reasons : t.reasons = .ok grounds) :
    ∃ ms cs, t.toValue = .ok (.object ms) ∧ Value.find? ms "counts" = some (.object cs) ∧
      Value.find? cs "accepted_by_identifier" = some (countsValue t.byIdentifier) ∧
      Value.find? ms "rejection_reasons" = some (countsValue grounds) := by
  rw [toValue, reasons]
  exact ⟨_, _, rfl, rfl, rfl, rfl⟩

/-! ## Histories -/

/-- What is recorded: a bundle that was accepted, with its identifier, its label and the values
released, or the report of one that was rejected. -/
inductive Booking (α : Type) where
  | success (identifier label values : Value)
  | failure (report : Report α)

variable {α : Type}

namespace Booking

def identifier? : Booking α → Option Value
  | success identifier _ _ => some identifier
  | failure _ => none

def result? : Booking α → Option (Value × Value)
  | success _ label values => some (label, values)
  | failure _ => none

def report? : Booking α → Option (Report α)
  | success _ _ _ => none
  | failure report => some report

end Booking

def post (t : Tally) : Booking α → Except Failure Tally
  | .success identifier label values => t.record identifier label values
  | .failure report => .ok (t.reject report.findings)

/-- The history of a tally, recorded from its beginning to its end. -/
def run (t : Tally) (history : List (Booking α)) : Except Failure Tally :=
  history.foldlM post t

def identifiers (history : List (Booking α)) : List Value :=
  history.filterMap Booking.identifier?

def reports (history : List (Booking α)) : List (Report α) :=
  history.filterMap Booking.report?

def found (history : List (Booking α)) : List Finding :=
  (reports history).flatMap Report.findings

/-- The tally that a history should leave. -/
def booked (history : List (Booking α)) : Tally where
  accepted := (identifiers history).length
  rejected := (reports history).length
  byIdentifier := (identifiers history).foldl count []
  findings := found history
  results := history.filterMap Booking.result?

variable {history : List (Booking α)}

/-- One more record leaves what the longer history should. -/
theorem post_booked {b : Booking α} (key : ∀ i ∈ b.identifier?, i.canBeKey = true) :
    post (booked history) b = .ok (booked (history ++ [b])) := by
  cases b with
  | success identifier label values =>
    rw [post, record, if_pos (key _ rfl)]
    simp [accept, booked, identifiers, reports, found, Booking.identifier?, Booking.report?,
      Booking.result?]
  | failure report =>
    simp [post, reject, booked, identifiers, reports, found, List.filterMap_cons,
      Booking.identifier?, Booking.report?, Booking.result?]

theorem run_eq_booked (keys : ∀ i ∈ identifiers history, i.canBeKey = true) :
    run empty history = .ok (booked history) := by
  induction history using List.reverseRecOn with
  | nil => rfl
  | append_singleton history b ih =>
    rw [identifiers, List.filterMap_append, List.forall_mem_append] at keys
    have key : ∀ i ∈ b.identifier?, i.canBeKey = true := fun i hi =>
      keys.2 i (List.mem_filterMap.mpr ⟨b, List.mem_cons_self, hi⟩)
    rw [run, List.foldlM_append]
    show (run empty history >>= fun t => List.foldlM post t [b]) = _
    rw [ih keys.1, ok_bind, List.foldlM_cons, post_booked key]
    rfl

/-! ## Reasons -/

/-- The findings that are counted as reasons. -/
def grave (history : List (Booking α)) : List Finding :=
  (found history).filter fun f => f.severity != .warning

/-- Whether a finding counts under a name: the kind of its failure or, without one, its source. -/
def goesUnder (name : Text) (f : Finding) : Bool :=
  match f.cause with
  | some e => Text.ofString e.kind.name == name
  | none => f.source.text? == some name

/-- Histories in which identifiers are integers and the sources of findings texts. -/
structure Orderly (history : List (Booking α)) : Prop where
  integers : ∀ i ∈ identifiers history, ∃ n, i.count? = some n
  texts : ∀ f ∈ found history, ∃ s, f.source = .text s

theorem heading_text {f : Finding} (source : ∃ s, f.source = .text s) :
    ∃ s, f.heading = .text s ∧ ∀ name, goesUnder name f = (s == name) := by
  obtain ⟨s, source⟩ := source
  cases cause : f.cause with
  | none =>
    refine ⟨s, ?_, fun name => ?_⟩
    · rw [Finding.heading, Finding.reason?, cause, source]
      rfl
    · rw [goesUnder, cause, source]
      rfl
  | some e =>
    refine ⟨e.kind.name, ?_, fun name => ?_⟩
    · rw [Finding.heading, Finding.reason?, cause]
      rfl
    · rw [goesUnder, cause]

theorem heading_of_orderly (orderly : Orderly history) :
    ∀ f ∈ grave history, ∃ s, f.heading = .text s ∧ ∀ name, goesUnder name f = (s == name) :=
  fun f hf => heading_text (orderly.texts f (List.mem_filter.mp hf).1)

/-- The reasons of a history. -/
def headings (history : List (Booking α)) : List Value :=
  (grave history).map Finding.heading

theorem text_of_heading (orderly : Orderly history) :
    ∀ key ∈ headings history, ∃ s, key = .text s := by
  intro key hkey
  obtain ⟨f, hf, rfl⟩ := List.mem_map.mp hkey
  obtain ⟨s, heading, _⟩ := heading_of_orderly orderly f hf
  exact ⟨s, heading⟩

theorem reasons_booked (orderly : Orderly history) :
    (booked history).reasons = .ok ((headings history).foldl count []) := by
  refine reasonsFrom_eq (fun f hf => ?_) []
  obtain ⟨s, heading, _⟩ := heading_of_orderly orderly f hf
  rw [heading]
  trivial

theorem countP_headings (orderly : Orderly history) (name : Text) :
    (headings history).countP (fun key => key.sameKey (.text name)) =
      (grave history).countP (goesUnder name) := by
  rw [headings, List.countP_map]
  refine List.countP_congr fun f hf => ?_
  obtain ⟨s, heading, under⟩ := heading_of_orderly orderly f hf
  rw [Function.comp_apply, heading, under, Value.sameKey_text]

theorem discrete_identifiers (orderly : Orderly history) :
    ∀ i ∈ identifiers history, i.Discrete := by
  intro i hi
  obtain ⟨n, count⟩ := orderly.integers i hi
  exact Value.discrete_of_count count

theorem discrete_headings (orderly : Orderly history) :
    ∀ key ∈ headings history, key.Discrete := by
  intro key hkey
  obtain ⟨s, rfl⟩ := text_of_heading orderly key hkey
  trivial

/-! ## Counts under texts -/

theorem lossless_identifiers (orderly : Orderly history) :
    ∃ ms, countsValue ((identifiers history).foldl count []) = .object ms ∧
      Lossless ((identifiers history).foldl count []) ms := by
  have number : ∀ c ∈ (identifiers history).foldl count [], ∃ n, c.1.count? = some n := by
    intro c hc
    rcases mem_keys_foldl (List.mem_map_of_mem hc) with old | key
    · cases old
    · exact orderly.integers _ key
  refine lossless (apart_foldl _) fun c hc d hd same => ?_
  obtain ⟨m, hm⟩ := number c hc
  obtain ⟨n, hn⟩ := number d hd
  exact Value.sameKey_of_bare hm hn same

theorem lossless_headings (orderly : Orderly history) :
    ∃ ms, countsValue ((headings history).foldl count []) = .object ms ∧
      Lossless ((headings history).foldl count []) ms := by
  have text : ∀ c ∈ (headings history).foldl count [], ∃ s, c.1 = .text s := by
    intro c hc
    rcases mem_keys_foldl (List.mem_map_of_mem hc) with old | key
    · cases old
    · exact text_of_heading orderly _ key
  refine lossless (apart_foldl _) fun c hc d hd same => ?_
  obtain ⟨s, hs⟩ := text c hc
  obtain ⟨t, ht⟩ := text d hd
  rw [hs, ht] at same ⊢
  rw [Value.sameKey_text, beq_iff_eq]
  exact same

/-! ## Consistency -/

/-- A tally with its reasons that says what a history does. -/
structure Consistent (history : List (Booking α)) (t : Tally) (grounds : List (Value × ℕ)) :
    Prop where
  accepted : t.accepted = history.countP fun b => b.identifier?.isSome
  results : t.results = history.filterMap Booking.result?
  released : t.results.length = t.accepted
  summed : counted t.byIdentifier = t.accepted
  counts : ∀ n : ℤ, under t.byIdentifier (.int n) =
    (identifiers history).countP fun i => i.count? == some n
  rejected : t.rejected = history.countP fun b => b.report?.isSome
  findings : t.findings = found history
  reasoned : counted grounds = (grave history).length
  reasons : ∀ name : Text, under grounds (.text name) = (grave history).countP (goesUnder name)
  /-- The document of the tally has both maps under texts. -/
  shown : ∃ ms counts identifiers named, t.toValue = .ok (.object ms) ∧
    Value.find? ms "counts" = some (.object counts) ∧
    Value.find? counts "accepted_by_identifier" = some (.object identifiers) ∧
    Value.find? ms "rejection_reasons" = some (.object named) ∧
    Lossless t.byIdentifier identifiers ∧ Lossless grounds named

theorem length_filterMap {β γ : Type} (f : β → Option γ) (bs : List β) :
    (bs.filterMap f).length = bs.countP fun b => (f b).isSome := by
  induction bs with
  | nil => rfl
  | cons b bs ih =>
    rw [List.countP_cons, ← ih, List.filterMap_cons]
    cases f b <;> simp

/-- Every success has an identifier and a result. -/
theorem length_results (history : List (Booking α)) :
    (history.filterMap Booking.result?).length = (identifiers history).length := by
  rw [identifiers, length_filterMap, length_filterMap]
  refine List.countP_congr fun b _ => ?_
  cases b <;> rfl

theorem consistent_booked (orderly : Orderly history) :
    Consistent history (booked history) ((headings history).foldl count []) where
  accepted := length_filterMap _ _
  results := rfl
  released := length_results history
  summed := by
    show counted ((identifiers history).foldl count []) = (identifiers history).length
    rw [counted_foldl]
    exact Nat.zero_add _
  counts n := by
    show under ((identifiers history).foldl count []) (.int n) = _
    rw [under_foldl (discrete_identifiers orderly)]
    refine List.countP_congr fun i hi => ?_
    obtain ⟨m, integer⟩ := orderly.integers i hi
    rw [Value.sameKey_of_count integer, integer, beq_iff_eq, beq_iff_eq]
    exact eq_comm
  rejected := length_filterMap _ _
  findings := rfl
  reasoned := by
    rw [counted_foldl, headings, List.length_map]
    exact Nat.zero_add _
  reasons name := by
    rw [under_foldl (discrete_headings orderly), countP_headings orderly]
  shown := by
    obtain ⟨identifiers, byIdentifier, keptIdentifiers⟩ := lossless_identifiers orderly
    obtain ⟨named, byReason, keptReasons⟩ := lossless_headings orderly
    obtain ⟨ms, counts, document, foundCounts, foundIdentifiers, foundReasons⟩ :=
      toValue_eq (reasons_booked orderly)
    refine ⟨ms, counts, identifiers, named, document, foundCounts, ?_, ?_, keptIdentifiers,
      keptReasons⟩
    · rw [foundIdentifiers]
      exact congrArg some byIdentifier
    · rw [foundReasons, byReason]

/-! ## Order -/

theorem Orderly.perm {history' : List (Booking α)} (orderly : Orderly history)
    (perm : history'.Perm history) : Orderly history' where
  integers i hi := orderly.integers i ((perm.filterMap _).mem_iff.mp hi)
  texts f hf := orderly.texts f (((perm.filterMap _).flatMap_right _).mem_iff.mp hf)

/-- **Tallies kept.** Whatever is recorded in an empty tally, its counts are those of the history, the
findings are those that were reported, one after the other, and the reasons are the kinds of those
above a warning. In another order the same records leave the same counts under the same keys. -/
theorem run_consistent (orderly : Orderly history) :
    ∃ t grounds, run empty history = .ok t ∧ t.reasons = .ok grounds ∧
      Consistent history t grounds ∧
      ∀ history' : List (Booking α), history'.Perm history →
        ∃ t' grounds', run empty history' = .ok t' ∧ t'.reasons = .ok grounds' ∧
          t'.accepted = t.accepted ∧ t'.rejected = t.rejected ∧
          t'.results.Perm t.results ∧ t'.findings.Perm t.findings ∧
          (∀ key, value? t'.byIdentifier key = value? t.byIdentifier key) ∧
          ∀ key, value? grounds' key = value? grounds key := by
  have left {history : List (Booking α)} (orderly : Orderly history) :
      run empty history = .ok (booked history) :=
    run_eq_booked fun i hi => (discrete_identifiers orderly i hi).canBeKey
  refine ⟨_, _, left orderly, reasons_booked orderly, consistent_booked orderly, ?_⟩
  intro history' perm
  have identifiers : (identifiers history').Perm (identifiers history) := perm.filterMap _
  have reports : (reports history').Perm (reports history) := perm.filterMap _
  have found : (found history').Perm (found history) := reports.flatMap_right _
  have headings : (headings history').Perm (headings history) := (found.filter _).map _
  refine ⟨_, _, left (orderly.perm perm), reasons_booked (orderly.perm perm), identifiers.length_eq,
    reports.length_eq, perm.filterMap _, found, ?_, ?_⟩
  · exact value?_foldl_perm identifiers (discrete_identifiers orderly)
  · exact value?_foldl_perm headings (discrete_headings orderly)

namespace Sample

def warned : Finding :=
  ⟨.text "registry", .text "slow", .warning, .object [], none⟩

def unnamed : Finding :=
  ⟨.text "registry", .text "absent", .error, .object [], none⟩

def refused : Finding :=
  ⟨.text "extractor", .text "unsupported", .error, .object [], some (.unsupportedTag (.int 5))⟩

/-- Two bundles of one tag are accepted, and two are rejected, one of them without findings. -/
def records : List (Booking Value) :=
  [.success (.int 67) (.text "first") (.list [.int 1]), .failure ⟨false, none, [warned, refused]⟩,
    .failure ⟨false, none, []⟩, .success (.int 67) (.text "second") (.list []),
    .failure ⟨true, some .null, [unnamed]⟩]

theorem orderly : Orderly records where
  integers := by
    intro i hi
    rcases List.mem_cons.mp hi with rfl | hi
    · exact ⟨67, rfl⟩
    · obtain rfl := List.mem_singleton.mp hi
      exact ⟨67, rfl⟩
  texts := by
    intro f hf
    have three : (f = warned ∨ f = refused) ∨ f = unnamed := by
      simpa [found, reports, records, Booking.report?] using hf
    rcases three with (rfl | rfl) | rfl
    · exact ⟨_, rfl⟩
    · exact ⟨_, rfl⟩
    · exact ⟨_, rfl⟩

end Sample

/-- Three rejections leave three findings, of which two count as reasons. -/
theorem run_consistent_sample :
    ∃ t grounds, run empty Sample.records = .ok t ∧ t.reasons = .ok grounds ∧ t.accepted = 2 ∧
      under t.byIdentifier (.int 67) = 2 ∧ t.rejected = 3 ∧ t.findings.length = 3 ∧
      counted grounds = 2 ∧ under grounds (.text "UnsupportedIdentifier") = 1 ∧
      under grounds (.text "registry") = 1 ∧
      ∃ t', run empty Sample.records.reverse = .ok t' ∧ t'.accepted = 2 ∧
        ∀ key, value? t'.byIdentifier key = value? t.byIdentifier key := by
  obtain ⟨t, grounds, ran, reasons, consistent, perm⟩ := run_consistent Sample.orderly
  obtain ⟨t', _, again, _, accepted, _, _, _, same, _⟩ := perm _ (List.reverse_perm _)
  have two : t.accepted = 2 := consistent.accepted
  refine ⟨t, grounds, ran, reasons, two, consistent.counts 67, consistent.rejected, ?_,
    consistent.reasoned, consistent.reasons "UnsupportedIdentifier", consistent.reasons "registry",
    t', again, accepted.trans two, same⟩
  rw [consistent.findings]
  rfl

end Tally

end ProofGate
