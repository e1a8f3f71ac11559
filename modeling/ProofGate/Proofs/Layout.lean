import ProofGate.Layout
import ProofGate.Proofs.Run
import Mathlib.Data.List.Pairwise
import Mathlib.Data.List.TakeWhile
import Mathlib.Tactic.Common

/-!
# Spans side by side

What the check of a plan is worth. Spans that follow each other in the order of their offsets lie
apart from each other and inside the whole, whatever that order is; a regular layout has for each
field as many elements as the field has digits. Fields back to back pass the check for any number
of ids.
-/

namespace ProofGate

/-! ## Spans in the order of their offsets -/

namespace Span

theorem stop_eq (s : Span) : s.stop = s.offset + s.digits * 8 := rfl

/-- One span has ended where the other begins. -/
def Apart (s t : Span) : Prop :=
  s.stop ≤ t.offset ∨ t.stop ≤ s.offset

end Span

namespace Plan

theorem place_perm (sorted : List Span) (s : Span) : (place sorted s).Perm (s :: sorted) := by
  induction sorted with
  | nil => exact List.Perm.refl _
  | cons t ts ih =>
    rw [place]
    split
    · exact List.Perm.refl _
    · exact (ih.cons t).trans (List.Perm.swap s t ts)

theorem foldl_place_perm (ss sorted : List Span) :
    (ss.foldl place sorted).Perm (ss ++ sorted) := by
  induction ss generalizing sorted with
  | nil => exact List.Perm.refl _
  | cons s ss ih =>
    rw [List.foldl_cons]
    refine (ih (place sorted s)).trans ?_
    exact ((place_perm sorted s).append_left ss).trans List.perm_middle

/-- Sorting keeps the spans. -/
theorem spans_perm (p : Plan) : p.spans.Perm (Field.all.map p.span) := by
  have h := foldl_place_perm (Field.all.map p.span) []
  rwa [List.append_nil] at h

/-- A span that begins behind all others is put at the end. -/
theorem place_last {sorted : List Span} {s : Span} (h : ∀ t ∈ sorted, t.offset ≤ s.offset) :
    place sorted s = sorted ++ [s] := by
  induction sorted with
  | nil => rfl
  | cons t ts ih =>
    rw [List.forall_mem_cons] at h
    rw [place, if_neg (Int.not_lt.mpr h.1), ih h.2, List.cons_append]

theorem foldl_place_sorted {ss sorted : List Span}
    (h : (sorted ++ ss).Pairwise fun s t => s.offset ≤ t.offset) :
    ss.foldl place sorted = sorted ++ ss := by
  induction ss generalizing sorted with
  | nil => simp
  | cons s ss ih =>
    have last : ∀ t ∈ sorted, t.offset ≤ s.offset := fun t ht =>
      (List.pairwise_append.mp h).2.2 t ht s (List.mem_cons_self ..)
    rw [List.append_cons] at h
    rw [List.foldl_cons, place_last last, ih h, List.append_assoc, List.singleton_append]

/-! ## Tiles -/

theorem tile_cons_eq_ok {start stop : Int} {s : Span} {rest : List Span} :
    tile start (s :: rest) = .ok stop ↔ s.offset = start ∧ tile s.stop rest = .ok stop := by
  rw [tile]
  by_cases h : s.offset = start
  · simp [h]
  · simp [h]

/-- Tiles lie between the start and the end. -/
theorem tile_bounds {start stop : Int} {ss : List Span} (digits : ∀ s ∈ ss, 0 ≤ s.digits)
    (h : tile start ss = .ok stop) :
    start ≤ stop ∧ ∀ s ∈ ss, start ≤ s.offset ∧ s.stop ≤ stop := by
  induction ss generalizing start with
  | nil =>
    cases h
    exact ⟨Int.le_refl _, by simp⟩
  | cons s ss ih =>
    rw [List.forall_mem_cons] at digits
    obtain ⟨here, rest⟩ := tile_cons_eq_ok.mp h
    obtain ⟨forward, inside⟩ := ih digits.2 rest
    have size := s.stop_eq
    refine ⟨by omega, ?_⟩
    rw [List.forall_mem_cons]
    refine ⟨⟨by omega, forward⟩, fun t ht => ?_⟩
    obtain ⟨begins, ends⟩ := inside t ht
    exact ⟨by omega, ends⟩

/-- Each tile has ended where a later one begins. -/
theorem tile_pairwise {start stop : Int} {ss : List Span} (digits : ∀ s ∈ ss, 0 ≤ s.digits)
    (h : tile start ss = .ok stop) : ss.Pairwise fun s t => s.stop ≤ t.offset := by
  induction ss generalizing start with
  | nil => exact List.Pairwise.nil
  | cons s ss ih =>
    rw [List.forall_mem_cons] at digits
    obtain ⟨_, rest⟩ := tile_cons_eq_ok.mp h
    rw [List.pairwise_cons]
    refine ⟨fun t ht => ?_, ih digits.2 rest⟩
    exact ((tile_bounds digits.2 rest).2 t ht).1

theorem check_eq_ok_iff {p : Plan} :
    p.check = .ok () ↔ tile 0 p.spans = .ok p.total ∧ p.total = (p.ids + 41) * 8 := by
  rw [check]
  cases h : tile 0 p.spans with
  | error e => simp
  | ok stop =>
    rw [ok_bind]
    by_cases whole : stop = p.total
    · by_cases due : p.total = (p.ids + 41) * 8
      · simp [whole, due, pure, Except.pure]
      · simp [whole, due, throw, throwThe, MonadExceptOf.throw]
    · simp [whole, throw, throwThe, MonadExceptOf.throw]

end Plan

/-! ## Regular layouts -/

theorem Field.mem_all (f : Field) : f ∈ Field.all := by
  cases f <;> decide

theorem Field.nodup_all : Field.all.Nodup := by decide

theorem Field.digits_nonneg {ids : Int} (h : 0 ≤ ids) (f : Field) : 0 ≤ f.digits ids := by
  cases f <;> simp [digits, h]

/-- What holds between any two spans in the order of their offsets holds between any two fields. -/
theorem Plan.fields_pairwise {p : Plan} {R : Span → Span → Prop} (symm : ∀ {s t}, R s t → R t s)
    (h : p.spans.Pairwise R) {f g : Field} (differ : f ≠ g) : R (p.span f) (p.span g) := by
  have all : Field.all.Pairwise fun f g => R (p.span f) (p.span g) :=
    List.pairwise_map.mp ((p.spans_perm.pairwise_iff symm).mp h)
  have symmetric : Std.Symm fun f g => R (p.span f) (p.span g) := ⟨fun _ _ => symm⟩
  exact all.forall (Field.mem_all f) (Field.mem_all g) differ

namespace Layout

theorem check_eq_ok (l : Layout) : l.check = .ok () := by
  have h := l.sound
  cases c : l.check with
  | ok _ => rfl
  | error e =>
    rw [c] at h
    cases h

theorem total_eq (l : Layout) : l.total = (l.ids + 41) * 8 :=
  (Plan.check_eq_ok_iff.mp l.check_eq_ok).2

/-- Where a field begins. -/
def place (l : Layout) (f : Field) : ℕ :=
  (l.span f).offset.toNat

/-- How many bytes a field takes. -/
def room (l : Layout) (f : Field) : ℕ :=
  8 * (f.digits l.ids).toNat

/-- Every field has as many elements as it has digits. -/
structure Regular (l : Layout) : Prop where
  ids : 0 ≤ l.ids
  digits : ∀ f, (l.span f).digits = f.digits l.ids

namespace Regular

variable {l : Layout}

theorem nonneg (h : l.Regular) : ∀ s ∈ l.spans, 0 ≤ s.digits := by
  intro s hs
  obtain ⟨f, _, rfl⟩ := List.mem_map.mp (l.spans_perm.mem_iff.mp hs)
  rw [h.digits f]
  exact Field.digits_nonneg h.ids f

theorem tiles (l : Layout) : Plan.tile 0 l.spans = .ok l.total :=
  (Plan.check_eq_ok_iff.mp l.check_eq_ok).1

/-- The span of a field in whole numbers. -/
theorem bounds (h : l.Regular) (f : Field) :
    (l.span f).offset = l.place f ∧ (l.span f).stop = (l.place f + l.room f : ℕ) := by
  have member : l.span f ∈ l.spans :=
    l.spans_perm.mem_iff.mpr (List.mem_map_of_mem (Field.mem_all f))
  obtain ⟨begins, _⟩ := (Plan.tile_bounds h.nonneg (tiles l)).2 _ member
  have digits := Field.digits_nonneg h.ids f
  rw [Span.stop_eq, h.digits f, place, room]
  omega

theorem length (h : l.Regular) (f : Field) : (l.span f).length = l.room f := by
  have digits := Field.digits_nonneg h.ids f
  rw [Span.length, h.digits f, room]
  omega

/-- **Inside.** No field leaves the bytes. -/
theorem inside (h : l.Regular) (f : Field) : l.place f + l.room f ≤ l.total.toNat := by
  have member : l.span f ∈ l.spans :=
    l.spans_perm.mem_iff.mpr (List.mem_map_of_mem (Field.mem_all f))
  obtain ⟨_, ends⟩ := (Plan.tile_bounds h.nonneg (tiles l)).2 _ member
  rw [(h.bounds f).2] at ends
  omega

/-- **Apart.** No two fields share a byte. -/
theorem apart (h : l.Regular) {f g : Field} (differ : f ≠ g) :
    l.place f + l.room f ≤ l.place g ∨ l.place g + l.room g ≤ l.place f := by
  have sorted : l.spans.Pairwise Span.Apart :=
    (Plan.tile_pairwise h.nonneg (tiles l)).imp Or.inl
  have one : (l.span f).Apart (l.span g) := Plan.fields_pairwise Or.symm sorted differ
  rw [Span.Apart, (h.bounds f).1, (h.bounds f).2, (h.bounds g).1, (h.bounds g).2] at one
  omega

end Regular

end Layout

/-! ## Fields back to back -/

namespace Field

theorem bytes_append (ids : Int) (fs gs : List Field) :
    bytes ids (fs ++ gs) = bytes ids fs + bytes ids gs := by
  induction fs with
  | nil => simp [bytes]
  | cons f fs ih =>
    rw [List.cons_append, bytes, bytes, ih]
    omega

theorem bytes_all (ids : Int) : bytes ids all = (ids + 41) * 8 := by
  simp only [bytes, all, digits]
  omega

/-- The index of a field's first element. -/
def first (ids : ℕ) : Field → ℕ
  | blockNumber => 0
  | range => 1
  | minBlock => 2
  | maxBlock => 3
  | contract => 4
  | user => 9
  | mappingSlot => 14
  | mappingSlotLength => 15
  | nftIds => 16
  | blockHash => 16 + ids
  | rewardsRate => 24 + ids
  | erc20Result => 32 + ids
  | identifier => 40 + ids

end Field

namespace Plan

/-- The fields behind those that are placed go on where these end. -/
theorem tile_backToBack (ids : Int) {before behind : List Field}
    (h : Field.all = before ++ behind) :
    tile (Field.bytes ids before) (behind.map (backToBack ids).span) =
      .ok (Field.bytes ids Field.all) := by
  induction behind generalizing before with
  | nil =>
    rw [List.append_nil] at h
    rw [h]
    rfl
  | cons f behind ih =>
    have fresh : f ∉ before := by
      have nodup := Field.nodup_all
      rw [h] at nodup
      exact fun hf => (List.nodup_append.mp nodup).2.2 f hf f (List.mem_cons_self ..) rfl
    have offset : ((backToBack ids).span f).offset = Field.bytes ids before := by
      have cutoff : Field.all.takeWhile (· ≠ f) = before := by
        rw [h, List.takeWhile_append_of_pos (by
          intro g hg
          simpa using fun same : g = f => fresh (same ▸ hg))]
        simp
      show Field.bytes ids (Field.all.takeWhile (· ≠ f)) = _
      rw [cutoff]
    have stop : ((backToBack ids).span f).stop = Field.bytes ids (before ++ [f]) := by
      rw [Span.stop_eq, offset, Field.bytes_append]
      show _ + f.digits ids * 8 = _ + (f.digits ids * 8 + 0)
      omega
    rw [List.map_cons, tile_cons_eq_ok, stop]
    exact ⟨offset, ih (by rw [h, List.append_assoc, List.singleton_append])⟩

section BackToBack

variable (ids : ℕ)

theorem backToBack_digits : ∀ s ∈ Field.all.map (backToBack ids).span, 0 ≤ s.digits := by
  intro s hs
  obtain ⟨f, _, rfl⟩ := List.mem_map.mp hs
  exact Field.digits_nonneg (Int.natCast_nonneg ids) f

theorem tile_all :
    tile 0 (Field.all.map (backToBack ids).span) = .ok (backToBack ids).total :=
  tile_backToBack ids (List.nil_append Field.all).symm

theorem spans_backToBack : (backToBack ids).spans = Field.all.map (backToBack ids).span := by
  apply foldl_place_sorted
  refine (tile_pairwise (backToBack_digits ids) (tile_all ids)).imp_of_mem ?_
  intro s t hs _ ends
  have := s.stop_eq
  have := backToBack_digits ids s hs
  omega

/-- **Fields back to back are a layout**, whatever the number of ids. -/
theorem check_backToBack : (backToBack ids).check = .ok () := by
  rw [check_eq_ok_iff, spans_backToBack]
  exact ⟨tile_all ids, Field.bytes_all ids⟩

end BackToBack

theorem backToBack_offset (ids : ℕ) (f : Field) :
    ((backToBack ids).span f).offset = (8 * f.first ids : ℕ) := by
  show Field.bytes ids (Field.all.takeWhile (· ≠ f)) = _
  cases f <;>
    simp [Field.all, Field.bytes, Field.digits, Field.first, List.takeWhile] <;> omega

end Plan

namespace Layout

theorem ofPlan_of_check {p : Plan} (h : p.check = .ok ()) :
    ∃ l, ofPlan p = .ok l ∧ l.toPlan = p := by
  unfold ofPlan
  split
  · exact ⟨_, rfl, rfl⟩
  · next e failed =>
    rw [h] at failed
    cases failed

theorem build_eq_ok (ids : ℕ) : ∃ l, build ids = .ok l ∧ l.toPlan = Plan.backToBack ids :=
  ofPlan_of_check (Plan.check_backToBack ids)

section BackToBack

variable {l : Layout} {ids : ℕ}

theorem regular_of_backToBack (h : l.toPlan = Plan.backToBack ids) : l.Regular where
  ids := by
    rw [h]
    exact Int.natCast_nonneg ids
  digits f := by
    rw [h]
    rfl

theorem place_of_backToBack (h : l.toPlan = Plan.backToBack ids) (f : Field) :
    l.place f = 8 * f.first ids := by
  rw [place, h, Plan.backToBack_offset, Int.toNat_natCast]

theorem room_of_backToBack (h : l.toPlan = Plan.backToBack ids) (f : Field) :
    l.room f = 8 * (f.digits ids).toNat := by
  rw [room, h]
  rfl

theorem total_of_backToBack (h : l.toPlan = Plan.backToBack ids) :
    l.total = (8 * (ids + 41) : ℕ) := by
  rw [h]
  show Field.bytes ids Field.all = _
  rw [Field.bytes_all]
  omega

end BackToBack

end Layout

end ProofGate
