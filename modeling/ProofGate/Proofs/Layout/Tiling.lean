import ProofGate.Proofs.Layout
import Mathlib.Data.List.Basic

/-!
# Bytes and fields

What the check of a plan says about single bytes, for spans of any offsets and any counts. Fields
never share a byte, and every byte below the total is one of a field. That no field has other bytes
is not checked: the last span may count fewer than no digits, and then the total falls behind the
bytes of the spans in front of it.
-/

namespace ProofGate

namespace Span

/-- A byte between the offset of a span and its end. -/
def Holds (s : Span) (n : Int) : Prop :=
  s.offset ≤ n ∧ n < s.stop

theorem Holds.digits_pos {s : Span} {n : Int} (h : s.Holds n) : 0 < s.digits := by
  obtain ⟨above, below⟩ := h
  have := s.stop_eq
  omega

theorem Apart.not_holds {s t : Span} (apart : s.Apart t) {n : Int} (hs : s.Holds n) :
    ¬ t.Holds n := by
  intro ht
  obtain ⟨_, _⟩ := hs
  obtain ⟨_, _⟩ := ht
  rcases apart with before | behind
  · omega
  · omega

theorem digitOffsets_of_nonpos {s : Span} (h : s.digits ≤ 0) : s.digitOffsets = [] := by
  rw [digitOffsets, Int.toNat_of_nonpos h]
  rfl

end Span

namespace Plan

/-! ## Spans in order -/

theorem place_sorted {sorted : List Span} {s : Span}
    (h : sorted.Pairwise fun s t => s.offset ≤ t.offset) :
    (place sorted s).Pairwise fun s t => s.offset ≤ t.offset := by
  induction sorted with
  | nil => exact List.pairwise_singleton _ _
  | cons t ts ih =>
    rcases List.pairwise_cons.mp h with ⟨first, rest⟩
    rw [place]
    split
    · next before =>
      refine List.pairwise_cons.mpr ⟨?_, h⟩
      intro u hu
      rcases List.mem_cons.mp hu with rfl | hu
      · omega
      · have := first u hu
        omega
    · next behind =>
      refine List.pairwise_cons.mpr ⟨?_, ih rest⟩
      intro u hu
      rcases List.mem_cons.mp ((place_perm ts s).mem_iff.mp hu) with rfl | hu
      · omega
      · exact first u hu

theorem foldl_place_ordered (ss : List Span) {sorted : List Span}
    (h : sorted.Pairwise fun s t => s.offset ≤ t.offset) :
    (ss.foldl place sorted).Pairwise fun s t => s.offset ≤ t.offset := by
  induction ss generalizing sorted with
  | nil => exact h
  | cons s ss ih => exact ih (place_sorted h)

theorem spans_ordered (p : Plan) : p.spans.Pairwise fun s t => s.offset ≤ t.offset :=
  foldl_place_ordered _ List.Pairwise.nil

theorem mem_spans {p : Plan} {s : Span} : s ∈ p.spans ↔ ∃ f, p.span f = s := by
  rw [p.spans_perm.mem_iff, List.mem_map]
  exact ⟨fun ⟨f, _, same⟩ => ⟨f, same⟩, fun ⟨f, same⟩ => ⟨f, Field.mem_all f, same⟩⟩

/-! ## Tiles -/

/-- Only the last tile tells where all of them end. -/
theorem tile_concat {start stop : Int} {ss : List Span} {s : Span} :
    tile start (ss ++ [s]) = .ok stop ↔ tile start ss = .ok s.offset ∧ s.stop = stop := by
  induction ss generalizing start with
  | nil =>
    rw [List.nil_append, tile_cons_eq_ok, tile, tile, Except.ok.injEq, Except.ok.injEq, eq_comm]
  | cons t ts ih => rw [List.cons_append, tile_cons_eq_ok, tile_cons_eq_ok, ih, and_assoc]

/-- In the order of their offsets no tile but the last one ends before it begins. -/
theorem tile_front {start stop : Int} {ss : List Span} {last : Span}
    (sorted : (ss ++ [last]).Pairwise fun s t => s.offset ≤ t.offset)
    (h : tile start (ss ++ [last]) = .ok stop) : ∀ s ∈ ss, 0 ≤ s.digits := by
  induction ss generalizing start with
  | nil => simp
  | cons s ss ih =>
    rw [List.cons_append] at sorted h
    rcases List.pairwise_cons.mp sorted with ⟨first, others⟩
    obtain ⟨_, rest⟩ := tile_cons_eq_ok.mp h
    refine List.forall_mem_cons.mpr ⟨?_, ih others rest⟩
    obtain ⟨next, behind, split⟩ : ∃ next behind, ss ++ [last] = next :: behind :=
      List.exists_cons_of_ne_nil (List.append_ne_nil_of_right_ne_nil ss (List.cons_ne_nil last []))
    rw [split] at first rest
    have begins := (tile_cons_eq_ok.mp rest).1
    have later := first next (List.mem_cons_self ..)
    have := s.stop_eq
    omega

/-- Between the start and the end every byte is one of a tile. -/
theorem tile_covers {start stop : Int} {ss : List Span} (h : tile start ss = .ok stop) {n : Int}
    (above : start ≤ n) (below : n < stop) : ∃ s ∈ ss, s.Holds n := by
  induction ss generalizing start with
  | nil =>
    cases h
    omega
  | cons s ss ih =>
    obtain ⟨here, rest⟩ := tile_cons_eq_ok.mp h
    by_cases inside : n < s.stop
    · exact ⟨s, List.mem_cons_self .., by omega, inside⟩
    · obtain ⟨t, ht, holds⟩ := ih rest (by omega)
      exact ⟨t, List.mem_cons_of_mem s ht, holds⟩

/-- The digits of tiles stand eight bytes apart from the start to the end. -/
theorem tile_digitOffsets {start stop : Int} {ss : List Span} (digits : ∀ s ∈ ss, 0 ≤ s.digits)
    (h : tile start ss = .ok stop) :
    ∃ count : ℕ, stop = start + 8 * count ∧
      ss.flatMap Span.digitOffsets = (List.range count).map fun i : ℕ => start + 8 * (i : Int) := by
  induction ss generalizing start with
  | nil =>
    cases h
    exact ⟨0, by omega, rfl⟩
  | cons s ss ih =>
    rw [List.forall_mem_cons] at digits
    obtain ⟨rfl, rest⟩ := tile_cons_eq_ok.mp h
    obtain ⟨count, ends, offsets⟩ := ih digits.2 rest
    have size := s.stop_eq
    refine ⟨s.digits.toNat + count, by omega, ?_⟩
    rw [List.flatMap_cons, offsets, List.range_add, List.map_append, List.map_map]
    congr 1
    · refine List.map_congr_left fun i _ => ?_
      show s.offset + (i : Int) * 8 = _
      omega
    · refine List.map_congr_left fun i _ => ?_
      show s.stop + 8 * (i : Int) = s.offset + 8 * ((s.digits.toNat + i : ℕ) : Int)
      omega

/-! ## Fields of an accepted plan -/

/-- Every byte from zero up to an end belongs to one field alone, and no field has another. -/
structure Tiles (p : Plan) (stop : Int) : Prop where
  one : ∀ n, 0 ≤ n → n < stop → ∃! f, (p.span f).Holds n
  inside : ∀ f n, (p.span f).Holds n → 0 ≤ n ∧ n < stop

/-- The digits of all fields in the order of their offsets begin at every eighth byte up to an
end. -/
def Lists (p : Plan) (stop : Int) : Prop :=
  p.spans.flatMap Span.digitOffsets = (List.range (stop / 8).toNat).map fun i : ℕ => 8 * (i : Int)

/-- One field counts fewer than no digits, though another one has some. -/
def Overdrawn (p : Plan) : Prop :=
  ∃ f g, (p.span f).digits < 0 ∧ 0 < (p.span g).digits

section Accepted

variable {p : Plan} {stop : Int}

/-- Spans with their digits follow each other up to the last one, with which the total ends. -/
theorem exists_last (h : p.check = .ok ()) : ∃ front last, p.spans = front ++ [last] ∧
    (∀ s ∈ front, 0 ≤ s.digits) ∧ tile 0 front = .ok last.offset ∧ last.stop = p.total := by
  obtain ⟨tiled, _⟩ := check_eq_ok_iff.mp h
  have some : p.spans ≠ [] := by
    intro none
    have size := p.spans_perm.length_eq
    rw [none, List.length_map] at size
    cases size
  obtain ⟨front, last, split⟩ := (List.eq_nil_or_concat' p.spans).resolve_left some
  have sorted := p.spans_ordered
  rw [split] at tiled sorted
  obtain ⟨start, ends⟩ := tile_concat.mp tiled
  exact ⟨front, last, split, tile_front sorted tiled, start, ends⟩

/-- Fields of an accepted plan lie apart, whatever they count. -/
theorem fields_apart (h : p.check = .ok ()) {f g : Field} (differ : f ≠ g) :
    (p.span f).Apart (p.span g) := by
  obtain ⟨front, last, split, nonneg, tiled, _⟩ := exists_last h
  have sorted : p.spans.Pairwise Span.Apart := by
    rw [split, List.pairwise_append]
    refine ⟨(tile_pairwise nonneg tiled).imp Or.inl, List.pairwise_singleton _ _, ?_⟩
    intro s hs t ht
    rw [List.mem_singleton] at ht
    rw [ht]
    exact Or.inl ((tile_bounds nonneg tiled).2 s hs).2
  exact fields_pairwise Or.symm sorted differ

/-- Tiles that are all the spans with digits make the fields tile as far as they reach. -/
theorem tiles_of_tile (h : p.check = .ok ()) {ss : List Span} (nonneg : ∀ s ∈ ss, 0 ≤ s.digits)
    (tiled : tile 0 ss = .ok stop) (known : ∀ s ∈ ss, s ∈ p.spans)
    (all : ∀ s ∈ p.spans, 0 < s.digits → s ∈ ss) : p.Tiles stop where
  one n above below := by
    obtain ⟨s, hs, holds⟩ := tile_covers tiled above below
    obtain ⟨f, rfl⟩ := mem_spans.mp (known s hs)
    refine ⟨f, holds, fun g other => ?_⟩
    by_contra differ
    exact (fields_apart h differ).not_holds other holds
  inside f n holds := by
    have member := all _ (mem_spans.mpr ⟨f, rfl⟩) holds.digits_pos
    obtain ⟨begins, ends⟩ := (tile_bounds nonneg tiled).2 _ member
    obtain ⟨above, below⟩ := holds
    exact ⟨by omega, by omega⟩

theorem lists_of_tile {ss : List Span} (nonneg : ∀ s ∈ ss, 0 ≤ s.digits)
    (tiled : tile 0 ss = .ok stop)
    (same : p.spans.flatMap Span.digitOffsets = ss.flatMap Span.digitOffsets) : p.Lists stop := by
  obtain ⟨count, ends, offsets⟩ := tile_digitOffsets nonneg tiled
  have size : (stop / 8).toNat = count := by omega
  rw [Lists, same, offsets, size]
  simp

/-- Without counts below zero fields tile up to the total. -/
theorem tiles_of_nonneg (h : p.check = .ok ()) (nonneg : ∀ f, 0 ≤ (p.span f).digits) :
    p.Tiles p.total ∧ p.Lists p.total := by
  have tiled := (check_eq_ok_iff.mp h).1
  have all : ∀ s ∈ p.spans, 0 ≤ s.digits := by
    intro s hs
    obtain ⟨f, rfl⟩ := mem_spans.mp hs
    exact nonneg f
  exact ⟨tiles_of_tile h all tiled (fun _ hs => hs) fun _ hs _ => hs, lists_of_tile all tiled rfl⟩

/-- A field with a count below zero is behind all others, which tile up to where it begins. -/
theorem tiles_of_neg (h : p.check = .ok ()) {f : Field} (neg : (p.span f).digits < 0) :
    p.total = (p.span f).stop ∧ (∀ g, g ≠ f → 0 ≤ (p.span g).digits) ∧
      p.Tiles (p.span f).offset ∧ p.Lists (p.span f).offset := by
  obtain ⟨front, last, split, nonneg, tiled, ends⟩ := exists_last h
  have members {s : Span} : s ∈ p.spans ↔ s ∈ front ∨ s = last := by
    rw [split, List.mem_append, List.mem_singleton]
  have only {s : Span} (hs : s ∈ p.spans) (below : s.digits < 0) : s = last := by
    rcases members.mp hs with hs | same
    · have := nonneg s hs
      omega
    · exact same
  obtain rfl : p.span f = last := only (mem_spans.mpr ⟨f, rfl⟩) neg
  refine ⟨ends.symm, ?others, ?tiles, ?lists⟩
  case others =>
    intro g differ
    have one : p.spans.Pairwise fun s t => 0 ≤ s.digits ∨ 0 ≤ t.digits := by
      rw [split, List.pairwise_append]
      refine ⟨?_, List.pairwise_singleton _ _, fun s hs _ _ => Or.inl (nonneg s hs)⟩
      exact List.pairwise_of_forall_mem_list fun s hs _ _ => Or.inl (nonneg s hs)
    have counts := fields_pairwise Or.symm one differ
    omega
  case tiles =>
    refine tiles_of_tile h nonneg tiled (fun s hs => members.mpr (Or.inl hs)) ?_
    intro s hs pos
    rcases members.mp hs with hs | rfl
    · exact hs
    · omega
  case lists =>
    refine lists_of_tile nonneg tiled ?_
    rw [split, List.flatMap_append, List.flatMap_singleton,
      Span.digitOffsets_of_nonpos (by omega), List.append_nil]

theorem nonneg_or_neg (p : Plan) : (∀ f, 0 ≤ (p.span f).digits) ∨ ∃ f, (p.span f).digits < 0 := by
  by_cases some : ∃ f, (p.span f).digits < 0
  · exact Or.inr some
  · exact Or.inl fun f => Int.not_lt.mp fun neg => some ⟨f, neg⟩

/-- Every byte below the total is one of a field, since the last field begins no earlier. -/
theorem covered (h : p.check = .ok ()) {n : Int} (above : 0 ≤ n) (below : n < p.total) :
    ∃! f, (p.span f).Holds n := by
  rcases p.nonneg_or_neg with nonneg | ⟨f, neg⟩
  · exact (tiles_of_nonneg h nonneg).1.one n above below
  · obtain ⟨ends, _, upTo, _⟩ := tiles_of_neg h neg
    have := (p.span f).stop_eq
    exact upTo.one n above (by omega)

/-- A count below zero does no harm where there are no digits at all: then nothing is tiled. -/
theorem tiles_of_not_overdrawn (h : p.check = .ok ()) (spared : ¬ p.Overdrawn) :
    p.Tiles p.total ∧ p.Lists p.total := by
  rcases p.nonneg_or_neg with nonneg | ⟨f, neg⟩
  · exact tiles_of_nonneg h nonneg
  · obtain ⟨ends, _, upTo, listed⟩ := tiles_of_neg h neg
    have size := (p.span f).stop_eq
    have empty (g : Field) (n : Int) : ¬ (p.span g).Holds n :=
      fun holds => spared ⟨f, g, neg, holds.digits_pos⟩
    have first : (p.span f).offset ≤ 0 := by
      by_contra later
      obtain ⟨g, holds, _⟩ := upTo.one 0 (Int.le_refl 0) (by omega)
      exact empty g 0 holds
    refine ⟨⟨fun n above below => by omega, fun g n holds => absurd holds (empty g n)⟩, ?_⟩
    have none : (p.total / 8).toNat = ((p.span f).offset / 8).toNat := by omega
    rw [Lists, none]
    exact listed

/-- The fields of an overdrawn plan reach behind its total. -/
theorem exists_behind (h : p.check = .ok ()) (overdrawn : p.Overdrawn) :
    ∃ stop, 8 ≤ stop ∧ p.total + 8 ≤ stop ∧ p.Tiles stop ∧ p.Lists stop := by
  obtain ⟨f, g, neg, pos⟩ := overdrawn
  obtain ⟨ends, _, upTo, listed⟩ := tiles_of_neg h neg
  have size := (p.span f).stop_eq
  have first : (p.span g).Holds (p.span g).offset := by
    have := (p.span g).stop_eq
    exact ⟨by omega, by omega⟩
  have eighth : (p.span g).Holds ((p.span g).offset + 7) := by
    have := (p.span g).stop_eq
    exact ⟨by omega, by omega⟩
  have above := (upTo.inside g _ first).1
  have below := (upTo.inside g _ eighth).2
  exact ⟨(p.span f).offset, by omega, by omega, upTo, listed⟩

theorem tiles_total_iff (h : p.check = .ok ()) : p.Tiles p.total ↔ ¬ p.Overdrawn := by
  constructor
  · intro tiles overdrawn
    obtain ⟨stop, first, behind, upTo, _⟩ := exists_behind h overdrawn
    -- the byte in front of the end is one of a field, but not below the total
    obtain ⟨f, holds, _⟩ := upTo.one (stop - 1) (by omega) (by omega)
    have inside := tiles.inside f _ holds
    omega
  · intro spared
    exact (tiles_of_not_overdrawn h spared).1

theorem lists_total_iff (h : p.check = .ok ()) : p.Lists p.total ↔ ¬ p.Overdrawn := by
  constructor
  · intro lists overdrawn
    obtain ⟨stop, first, behind, _, listed⟩ := exists_behind h overdrawn
    have counts := congrArg List.length (lists.symm.trans listed)
    rw [List.length_map, List.length_map, List.length_range, List.length_range] at counts
    omega
  · intro spared
    exact (tiles_of_not_overdrawn h spared).2

end Accepted

end Plan

/-! ## Accepted layouts -/

namespace Layout

theorem check_of_ofPlan {p : Plan} {l : Layout} (h : ofPlan p = .ok l) :
    p.check = .ok () ∧ l.toPlan = p := by
  unfold ofPlan at h
  split at h
  · next checked =>
    cases h
    exact ⟨checked, rfl⟩
  · cases h

/-- **Bytes and fields.** Fields of an accepted layout never share a byte, and every byte below the
total is one of a field. The bytes of the fields are those below the total, and their digits stand
at every eighth of them, exactly if no field counts fewer than no digits while another one has some.
Such a field is the last one; the others tile up to where it begins, and the total is less by what
it takes back. -/
theorem ofPlan_tiles {p : Plan} {l : Layout} (accepted : ofPlan p = .ok l) :
    (∀ n, 0 ≤ n → n < p.total → ∃! f, (p.span f).Holds n) ∧
    (∀ f g n, (p.span f).Holds n → (p.span g).Holds n → f = g) ∧
    (p.Tiles p.total ↔ ¬ p.Overdrawn) ∧
    (p.Lists p.total ↔ ¬ p.Overdrawn) ∧
    ∀ f, (p.span f).digits < 0 →
      p.total = (p.span f).offset + (p.span f).digits * 8 ∧ (∀ g, g ≠ f → 0 ≤ (p.span g).digits) ∧
      p.Tiles (p.span f).offset ∧ p.Lists (p.span f).offset := by
  obtain ⟨checked, _⟩ := check_of_ofPlan accepted
  refine ⟨fun n => Plan.covered checked, ?apart, Plan.tiles_total_iff checked,
    Plan.lists_total_iff checked, fun f neg => Plan.tiles_of_neg checked neg⟩
  case apart =>
    intro f g n hf hg
    by_contra differ
    exact (Plan.fields_apart checked differ).not_holds hf hg

end Layout

namespace Plan

/-- Fields back to back in which the last one counts minus one digit, which leaves room for three
ids where five are. -/
def overdrawn : Plan where
  span f := if f = .identifier then ⟨f.name, 360, -1⟩ else (backToBack 5).span f
  ids := 3
  total := 352

theorem check_overdrawn : overdrawn.check = .ok () := rfl

end Plan

namespace Layout

/-- The bytes of fields back to back are tiled, also without an id, where two fields begin at one
byte. With a count below zero they are tiled up to the last field, and the total is eight less. -/
theorem ofPlan_tiles_sample :
    (∃ l, ofPlan (Plan.backToBack 0) = .ok l ∧ (Plan.backToBack 0).Tiles 328) ∧
    ∃ l, ofPlan Plan.overdrawn = .ok l ∧ Plan.overdrawn.Tiles 360 ∧ ¬ Plan.overdrawn.Tiles 352 := by
  constructor
  · obtain ⟨l, accepted, _⟩ := ofPlan_of_check (Plan.check_backToBack 0)
    obtain ⟨_, _, tiles, _⟩ := ofPlan_tiles accepted
    refine ⟨l, accepted, tiles.mpr ?_⟩
    rintro ⟨f, _, neg, _⟩
    exact absurd (Field.digits_nonneg (Int.le_refl 0) f) (Int.not_le.mpr neg)
  · obtain ⟨l, accepted, _⟩ := ofPlan_of_check Plan.check_overdrawn
    obtain ⟨_, _, tiles, _, short⟩ := ofPlan_tiles accepted
    obtain ⟨_, _, upTo, _⟩ := short .identifier (by decide)
    exact ⟨l, accepted, upTo, fun all => tiles.mp all ⟨.identifier, .range, by decide, by decide⟩⟩

/-- **Bytes behind the total.** Fields of an accepted layout can leave the total. -/
theorem not_always_tiled : ¬ ∀ (p : Plan) (l : Layout), ofPlan p = .ok l → p.Tiles p.total := by
  intro always
  obtain ⟨l, accepted, _⟩ := ofPlan_of_check Plan.check_overdrawn
  have behind : (Plan.overdrawn.span .erc20Result).Holds 352 := by
    constructor <;> decide
  have inside := (always _ l accepted).inside _ _ behind
  exact absurd inside.2 (by decide)

end Layout

end ProofGate
