import ProofGate.Proofs.Double
import ProofGate.Proofs.Layout.Tiling
import ProofGate.Statement.Places

/-!
# Layouts of every size

Fields back to back are a layout exactly if the number of ids is not below zero: only the last
field could count fewer than no digits, and behind the ids there are four more. Such a layout has
its fields in the order of registration, its digits eight bytes apart, and the size that bundles
carry for five ids alone.
-/

namespace ProofGate

/-! ## Digits of a span -/

theorem Span.digitOffset_inside {s : Span} {i : Int} (low : 0 ≤ i) (high : i < s.digits) :
    s.digitOffset i = .ok (s.offset + 8 * i) := by
  rw [digitOffset, if_pos ⟨low, high⟩, Int.mul_comm]

theorem Span.digitOffset_outside {s : Span} {i : Int} (outside : ¬ (0 ≤ i ∧ i < s.digits)) :
    s.digitOffset i = .error (.digitIndex s.name s.digits (.int i)) := by
  rw [digitOffset, if_neg outside]

/-- A number handed over as any value is the place that it is as a number. -/
theorem Places.digit_int (s : Span) (i : Int) :
    Places.digit s (.int i) = (s.digitOffset i).map Value.int := by
  have number : (Value.int i).number? = some (.exact i) := rfl
  have count : (Value.int i).count? = some i := rfl
  have bounds : ((Double.exact 0).le (.exact i) && (Double.exact i).lt (.exact s.digits)) = true ↔
      0 ≤ i ∧ i < s.digits := by
    rw [Bool.and_eq_true, Double.le_iff (Double.rational_exact 0) (Double.rational_exact i),
      Double.lt_iff (Double.rational_exact i) (Double.rational_exact s.digits), Int.cast_le,
      Int.cast_lt]
  rw [Places.digit, number]
  by_cases inside : 0 ≤ i ∧ i < s.digits
  · simp only [if_pos (bounds.mpr inside), count, Span.digitOffset, if_pos inside, map_ok]
  · simp only [if_neg (mt bounds.mp inside), Span.digitOffset, if_neg inside, map_error]

namespace Plan

/-! ## Refused plans -/

theorem kind_of_tile {start : Int} {ss : List Span} {e : Failure} (h : tile start ss = .error e) :
    e.kind = .value := by
  induction ss generalizing start with
  | nil => cases h
  | cons s ss ih =>
    rw [tile] at h
    split at h
    · exact ih h
    · cases h
      rfl

/-- Whatever is wrong with a plan, it is the value of one of its numbers. -/
theorem kind_of_check {p : Plan} {e : Failure} (h : p.check = .error e) : e.kind = .value := by
  unfold check at h
  rcases bind_eq_error.mp h with gap | ⟨stop, _, h⟩
  · exact kind_of_tile gap
  · split at h
    · cases h
      rfl
    · dsimp only at h
      split at h
      · cases h
        rfl
      · cases h

/-- Fewer than no ids would end the bytes of the whole plan, which do not end there. -/
theorem check_backToBack_ne {ids : Int} (neg : ids < 0) : (backToBack ids).check ≠ .ok () := by
  intro checked
  have count : ((backToBack ids).span .nftIds).digits < 0 := neg
  have ends := (tiles_of_neg checked count).1
  have total : (backToBack ids).total = (ids + 41) * 8 := Field.bytes_all ids
  have stop : ((backToBack ids).span .nftIds).stop = 128 + ids * 8 := rfl
  omega

end Plan

namespace Layout

theorem ofPlan_of_error {p : Plan} {e : Failure} (h : p.check = .error e) :
    ofPlan p = .error e := by
  unfold ofPlan
  split
  · next checked =>
    rw [h] at checked
    cases checked
  · next failed =>
    rw [h] at failed
    cases failed
    rfl

/-! ## Layouts for a number of ids -/

theorem build_eq_error {ids : Int} (neg : ids < 0) :
    ∃ e, build ids = .error e ∧ e.kind = .value := by
  cases checked : (Plan.backToBack ids).check with
  | ok _ => exact absurd checked (Plan.check_backToBack_ne neg)
  | error e => exact ⟨e, ofPlan_of_error checked, Plan.kind_of_check checked⟩

theorem nonneg_of_build {ids : Int} {l : Layout} (h : build ids = .ok l) : 0 ≤ ids := by
  by_contra neg
  obtain ⟨e, refused, _⟩ := build_eq_error (by omega : ids < 0)
  rw [h] at refused
  cases refused

/-- What a layout for a number of ids is like. -/
structure Registered (l : Layout) (ids : Int) : Prop where
  total : l.total = 8 * (ids + 41)
  order : l.spans = Field.all.map l.span
  names : ∀ f, (l.span f).name = Text.ofString f.name
  lists : l.Lists l.total
  tail : (l.span .blockHash).offset = 128 + 8 * ids ∧
    (l.span .rewardsRate).offset = 192 + 8 * ids ∧
    (l.span .erc20Result).offset = 256 + 8 * ids ∧ (l.span .identifier).offset = 320 + 8 * ids
  inside : ∀ f i, 0 ≤ i → i < (l.span f).digits →
    (l.span f).digitOffset i = .ok ((l.span f).offset + 8 * i)
  outside : ∀ f i, ¬ (0 ≤ i ∧ i < (l.span f).digits) →
    ∃ e, (l.span f).digitOffset i = .error e ∧ e.kind = .index
  loose : ∀ f i, Places.digit (l.span f) (.int i) = ((l.span f).digitOffset i).map Value.int
  fits : l.checkTotal = .ok () ↔ ids = 5
  misfit : ids ≠ 5 → ∃ e, l.checkTotal = .error e ∧ e.kind = .value

theorem checkTotal_eq_ok_iff {l : Layout} : l.checkTotal = .ok () ↔ l.total = 368 := by
  unfold checkTotal
  split
  · next fits => exact iff_of_true rfl fits
  · next misfit => exact iff_of_false (by rintro ⟨⟩) misfit

theorem checkTotal_eq_error {l : Layout} (misfit : l.total ≠ 368) :
    l.checkTotal = .error (.layoutTotal l.total 368) :=
  if_neg misfit

theorem registered_backToBack {l : Layout} {ids : ℕ} (h : l.toPlan = Plan.backToBack ids) :
    l.Registered ids := by
  have total := total_of_backToBack h
  have regular := regular_of_backToBack h
  have offset (f : Field) : (l.span f).offset = (8 * f.first ids : ℕ) := by
    rw [h, Plan.backToBack_offset]
  have nonneg (f : Field) : 0 ≤ (l.span f).digits := by
    rw [regular.digits f]
    exact Field.digits_nonneg regular.ids f
  constructor
  case total => omega
  case order => rw [h, Plan.spans_backToBack]
  case names =>
    intro f
    rw [h]
    rfl
  case lists => exact (Plan.tiles_of_nonneg l.check_eq_ok nonneg).2
  case tail =>
    simp only [offset, Field.first]
    omega
  case inside => exact fun f i => Span.digitOffset_inside
  case outside => exact fun f i outside => ⟨_, Span.digitOffset_outside outside, rfl⟩
  case loose => exact fun f i => Places.digit_int _ i
  case fits =>
    rw [checkTotal_eq_ok_iff]
    omega
  case misfit =>
    intro other
    exact ⟨_, checkTotal_eq_error (by omega), rfl⟩

/-- **Sizes.** There is a layout exactly for every number of ids that is not below zero, and any
other number is told to be a wrong value. The layout has its fields in the order of registration
without a gap, no digits but those that it counts, and fits a bundle for five ids alone. -/
theorem build_registered (ids : Int) :
    ((∃ l, build ids = .ok l) ↔ 0 ≤ ids) ∧
    (¬ 0 ≤ ids → ∃ e, build ids = .error e ∧ e.kind = .value) ∧
    ∀ l, build ids = .ok l → l.Registered ids := by
  refine ⟨⟨fun ⟨l, built⟩ => nonneg_of_build built, ?builds⟩, ?refuses, ?registered⟩
  case builds =>
    intro nonneg
    obtain ⟨n, rfl⟩ := Int.eq_ofNat_of_zero_le nonneg
    obtain ⟨l, built, _⟩ := build_eq_ok n
    exact ⟨l, built⟩
  case refuses =>
    intro neg
    exact build_eq_error (Int.not_le.mp neg)
  case registered =>
    intro l built
    obtain ⟨n, rfl⟩ := Int.eq_ofNat_of_zero_le (nonneg_of_build built)
    exact registered_backToBack (check_of_ofPlan built).2

/-- Without ids the hash begins where the ids do, but there is a layout; with one id less than none
the hash would begin on a length, and there is none. -/
theorem build_registered_sample :
    (∃ l, build 0 = .ok l ∧ l.total = 328 ∧ (l.span .blockHash).offset = 128 ∧
      ∃ e, (l.span .nftIds).digitOffset 0 = .error e ∧ e.kind = .index) ∧
    ∃ e, build (-1) = .error e ∧ e.kind = .value := by
  obtain ⟨accepts, _, registered⟩ := build_registered 0
  obtain ⟨_, refuses, _⟩ := build_registered (-1)
  obtain ⟨l, built⟩ := accepts.mpr (by decide)
  have like := registered l built
  obtain ⟨_, plan⟩ := check_of_ofPlan built
  have none : (l.span .nftIds).digits = 0 := by
    rw [plan]
    rfl
  refine ⟨⟨l, built, like.total, like.tail.1, like.outside _ 0 ?_⟩, refuses (by decide)⟩
  rw [none]
  decide

end Layout

end ProofGate
