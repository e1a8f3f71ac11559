import ProofGate.Proofs.Layout.Sizes
import ProofGate.Proofs.Release
import ProofGate.Proofs.Statement.RoundTrip
import Mathlib.Data.List.Forall2

/-!
# Values that were decoded

The bytes of a statement are read twice, once for the members that a query is checked with and once
for the values that are released. Under every layout, whatever the order and the sizes of its
fields, both readings give the same ids and the same amount, and none of these has more than 32
bits.
-/

namespace ProofGate

/-! ## Digits that were read -/

namespace Digits

theorem lt_of_direct {data : Bytes} {offset : Int} {n : ℕ} (h : direct data offset = .ok n) :
    n < 2 ^ 32 := by
  obtain ⟨digit, read, rfl⟩ := map_eq_ok.mp h
  unfold bytesAt at read
  split at read
  · next inside =>
    cases read
    have size : (data.cut offset.toNat 4).length = 4 := Bytes.length_cut (by omega)
    have small := Bytes.natLE_lt (data.cut offset.toNat 4)
    rwa [size] at small
  · cases read

/-- A digit is read for each place. -/
theorem forall₂_of_directs {data : Bytes} {offsets : List Int} {ns : List ℕ}
    (h : directs data offsets = .ok ns) :
    List.Forall₂ (fun n offset => direct data offset = .ok n) ns offsets := by
  induction offsets generalizing ns with
  | nil =>
    cases h
    exact .nil
  | cons offset offsets ih =>
    obtain ⟨n, first, h⟩ := bind_eq_ok.mp h
    obtain ⟨rest, others, h⟩ := bind_eq_ok.mp h
    cases h
    exact .cons first (ih others)

theorem lt_of_directs {data : Bytes} {offsets : List Int} {ns : List ℕ}
    (h : directs data offsets = .ok ns) : ∀ n ∈ ns, n < 2 ^ 32 := by
  have small := (forall₂_of_directs h).imp fun n offset read => And.intro (lt_of_direct read) read
  exact ((List.forall₂_and_left _ _).mp small).1

/-- Digits joined without a shift have no more bits than one of them. -/
theorem lt_of_union {data : Bytes} {offset : Int} {count n : ℕ}
    (h : union data offset count = .ok n) : n < 2 ^ 32 := by
  induction count generalizing offset n with
  | zero =>
    cases h
    decide
  | succ count ih =>
    obtain ⟨first, low, h⟩ := bind_eq_ok.mp h
    obtain ⟨rest, others, h⟩ := bind_eq_ok.mp h
    cases h
    exact Nat.or_lt_two_pow (lt_of_direct low) (ih others)

end Digits

/-! ## Both readings -/

/-- A decoded statement has the ids and the amount of its bytes. -/
theorem Statement.values_of_decode {l : Layout} {data : Bytes} {s : Statement}
    (h : decode data l = .ok s) : ∃ (ids : List ℕ) (amount : ℕ),
      Digits.directs data (l.span .nftIds).digitOffsets = .ok ids ∧
      Digits.amount data (l.span .erc20Result).offset = .ok amount ∧
      s.nftIds = ids.map Int.ofNat ∧ s.erc20Result = amount := by
  unfold decode at h
  dsimp only at h
  split at h
  · cases h
  · simp only [bind_eq_ok] at h
    obtain ⟨_, _, _, _, _, _, _, _, _, _, _, _, _, _, _, _, ids, readIds, _, _, _, _, amount,
      readAmount, _, _, said⟩ := h
    cases said
    exact ⟨ids, amount, readIds, readAmount, rfl, rfl⟩

namespace Release

/-- Numbers other than the two tags release nothing. -/
theorem values_untagged {v : Value} {t : Int} (count : v.count? = some t) (nft : t ≠ 67)
    (erc20 : t ≠ 88) (l : Layout) (data : Bytes) :
    values l data v = .error (.unsupportedTag v) := by
  have same : Tag.ofNumber? v = Tag.ofNumber? (.int t) := by
    cases v <;> cases count <;> rfl
  rw [values, same, Tag.ofNumber_int, if_neg nft, if_neg erc20]

/-- **Both readings agree.** Of bytes that were decoded under a layout the tag of ids releases the
ids of the statement, the other tag its amount alone, and no other number anything. All of them are
digits, and there are as many ids as the layout was built for. -/
theorem values_decoded {l : Layout} {data : Bytes} {s : Statement}
    (decoded : Statement.decode data l = .ok s) :
    ∃ (ids : List ℕ) (amount : ℕ), s.nftIds = ids.map Int.ofNat ∧ s.erc20Result = amount ∧
      values l data (.int 67) = .ok ids ∧ values l data (.int 88) = .ok [amount] ∧
      (∀ v t, v.count? = some t → t ≠ 67 → t ≠ 88 →
        ∃ e, values l data v = .error e ∧ e.kind = .unsupportedTag) ∧
      (∀ n ∈ ids, n < 2 ^ 32) ∧ amount < 2 ^ 32 ∧
      ∀ k, Layout.build k = .ok l → (ids.length : Int) = k := by
  obtain ⟨ids, amount, readIds, readAmount, sameIds, sameAmount⟩ :=
    Statement.values_of_decode decoded
  refine ⟨ids, amount, sameIds, sameAmount, readIds, ?amount, ?untagged,
    Digits.lt_of_directs readIds, Digits.lt_of_union readAmount, ?length⟩
  case amount =>
    show (Digits.amount data (l.span .erc20Result).offset >>= _) = _
    rw [readAmount]
    rfl
  case untagged =>
    intro v t count nft erc20
    exact ⟨_, values_untagged count nft erc20 l data, rfl⟩
  case length =>
    intro k built
    have nonneg := Layout.nonneg_of_build built
    have count : (l.span .nftIds).digits = k := by
      rw [(Layout.check_of_ofPlan built).2]
      rfl
    rw [(Digits.forall₂_of_directs readIds).length_eq, Span.digitOffsets, List.length_map, List.length_range,
      count, Int.toNat_of_nonneg nonneg]

/-- Two ids, the first with bits above its digit, behind an amount that fills two limbs. -/
def opposed : Bytes :=
  [67, 0, 0, 0, 0, 0, 0, 0] ++ [4, 0, 0, 0, 0, 0, 0, 0, 1, 0, 0, 0, 0, 0, 0, 0] ++
    Bytes.zeros 176 ++ [7, 0, 0, 0, 1, 0, 0, 0] ++ [8, 0, 0, 0, 0, 0, 0, 0] ++ Bytes.zeros 128

/-- Bytes whose fields are in the opposite order release what was decoded. -/
theorem values_decoded_opposed : ∃ s, Statement.decode opposed Statement.opposite = .ok s ∧
    s.nftIds = [7, 8] ∧ s.erc20Result = 5 ∧
    values Statement.opposite opposed (.int 67) = .ok [7, 8] ∧
    values Statement.opposite opposed (.int 88) = .ok [5] ∧
    ∃ e, values Statement.opposite opposed (.bool true) = .error e ∧ e.kind = .unsupportedTag := by
  have regular : Statement.opposite.Regular := ⟨by decide, fun f => by cases f <;> rfl⟩
  have size : (opposed.length : Int) = Statement.opposite.total := by
    decide +kernel
  have decoded := Statement.decode_regular regular size
  obtain ⟨ids, amount, sameIds, sameAmount, nft, erc20, untagged, _⟩ := values_decoded decoded
  have saidIds : (Statement.ofPieces (Statement.opposite.piece opposed)).nftIds = [7, 8] := by
    decide +kernel
  have saidAmount : (Statement.ofPieces (Statement.opposite.piece opposed)).erc20Result = 5 := by
    decide +kernel
  obtain rfl : ids = [7, 8] := by
    refine List.map_injective_iff.mpr Int.ofNat_injective ?_
    exact sameIds.symm.trans saidIds
  obtain rfl : amount = 5 := Int.ofNat_inj.mp (sameAmount.symm.trans saidAmount)
  exact ⟨_, decoded, saidIds, saidAmount, nft, erc20, untagged _ 1 rfl (by decide) (by decide)⟩

end Release

end ProofGate
