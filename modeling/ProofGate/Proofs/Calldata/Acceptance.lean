import ProofGate.Proofs.Bundle.Malformed
import ProofGate.Proofs.Calldata

/-!
# Which calls are accepted

A call may be any bytes at all. It is accepted exactly if its selector is the right one, the eight
words behind the pointer are those of a query, and the pointer leads to a length and as many words,
wherever behind the second word that is and whatever else there is. All other calls are told to be
malformed: cut short at any place, with a pointer that leads out, with bytes above a short number or
with another number of words.
-/

namespace ProofGate

namespace Calldata

/-! ## Words -/

theorem wordAt_eq_ok_iff {data : Bytes} {place : ℕ} {w : Bytes} :
    wordAt data place = .ok w ↔ w.length = 32 ∧ data.cut place 32 = w := by
  unfold wordAt
  dsimp only
  constructor
  · intro read
    split at read
    · next whole =>
      cases read
      exact ⟨whole, rfl⟩
    · cases read
  · rintro ⟨size, rfl⟩
    rw [if_pos size]

/-- A number is read exactly from the word that it fills. -/
theorem narrowAt_eq_ok_iff {width : ℕ} (narrow : width ≤ 32) {data : Bytes} {place n : ℕ} :
    narrowAt width data place = .ok n ↔ n < 256 ^ width ∧ data.cut place 32 = wordOf n := by
  constructor
  · intro read
    refine ⟨lt_of_narrowAt narrow read, ?_⟩
    obtain ⟨w, there, read⟩ := bind_eq_ok.mp read
    obtain ⟨size, cut⟩ := wordAt_eq_ok_iff.mp there
    obtain ⟨high, whole⟩ := Nat.exists_eq_add_of_le narrow
    have front : 32 - width = high := by omega
    rw [front] at read
    have taken : (w.take high).length = high := by
      rw [List.length_take, size]
      omega
    have behind : (w.drop high).length = width := by
      rw [List.length_drop, size]
      omega
    dsimp only at read
    split at read
    · next blank =>
      cases read
      have zeros : w.take high = Bytes.zeros high := by
        rw [Bytes.zeros, List.eq_replicate_iff]
        exact ⟨taken, fun b hb => beq_iff_eq.mp (List.all_eq_true.mp blank b hb)⟩
      have small := Bytes.natBE_lt (w.drop high)
      have low := Bytes.ofNatBE_natBE (w.drop high)
      rw [behind] at small low
      rw [cut, wordOf, whole, Bytes.ofNatBE_of_lt small, low, ← zeros, List.take_append_drop]
    · cases read
  · rintro ⟨small, cut⟩
    exact narrowAt_wordOf narrow (wordAt_eq_ok_iff.mpr ⟨length_wordOf n, cut⟩) small

/-- A stretch is a row of words exactly if each of them stands at its place. -/
theorem cut_eq_flatten_iff {data : Bytes} {ws : List Bytes} (widths : ∀ w ∈ ws, w.length = 32)
    (place : ℕ) :
    data.cut place (32 * ws.length) = ws.flatten ↔
      ∀ i w, ws[i]? = some w → data.cut (place + 32 * i) 32 = w := by
  induction ws generalizing place with
  | nil => simp [Bytes.cut]
  | cons w ws ih =>
    rw [List.forall_mem_cons] at widths
    obtain ⟨size, widths⟩ := widths
    have split : data.cut place (32 * (w :: ws).length) =
        data.cut place 32 ++ data.cut (place + 32) (32 * ws.length) := by
      rw [Bytes.cut_append_cut, List.length_cons, Nat.mul_succ, Nat.add_comm]
    have next (i : ℕ) : place + 32 + 32 * i = place + 32 * (i + 1) := by omega
    rw [split, List.flatten_cons]
    constructor
    · intro same
      have total := congrArg List.length same
      have first : (data.cut place 32).length = 32 := by
        rw [List.length_append, List.length_append, size, Bytes.length_flatten widths] at total
        simp only [Bytes.cut, List.length_take, List.length_drop] at total ⊢
        omega
      obtain ⟨head, tail⟩ := List.append_inj same (by rw [first, size])
      intro i w' there
      cases i with
      | zero =>
        cases there
        exact head
      | succ i =>
        rw [← next]
        exact (ih widths _).mp tail i w' there
    · intro each
      have head : data.cut place 32 = w := each 0 w rfl
      have tail : data.cut (place + 32) (32 * ws.length) = ws.flatten := by
        refine (ih widths _).mpr fun i w' there => ?_
        rw [next]
        exact each (i + 1) w' there
      rw [head, tail]

/-- Words are read one after the other exactly from the row that they make. -/
theorem wordsFrom_eq_ok_iff {data : Bytes} {place count : ℕ} {ws : List Bytes} :
    wordsFrom data place count = .ok ws ↔
      ws.length = count ∧ ∀ i w, ws[i]? = some w → w.length = 32 ∧
        data.cut (place + 32 * i) 32 = w := by
  induction count generalizing place ws with
  | zero =>
    rw [wordsFrom]
    constructor
    · rintro ⟨⟩
      simp
    · rintro ⟨none, _⟩
      rw [List.length_eq_zero_iff.mp none]
  | succ count ih =>
    have next (i : ℕ) : place + 32 + 32 * i = place + 32 * (i + 1) := by omega
    rw [wordsFrom]
    constructor
    · intro read
      obtain ⟨w, first, read⟩ := bind_eq_ok.mp read
      obtain ⟨ws', rest, read⟩ := bind_eq_ok.mp read
      cases read
      obtain ⟨size, each⟩ := ih.mp rest
      refine ⟨congrArg (· + 1) size, fun i w' there => ?_⟩
      cases i with
      | zero =>
        cases there
        exact wordAt_eq_ok_iff.mp first
      | succ i =>
        rw [← next]
        exact each i w' there
    · rintro ⟨size, each⟩
      cases ws with
      | nil => cases size
      | cons w ws =>
        have first : wordAt data place = .ok w := wordAt_eq_ok_iff.mpr (each 0 w rfl)
        have rest : wordsFrom data (place + 32) count = .ok ws := by
          refine ih.mpr ⟨Nat.succ_inj.mp size, fun i w' there => ?_⟩
          rw [next]
          exact each (i + 1) w' there
        rw [first, ok_bind, rest]
        rfl

/-! ## Arguments -/

/-- The place that the first word points to. -/
def place (data : Bytes) : ℕ :=
  (data.cut 0 32).natBE

theorem pointer_eq_ok_iff {least p : ℕ} {data : Bytes} :
    pointer least data = .ok p ↔
      p = place data ∧ 32 ≤ data.length ∧ least ≤ p ∧ p < data.length := by
  have whole : (data.cut 0 32).length = 32 ↔ 32 ≤ data.length := by
    rw [Bytes.cut_zero, List.length_take]
    omega
  constructor
  · intro read
    obtain ⟨w, there, read⟩ := bind_eq_ok.mp read
    obtain ⟨size, rfl⟩ := wordAt_eq_ok_iff.mp there
    dsimp only at read
    split at read
    · next inside =>
      cases read
      exact ⟨rfl, whole.mp size, inside⟩
    · cases read
  · rintro ⟨rfl, size, inside⟩
    have there : wordAt data 0 = .ok (data.cut 0 32) := wordAt_eq_ok_iff.mpr ⟨whole.mpr size, rfl⟩
    rw [pointer, there, ok_bind]
    dsimp only
    exact if_pos inside

theorem listAt_eq_ok_iff {data : Bytes} {place : ℕ} {items : List Bytes} :
    listAt data place = .ok items ↔
      data.cut place 32 = wordOf items.length ∧ items.length < 2 ^ 256 ∧
        (∀ w ∈ items, w.length = 32) ∧
        data.cut (place + 32) (32 * items.length) = items.flatten := by
  have each : (∀ i w, items[i]? = some w → w.length = 32 ∧
        data.cut (place + 32 + 32 * i) 32 = w) ↔
      (∀ w ∈ items, w.length = 32) ∧
        data.cut (place + 32) (32 * items.length) = items.flatten := by
    constructor
    · intro each
      have widths : ∀ w ∈ items, w.length = 32 := by
        intro w hw
        obtain ⟨i, there⟩ := List.mem_iff_getElem?.mp hw
        exact (each i w there).1
      exact ⟨widths, (cut_eq_flatten_iff widths _).mpr fun i w there => (each i w there).2⟩
    · rintro ⟨widths, row⟩ i w there
      exact ⟨widths w (List.mem_of_getElem? there), (cut_eq_flatten_iff widths _).mp row i w there⟩
  constructor
  · intro read
    obtain ⟨w, there, read⟩ := bind_eq_ok.mp read
    obtain ⟨size, rfl⟩ := wordAt_eq_ok_iff.mp there
    obtain ⟨count, read⟩ := wordsFrom_eq_ok_iff.mp read
    have small := Bytes.natBE_lt (data.cut place 32)
    have word := Bytes.ofNatBE_natBE (data.cut place 32)
    rw [size, ← count] at small word
    exact ⟨word.symm, small, each.mp read⟩
  · rintro ⟨word, small, row⟩
    have there : wordAt data place = .ok (wordOf items.length) :=
      wordAt_eq_ok_iff.mpr ⟨length_wordOf _, word⟩
    rw [listAt, there, ok_bind, natBE_wordOf small]
    exact wordsFrom_eq_ok_iff.mpr ⟨rfl, each.mpr row⟩

/-- A query is read exactly from the row of its eight words. -/
theorem queried_iff {data : Bytes} {q : Query} :
    Queried data q ↔ q.identifier.toNat < 256 ∧ data.cut 32 256 = (queryWords q).flatten := by
  have widths : ∀ w ∈ queryWords q, w.length = 32 := by
    simp only [queryWords, List.forall_mem_cons, length_wordOf, true_and, List.not_mem_nil,
      false_implies, implies_true]
  have row : data.cut 32 256 = (queryWords q).flatten ↔
      ∀ i w, (queryWords q)[i]? = some w → data.cut (32 + 32 * i) 32 = w :=
    cut_eq_flatten_iff widths 32
  rw [row]
  constructor
  · intro queried
    have word {width place n : ℕ} (narrow : width ≤ 32) (h : narrowAt width data place = .ok n) :
        data.cut place 32 = wordOf n := ((narrowAt_eq_ok_iff narrow).mp h).2
    refine ⟨queried.narrow, fun i w there => ?_⟩
    rcases i with _ | _ | _ | _ | _ | _ | _ | _ | i
    · cases there
      exact word (by decide) queried.contract
    · cases there
      exact word (by decide) queried.user
    · cases there
      exact word (by decide) queried.client
    · cases there
      exact word (by decide) queried.minBlock
    · cases there
      exact word (by decide) queried.maxBlock
    · cases there
      exact word (by decide) queried.blockHash
    · cases there
      exact word (by decide) queried.rewardsRate
    · cases there
      exact word (by decide) queried.identifier
    · cases there
  · rintro ⟨narrow, each⟩
    exact
      { contract := (narrowAt_eq_ok_iff (by decide)).mpr ⟨q.contract.bits.isLt, each 0 _ rfl⟩
        user := (narrowAt_eq_ok_iff (by decide)).mpr ⟨q.user.bits.isLt, each 1 _ rfl⟩
        client := (narrowAt_eq_ok_iff (by decide)).mpr ⟨q.client.bits.isLt, each 2 _ rfl⟩
        minBlock := (narrowAt_eq_ok_iff (by decide)).mpr ⟨q.minBlock.isLt, each 3 _ rfl⟩
        maxBlock := (narrowAt_eq_ok_iff (by decide)).mpr ⟨q.maxBlock.isLt, each 4 _ rfl⟩
        blockHash := (narrowAt_eq_ok_iff (by decide)).mpr ⟨q.blockHash.isLt, each 5 _ rfl⟩
        rewardsRate := (narrowAt_eq_ok_iff (by decide)).mpr ⟨q.rewardsRate.isLt, each 6 _ rfl⟩
        identifier := (narrowAt_eq_ok_iff (by decide)).mpr ⟨narrow, each 7 _ rfl⟩ }

/-! ## Calls -/

/-- What stands behind the selector. -/
def body (call : Bytes) : Bytes :=
  call.drop 4

/-- A call that holds a bundle and a query: behind the selector the first word points to the length
of the bundle and its words, the eight words behind it are those of the query. -/
structure Located (call : Bytes) (b : Bundle) (q : Query) : Prop where
  selector : call.take 4 = selector
  query : (body call).cut 32 256 = (queryWords q).flatten
  narrow : q.identifier.toNat < 256
  behind : 64 ≤ place (body call)
  length : (body call).cut (place (body call)) 32 = wordOf 23
  words : (body call).cut (place (body call) + 32) 736 = b.toBuffer

theorem arguments_eq_ok_iff {data : Bytes} {b : Bundle} {q : Query} :
    arguments data = .ok (b.words, q) ↔
      q.identifier.toNat < 256 ∧ data.cut 32 256 = (queryWords q).flatten ∧ 64 ≤ place data ∧
        data.cut (place data) 32 = wordOf 23 ∧ data.cut (place data + 32) 736 = b.toBuffer := by
  have items : listAt data (place data) = .ok b.words ↔
      data.cut (place data) 32 = wordOf 23 ∧ data.cut (place data + 32) 736 = b.toBuffer := by
    rw [listAt_eq_ok_iff, b.count]
    exact ⟨fun ⟨length, _, _, row⟩ => ⟨length, row⟩,
      fun ⟨length, row⟩ => ⟨length, by norm_num, b.widths, row⟩⟩
  constructor
  · intro read
    obtain ⟨p, pointed, read⟩ := bind_eq_ok.mp read
    obtain ⟨q', asked, read⟩ := bind_eq_ok.mp read
    obtain ⟨ws, listed, read⟩ := bind_eq_ok.mp read
    cases read
    obtain ⟨rfl, _, behind, _⟩ := pointer_eq_ok_iff.mp pointed
    obtain ⟨narrow, row⟩ := queried_iff.mp (queryAt_eq_ok_iff.mp asked)
    exact ⟨narrow, row, behind, items.mp listed⟩
  · rintro ⟨narrow, row, behind, list⟩
    -- A word in the data that the pointer leads to is all it takes for both of its bounds.
    have size := congrArg List.length list.1
    rw [length_wordOf, Bytes.cut, List.length_take, List.length_drop] at size
    have pointed : pointer 64 data = .ok (place data) :=
      pointer_eq_ok_iff.mpr ⟨rfl, by omega, behind, by omega⟩
    rw [arguments, pointed, ok_bind, queryAt_eq_ok_iff.mpr (queried_iff.mpr ⟨narrow, row⟩), ok_bind,
      items.mpr list]
    rfl

/-- Nothing but the words of a bundle is read as that bundle. -/
theorem ofWordList_bytes_iff {ws : List Bytes} {b : Bundle} (widths : ∀ w ∈ ws, w.length = 32) :
    Bundle.ofWordList (ws.map Value.bytes) = .ok b ↔ ws = b.words := by
  have read := Word.ofValues_written widths (Word.written_bytes ws) true 0
  rw [Bundle.ofWordList, read, ok_bind, Bundle.check_eq_ok_iff, eq_comm]

theorem decode_named {call : Bytes} (named : call.take 4 = selector) :
    decode call =
      match arguments (body call) with
      | .error e => .error (.undecodable e)
      | .ok (ws, q) => (Bundle.ofWordList (ws.map Value.bytes)).map fun b => (b, q) := by
  have read := decode_selector (body call)
  rwa [← named, body, List.take_append_drop] at read

theorem decode_unnamed {call : Bytes} (other : call.take 4 ≠ selector) :
    decode call = .error (.wrongSelector (call.take 4)) := by
  rw [decode, if_pos other]
  rfl

theorem decode_eq_ok_iff {call : Bytes} {b : Bundle} {q : Query} :
    decode call = .ok (b, q) ↔
      call.take 4 = selector ∧ arguments (body call) = .ok (b.words, q) := by
  by_cases named : call.take 4 = selector
  · rw [decode_named named]
    cases read : arguments (body call) with
    | error e => simp
    | ok r =>
      obtain ⟨ws, q'⟩ := r
      have widths : ∀ w ∈ ws, w.length = 32 := by
        obtain ⟨_, _, read⟩ := bind_eq_ok.mp read
        obtain ⟨_, _, read⟩ := bind_eq_ok.mp read
        obtain ⟨_, listed, read⟩ := bind_eq_ok.mp read
        cases read
        exact (listAt_eq_ok_iff.mp listed).2.2.1
      simp only [map_eq_ok, named, true_and, Except.ok.injEq, Prod.mk.injEq,
        ofWordList_bytes_iff widths]
      constructor
      · rintro ⟨b', rfl, rfl, rfl⟩
        exact ⟨rfl, rfl⟩
      · rintro ⟨rfl, rfl⟩
        exact ⟨b, rfl, rfl, rfl⟩
  · rw [decode_unnamed named]
    simp [named]

/-- No call fails in another way. -/
theorem kind_of_decode {call : Bytes} {e : Failure} (h : decode call = .error e) :
    e.kind = .malformedBundle := by
  by_cases named : call.take 4 = selector
  · rw [decode_named named] at h
    cases read : arguments (body call) with
    | error d =>
      rw [read] at h
      cases h
      rfl
    | ok r =>
      rw [read] at h
      exact Bundle.kind_of_ofWordList (map_eq_error.mp h)
  · rw [decode_unnamed named] at h
    cases h
    rfl

/-- **Acceptance.** Any bytes in hexadecimal are a call that is accepted for the bundle and the
query that it holds, or are told to be malformed. -/
theorem accepted_or_malformed {call : Bytes} {t : Text} (spelled : Hex.Spells call t) :
    (∀ b q, ofValue (.text t) = .ok (b, q) ↔ Located call b q) ∧
    ∀ e, ofValue (.text t) = .error e → e.kind = .malformedBundle := by
  rw [ofValue, Word.looseBytes_of_spells spelled, ok_bind]
  refine ⟨fun b q => ?_, fun e => kind_of_decode⟩
  rw [decode_eq_ok_iff, arguments_eq_ok_iff]
  constructor
  · rintro ⟨selector, narrow, query, behind, length, words⟩
    exact { selector, query, narrow, behind, length, words }
  · intro located
    exact ⟨located.selector, located.narrow, located.query, located.behind, located.length,
      located.words⟩

/-- A call whose list overlaps its head is accepted, and cut off behind its selector it is not. -/
theorem accepted_or_malformed_sample :
    Located (selector ++ Sample.overlap.flatten) Sample.zeros (Sample.asked 23 0 0) ∧
    (∀ e, ofValue (.text (Hex.encode selector)) = .error e → e.kind = .malformedBundle) ∧
    ∃ e, ofValue (.text (Hex.encode selector)) = .error e := by
  have read : ofValue (.text (Hex.marked (selector ++ Sample.overlap.flatten))) =
      .ok (Sample.zeros, Sample.asked 23 0 0) := by
    rw [ofValue, Word.looseBytes_of_spells (Hex.spells_marked _), ok_bind, decode_eq_ok_iff,
      List.take_left' length_selector, body, List.drop_left' length_selector]
    exact ⟨rfl, Sample.holds_overlap.arguments⟩
  refine ⟨((accepted_or_malformed (Hex.spells_marked _)).1 _ _).mp read,
    (accepted_or_malformed (Hex.spells_encode selector)).2, ?_⟩
  rw [ofValue, Word.looseBytes_of_spells (Hex.spells_encode _), ok_bind]
  have alone := decode_selector []
  rw [List.append_nil] at alone
  exact ⟨_, alone⟩

end Calldata

end ProofGate
