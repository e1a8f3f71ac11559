import ProofGate.Calldata
import ProofGate.Proofs.Address
import ProofGate.Proofs.Word

/-!
# Call data read back

A call is a row of words behind a selector, and every word stands where the reader looks for it: the
eight of the query behind the pointer, the list with its length where the pointer says. A call that
can be written is therefore read as what it was written from. What is read of any other call,
however it is laid out, can be written, because no number that is read is wider than its place.
-/

namespace ProofGate

namespace Bytes

/-- A number that fits in fewer bytes leaves zeros in front. -/
theorem ofNatBE_of_lt {low n : ℕ} (h : n < 256 ^ low) (high : ℕ) :
    ofNatBE (low + high) n = zeros high ++ ofNatBE low n := by
  rw [ofNatBE, ofNatLE_of_lt h, List.reverse_append, zeros, List.reverse_replicate]
  rfl

end Bytes

namespace Calldata

/-! ## Words in a row -/

theorem wordAt_append {w : Bytes} (size : w.length = 32) (front rest : Bytes) :
    wordAt (front ++ (w ++ rest)) front.length = .ok w := by
  have there : (front ++ (w ++ rest)).cut front.length 32 = w := by
    rw [← Nat.add_zero front.length, Bytes.cut_append_right, Bytes.cut_zero, List.take_left' size]
  simp only [wordAt]
  rw [there, if_pos size]

/-- In a row of words each is found at its place. -/
theorem wordAt_flatten {row : List Bytes} (widths : ∀ w ∈ row, w.length = 32) {i : ℕ}
    {w : Bytes} (h : row[i]? = some w) : wordAt row.flatten (32 * i) = .ok w := by
  have size : w.length = 32 := widths w (List.mem_of_getElem? h)
  simp only [wordAt]
  rw [Bytes.cut_flatten widths h, if_pos size]

theorem length_of_wordAt {data : Bytes} {place : ℕ} {w : Bytes} (h : wordAt data place = .ok w) :
    w.length = 32 := by
  simp only [wordAt] at h
  split at h
  · next size =>
    cases h
    exact size
  · cases h

theorem wordsFrom_append {ws : List Bytes} (widths : ∀ w ∈ ws, w.length = 32)
    (front rest : Bytes) :
    wordsFrom (front ++ (ws.flatten ++ rest)) front.length ws.length = .ok ws := by
  induction ws generalizing front with
  | nil => rfl
  | cons w ws ih =>
    rw [List.forall_mem_cons] at widths
    obtain ⟨size, widths⟩ := widths
    have next := ih widths (front ++ w)
    rw [List.length_append, size, List.append_assoc] at next
    rw [List.flatten_cons, List.append_assoc, List.length_cons, wordsFrom, wordAt_append size,
      ok_bind, next, ok_bind]
    rfl

/-! ## Numbers in words -/

theorem length_wordOf (n : ℕ) : (wordOf n).length = 32 := Bytes.length_ofNatBE ..

theorem natBE_wordOf {n : ℕ} (small : n < 2 ^ 256) : (wordOf n).natBE = n := by
  have inside : n < 256 ^ 32 := small
  rw [wordOf, Bytes.natBE_ofNatBE, Nat.mod_eq_of_lt inside]

/-- A number that fits in the bytes read of a word is read from it. -/
theorem narrowAt_wordOf {width : ℕ} (narrow : width ≤ 32) {data : Bytes} {place n : ℕ}
    (there : wordAt data place = .ok (wordOf n)) (small : n < 256 ^ width) :
    narrowAt width data place = .ok n := by
  obtain ⟨high, whole⟩ := Nat.exists_eq_add_of_le narrow
  have parts : wordOf n = Bytes.zeros high ++ Bytes.ofNatBE width n := by
    rw [wordOf, whole, Bytes.ofNatBE_of_lt small]
  have front : 32 - width = high := by omega
  have blank : (Bytes.zeros high).all (· == 0) = true := by
    rw [List.all_eq_true]
    intro b hb
    rw [List.eq_of_mem_replicate hb]
    rfl
  rw [narrowAt, there, ok_bind, parts, front]
  simp only [List.take_left' (Bytes.length_zeros high), List.drop_left' (Bytes.length_zeros high)]
  rw [if_pos blank, Bytes.natBE_ofNatBE, Nat.mod_eq_of_lt small]
  rfl

/-- No number is read that is wider than its place. -/
theorem lt_of_narrowAt {width : ℕ} (narrow : width ≤ 32) {data : Bytes} {place n : ℕ}
    (h : narrowAt width data place = .ok n) : n < 256 ^ width := by
  obtain ⟨w, there, h⟩ := bind_eq_ok.mp h
  have size : (w.drop (32 - width)).length = width := by
    rw [List.length_drop, length_of_wordAt there]
    omega
  have bound := Bytes.natBE_lt (w.drop (32 - width))
  rw [size] at bound
  dsimp only at h
  split at h
  · cases h
    exact bound
  · cases h

/-- A number is kept if there is room for its bytes. -/
theorem toNat_of_narrowAt {width : ℕ} (narrow : width ≤ 32) {data : Bytes} {place n : ℕ}
    (h : narrowAt width data place = .ok n) {k : ℕ} (room : 8 * width ≤ k) :
    (BitVec.ofNat k n).toNat = n := by
  have bound : n < 2 ^ (8 * width) := by
    rw [Nat.pow_mul]
    exact lt_of_narrowAt narrow h
  rw [BitVec.toNat_ofNat, Nat.mod_eq_of_lt (lt_of_lt_of_le bound (Nat.pow_le_pow_right two_pos room))]

/-! ## Lists -/

/-- A pointer is read from the first word if it points into the words. -/
theorem pointer_flatten {words : List Bytes} (widths : ∀ w ∈ words, w.length = 32) {least place : ℕ}
    (first : words[0]? = some (wordOf place)) (low : least ≤ place)
    (high : place < 32 * words.length) (few : words.length < 2 ^ 64) :
    pointer least words.flatten = .ok place := by
  have zeroth : wordAt words.flatten (32 * 0) = .ok (wordOf place) := wordAt_flatten widths first
  rw [pointer, zeroth, ok_bind, natBE_wordOf (by omega), Bytes.length_flatten widths]
  dsimp only
  rw [if_pos ⟨low, high⟩]
  rfl

/-- A list is read where its length stands in front of it, whatever there is around. -/
theorem listAt_flatten {front items rest : List Bytes}
    (widths : ∀ w ∈ front ++ wordOf items.length :: (items ++ rest), w.length = 32)
    (few : items.length < 2 ^ 64) :
    listAt (front ++ wordOf items.length :: (items ++ rest)).flatten (32 * front.length) =
      .ok items := by
  have length : wordAt (front ++ wordOf items.length :: (items ++ rest)).flatten
      (32 * front.length) = .ok (wordOf items.length) := by
    refine wordAt_flatten widths ?_
    rw [List.getElem?_append_right (Nat.le_refl _), Nat.sub_self]
    rfl
  have head : ∀ w ∈ front ++ [wordOf items.length], w.length = 32 := by
    rw [List.forall_mem_append, List.forall_mem_cons] at widths
    rw [List.forall_mem_append, List.forall_mem_singleton]
    exact ⟨widths.1, widths.2.1⟩
  have inside : ∀ w ∈ items, w.length = 32 := by
    rw [List.forall_mem_append, List.forall_mem_cons, List.forall_mem_append] at widths
    exact widths.2.2.1
  have flat : (front ++ wordOf items.length :: (items ++ rest)).flatten =
      (front ++ [wordOf items.length]).flatten ++ (items.flatten ++ rest.flatten) := by
    rw [← List.flatten_append, ← List.flatten_append, List.append_assoc, List.singleton_append]
  have read := wordsFrom_append inside (front ++ [wordOf items.length]).flatten rest.flatten
  rw [← flat, Bytes.length_flatten head, List.length_append, List.length_singleton,
    Nat.mul_succ] at read
  rw [listAt, length, ok_bind, natBE_wordOf (by omega)]
  exact read

/-! ## Queries -/

/-- The eight words behind the pointer hold the members of a query, none of them cut off. -/
structure Queried (data : Bytes) (q : Query) : Prop where
  contract : narrowAt 20 data 32 = .ok q.contract.bits.toNat
  user : narrowAt 20 data 64 = .ok q.user.bits.toNat
  client : narrowAt 20 data 96 = .ok q.client.bits.toNat
  minBlock : narrowAt 4 data 128 = .ok q.minBlock.toNat
  maxBlock : narrowAt 4 data 160 = .ok q.maxBlock.toNat
  blockHash : narrowAt 32 data 192 = .ok q.blockHash.toNat
  rewardsRate : narrowAt 32 data 224 = .ok q.rewardsRate.toNat
  identifier : narrowAt 1 data 256 = .ok q.identifier.toNat

/-- **Queries.** A query is read exactly where its members stand. -/
theorem queryAt_eq_ok_iff {data : Bytes} {q : Query} : queryAt data = .ok q ↔ Queried data q := by
  constructor
  · intro h
    obtain ⟨contract, hcontract, h⟩ := bind_eq_ok.mp h
    obtain ⟨user, huser, h⟩ := bind_eq_ok.mp h
    obtain ⟨client, hclient, h⟩ := bind_eq_ok.mp h
    obtain ⟨minBlock, hminBlock, h⟩ := bind_eq_ok.mp h
    obtain ⟨maxBlock, hmaxBlock, h⟩ := bind_eq_ok.mp h
    obtain ⟨blockHash, hblockHash, h⟩ := bind_eq_ok.mp h
    obtain ⟨rewardsRate, hrewardsRate, h⟩ := bind_eq_ok.mp h
    obtain ⟨identifier, hidentifier, h⟩ := bind_eq_ok.mp h
    cases h
    -- Each member is as wide as its place or wider, so the number that is read fits into it.
    have kept {width k place n : ℕ} (narrow : width ≤ 32) (room : 8 * width ≤ k)
        (h : narrowAt width data place = .ok n) :
        narrowAt width data place = .ok (BitVec.ofNat k n).toNat := by
      rw [toNat_of_narrowAt narrow h room, h]
    exact
      { contract := kept (by decide) (by decide) hcontract
        user := kept (by decide) (by decide) huser
        client := kept (by decide) (by decide) hclient
        minBlock := kept (by decide) (by decide) hminBlock
        maxBlock := kept (by decide) (by decide) hmaxBlock
        blockHash := kept (by decide) (by decide) hblockHash
        rewardsRate := kept (by decide) (by decide) hrewardsRate
        identifier := kept (by decide) (by decide) hidentifier }
  · intro h
    rw [queryAt, h.contract, h.user, h.client, h.minBlock, h.maxBlock, h.blockHash, h.rewardsRate,
      h.identifier]
    simp only [ok_bind, Address.ofNat, BitVec.ofNat_toNat, BitVec.setWidth_eq]
    rfl

/-- The identifier that is read is a byte. -/
theorem Queried.narrow {data : Bytes} {q : Query} (h : Queried data q) : q.identifier.toNat < 256 :=
  lt_of_narrowAt (by decide) h.identifier

/-! ## Arguments -/

/-- Words that hold a list and a query: the first is a pointer to the length of the list, the eight
behind it are those of the query. The list may stand anywhere behind the second word. -/
structure Holds (words items : List Bytes) (q : Query) : Prop where
  widths : ∀ w ∈ words, w.length = 32
  query : (words.drop 1).take 8 = queryWords q
  narrow : q.identifier.toNat < 256
  list : ∃ front rest, words = front ++ wordOf items.length :: (items ++ rest) ∧
    2 ≤ front.length ∧ words[0]? = some (wordOf (32 * front.length))
  few : words.length < 2 ^ 64

namespace Holds

variable {words items : List Bytes} {q : Query}

theorem queried (holds : Holds words items q) : Queried words.flatten q := by
  have word {i : ℕ} {w : Bytes} (inside : i < 8) (h : (queryWords q)[i]? = some w) :
      wordAt words.flatten (32 * (1 + i)) = .ok w := by
    refine wordAt_flatten holds.widths ?_
    rw [← List.getElem?_drop, ← List.getElem?_take_of_lt inside, holds.query, h]
  exact
    { contract := narrowAt_wordOf (by decide) (word (i := 0) (by decide) rfl) q.contract.bits.isLt
      user := narrowAt_wordOf (by decide) (word (i := 1) (by decide) rfl) q.user.bits.isLt
      client := narrowAt_wordOf (by decide) (word (i := 2) (by decide) rfl) q.client.bits.isLt
      minBlock := narrowAt_wordOf (by decide) (word (i := 3) (by decide) rfl) q.minBlock.isLt
      maxBlock := narrowAt_wordOf (by decide) (word (i := 4) (by decide) rfl) q.maxBlock.isLt
      blockHash := narrowAt_wordOf (by decide) (word (i := 5) (by decide) rfl) q.blockHash.isLt
      rewardsRate := narrowAt_wordOf (by decide) (word (i := 6) (by decide) rfl) q.rewardsRate.isLt
      identifier := narrowAt_wordOf (by decide) (word (i := 7) (by decide) rfl) holds.narrow }

/-- **Arguments.** The list and the query are read from the words that hold them. -/
theorem arguments (holds : Holds words items q) :
    arguments words.flatten = .ok (items, q) := by
  have query := queryAt_eq_ok_iff.mpr holds.queried
  obtain ⟨widths, _, _, ⟨front, rest, rfl, behind, first⟩, few⟩ := holds
  have size : (front ++ wordOf items.length :: (items ++ rest)).length =
      front.length + (items.length + rest.length + 1) := by
    rw [List.length_append, List.length_cons, List.length_append]
  have pointer := pointer_flatten widths first (by omega : 64 ≤ 32 * front.length) (by omega) few
  have list := listAt_flatten widths (by omega)
  rw [Calldata.arguments, pointer, ok_bind, query, ok_bind, list, ok_bind]
  rfl

end Holds

/-! ## Calls -/

theorem length_selector : selector.length = 4 := by
  rw [selector, List.length_take, Keccak.length_digest]
  rfl

theorem decode_selector (data : Bytes) :
    decode (selector ++ data) =
      match arguments data with
      | .error e => .error (.undecodable e)
      | .ok (ws, q) => (Bundle.ofWordList (ws.map Value.bytes)).map fun b => (b, q) := by
  have front : (selector ++ data).take 4 = selector := List.take_left' length_selector
  have back : (selector ++ data).drop 4 = data := List.drop_left' length_selector
  rw [decode, front, back, if_neg (not_not_intro rfl)]
  cases arguments data with
  | error e => rfl
  | ok r => cases h : Bundle.ofWordList (r.1.map Value.bytes) <;> simp [h]

/-- The words behind the selector of a call that is written. -/
def row (b : Bundle) (q : Query) : List Bytes :=
  wordOf 288 :: queryWords q ++ wordOf 23 :: b.words

theorem encode_eq_row {b : Bundle} {q : Query} (narrow : q.identifier.toNat < 256) :
    encode b q = .ok (selector ++ (row b q).flatten) := by
  rw [encode, if_pos narrow, listWords, b.count, row, List.flatten_append, List.flatten_cons,
    List.flatten_cons, List.append_assoc, List.append_assoc, List.append_assoc]

theorem holds_row {b : Bundle} {q : Query} (narrow : q.identifier.toNat < 256) :
    Holds (row b q) b.words q := by
  have front : ∀ w ∈ wordOf 288 :: queryWords q, w.length = 32 := by
    simp only [queryWords, List.forall_mem_cons, length_wordOf, true_and, List.not_mem_nil,
      false_implies, implies_true]
  constructor
  case widths =>
    exact List.forall_mem_append.mpr
      ⟨front, List.forall_mem_cons.mpr ⟨length_wordOf 23, b.widths⟩⟩
  case query => rfl
  case narrow => exact narrow
  case list =>
    refine ⟨wordOf 288 :: queryWords q, [], ?_, by simp [queryWords], rfl⟩
    rw [b.count, List.append_nil, row]
  case few =>
    rw [row, List.length_append, List.length_cons, List.length_cons, b.count]
    exact (by decide : 8 + 1 + (23 + 1) < 2 ^ 64)

/-- **Calls are read back.** -/
theorem decode_row {b : Bundle} {q : Query} (narrow : q.identifier.toNat < 256) :
    decode (selector ++ (row b q).flatten) = .ok (b, q) := by
  rw [decode_selector, (holds_row narrow).arguments]
  dsimp only
  rw [Bundle.ofWordList_written b (Word.written_bytes b.words)]
  rfl

theorem identifier_of_decode {call : Bytes} {b : Bundle} {q : Query} (h : decode call = .ok (b, q)) :
    q.identifier.toNat < 256 := by
  by_cases named : call.take 4 = selector
  · rw [← List.take_append_drop 4 call, named, decode_selector] at h
    cases read : arguments (call.drop 4) with
    | error e =>
      rw [read] at h
      cases h
    | ok r =>
      rw [read] at h
      obtain ⟨_, _, same⟩ := map_eq_ok.mp h
      obtain ⟨_, _, read⟩ := bind_eq_ok.mp read
      obtain ⟨q', queried, read⟩ := bind_eq_ok.mp read
      obtain ⟨_, _, read⟩ := bind_eq_ok.mp read
      cases read
      cases same
      exact (queryAt_eq_ok_iff.mp queried).narrow
  · rw [decode, if_pos named] at h
    cases h

/-- A call with an identifier of one byte is written as a text that is read back. -/
theorem ofValue_text {b : Bundle} {q : Query} (narrow : q.identifier.toNat < 256) :
    ∃ t, encodeText b q = .ok t ∧ ofValue (.text t) = .ok (b, q) := by
  refine ⟨Hex.marked (selector ++ (row b q).flatten), ?_, ?_⟩
  · rw [encodeText, encode_eq_row narrow, map_ok]
  · rw [ofValue, Word.looseBytes_of_spells (Hex.spells_marked _), ok_bind, decode_row narrow]

/-- **Round trip.** A call is written exactly if its identifier is a byte, and is then read as what
it was written from. Whatever is read of any other call is written again and read as the same. -/
theorem ofValue_encodeText :
    (∀ (b : Bundle) (q : Query), q.identifier.toNat < 256 →
      ∃ t, encodeText b q = .ok t ∧ ofValue (.text t) = .ok (b, q)) ∧
    (∀ (b : Bundle) (q : Query), 256 ≤ q.identifier.toNat →
      encodeText b q = .error .outOfBounds) ∧
    ∀ (v : Value) (b : Bundle) (q : Query), ofValue v = .ok (b, q) →
      ∃ t, encodeText b q = .ok t ∧ ofValue (.text t) = .ok (b, q) := by
  refine ⟨fun b q narrow => ofValue_text narrow, ?wide, ?again⟩
  case wide =>
    intro b q wide
    rw [encodeText, encode, if_neg (by omega)]
    rfl
  case again =>
    intro v b q read
    obtain ⟨call, _, read⟩ := bind_eq_ok.mp read
    exact ofValue_text (identifier_of_decode read)

end Calldata

/-! ## Calls of the sample -/

namespace Sample

/-- A bundle of zeros but for its last byte, which is filling. -/
def filled : Bundle where
  words := List.replicate 22 (Bytes.zeros 32) ++ [Bytes.zeros 31 ++ [1]]
  count := rfl
  widths := by decide

/-- A query on behalf of another client. -/
def asked (user client identifier : ℕ) : Query where
  contract := .ofNat 0
  user := .ofNat user
  client := .ofNat client
  minBlock := 0
  maxBlock := 0
  blockHash := 0
  rewardsRate := 0
  identifier := .ofNat 256 identifier

def zeros : Bundle where
  words := List.replicate 23 (Bytes.zeros 32)
  count := rfl
  widths := by decide

/-- Words of which the first points at the third: the user is the length of the list as well. -/
def overlap : List Bytes :=
  [Calldata.wordOf 64, Calldata.wordOf 0] ++ Calldata.wordOf 23 :: (zeros.words ++ [])

theorem holds_overlap : Calldata.Holds overlap zeros.words (asked 23 0 0) where
  widths := by decide
  query := by decide
  narrow := by decide
  list := ⟨[Calldata.wordOf 64, Calldata.wordOf 0], [], rfl, by decide, rfl⟩
  few := by decide

end Sample

namespace Calldata

/-- Filling and clients are kept, an identifier of two bytes is not written, and a call whose list
overlaps its head is written in another form. -/
theorem ofValue_encodeText_sample :
    (∃ t, encodeText Sample.filled (Sample.asked 1 2 88) = .ok t ∧
      ofValue (.text t) = .ok (Sample.filled, Sample.asked 1 2 88)) ∧
    encodeText Sample.filled (Sample.asked 1 2 256) = .error .outOfBounds ∧
    ofValue (.bytes (selector ++ Sample.overlap.flatten)) = .ok (Sample.zeros, Sample.asked 23 0 0) ∧
    ∃ t, encodeText Sample.zeros (Sample.asked 23 0 0) = .ok t ∧
      ofValue (.text t) = .ok (Sample.zeros, Sample.asked 23 0 0) := by
  obtain ⟨written, wide, again⟩ := ofValue_encodeText
  have read : ofValue (.bytes (selector ++ Sample.overlap.flatten)) =
      .ok (Sample.zeros, Sample.asked 23 0 0) := by
    rw [ofValue, Word.looseBytes, ok_bind, decode_selector, Sample.holds_overlap.arguments]
    dsimp only
    rw [Bundle.ofWordList_written Sample.zeros (Word.written_bytes _)]
    rfl
  exact ⟨written _ _ (by decide), wide _ _ (by decide), read, again _ _ _ read⟩

end Calldata

end ProofGate
