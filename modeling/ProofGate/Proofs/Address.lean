import ProofGate.Address
import ProofGate.Proofs.Bytes
import ProofGate.Proofs.Hex

/-!
# Address texts

An address is read back from its checksum text: capitals carry the check and no digit depends on
them. Two addresses therefore have the same text only if they are the same, which is what lets a
gate compare texts where account ids are meant.
-/

namespace ProofGate

/-! ## The length of a digest -/

theorem Keccak.length_digest (message : Bytes) : (Keccak.digest message).length = 32 := by
  have words (ws : List UInt64) :
      (ws.flatMap fun w => Bytes.ofNatLE 8 w.toNat).length = 8 * ws.length := by
    induction ws with
    | nil => rfl
    | cons w ws ih =>
      rw [List.flatMap_cons, List.length_append, ih, Bytes.length_ofNatLE, List.length_cons]
      omega
  rw [Keccak.digest, words, List.length_take, Vector.length_toList]
  rfl

namespace Address

/-! ## Bytes -/

@[simp] theorem length_toBytes (a : Address) : a.toBytes.length = 20 := Bytes.length_ofNatBE ..

theorem ofBytes_toBytes (a : Address) : ofBytes a.toBytes = a := by
  have wide : a.bits.toNat < 256 ^ 20 := a.bits.isLt
  rw [ofBytes, toBytes, Bytes.natBE_ofNatBE, Nat.mod_eq_of_lt wide, ofNat, BitVec.ofNat_toNat,
    BitVec.setWidth_eq]

theorem toBytes_ofBytes {bs : Bytes} (h : bs.length = 20) : (ofBytes bs).toBytes = bs := by
  have wide : Bytes.natBE bs < 2 ^ 160 := by
    have := Bytes.natBE_lt bs
    rw [h] at this
    exact this
  rw [toBytes, ofBytes, ofNat, BitVec.toNat_ofNat, Nat.mod_eq_of_lt wide, ← h,
    Bytes.ofNatBE_natBE]

/-! ## Texts -/

/-- A raised digit counts what it counted before. -/
theorem value_raised {d : ℕ} (h : d < 16) (n : ℕ) :
    Hex.value? (if 8 ≤ n then (Numeral.digit d).toUpper else Numeral.digit d) = some d := by
  split
  · exact Hex.value_digit_toUpper d h
  · exact Hex.value_digit d h

/-- A byte is two digits, so two nibbles of the digest are used up at a time. -/
theorem exists_raise {ns : List ℕ} {b : UInt8} {bs : Bytes}
    (h : 2 * (b :: bs).length ≤ ns.length) :
    ∃ m n rest, 2 * bs.length ≤ rest.length ∧ raise ns (Hex.digits (b :: bs)) =
      (if 8 ≤ m then (Numeral.digit (b.toNat / 16)).toUpper else Numeral.digit (b.toNat / 16)) ::
      (if 8 ≤ n then (Numeral.digit (b.toNat % 16)).toUpper else Numeral.digit (b.toNat % 16)) ::
        raise rest (Hex.digits bs) := by
  match ns, h with
  | m :: n :: rest, h =>
    refine ⟨m, n, rest, ?_, rfl⟩
    simp only [List.length_cons] at h
    omega

theorem pairs_raise (ns : List ℕ) (bs : Bytes) (h : 2 * bs.length ≤ ns.length) :
    Hex.pairs? (raise ns (Hex.digits bs)) = some bs := by
  induction bs generalizing ns with
  | nil => rfl
  | cons b bs ih =>
    obtain ⟨m, n, rest, enough, raised⟩ := exists_raise h
    have hb : b.toNat < 256 := b.toNat_lt
    rw [raised, Hex.pairs_cons (value_raised (by omega) m) (value_raised (by omega) n),
      ih rest enough]
    rfl

theorem length_nibbles (bs : Bytes) : (nibbles bs).length = 2 * bs.length := by
  induction bs with
  | nil => rfl
  | cons b bs ih =>
    rw [nibbles, List.flatMap_cons, List.length_append, ← nibbles, ih, List.length_cons]
    simp only [List.length_cons, List.length_nil]
    omega

theorem pairs_checksumDigits (a : Address) : Hex.pairs? a.checksumDigits = some a.toBytes := by
  unfold checksumDigits
  apply pairs_raise
  rw [length_nibbles, Keccak.length_digest, length_toBytes]
  decide

@[simp] theorem length_checksumDigits (a : Address) : a.checksumDigits.length = 40 := by
  simp [checksumDigits, raise, length_nibbles, Keccak.length_digest]

/-- **Reading back.** The checksum text of an address spells that address. -/
theorem ofText_checksum (a : Address) : ofText? a.checksum = some a := by
  have body : Text.chars (Hex.dropMark a.checksum) = a.checksumDigits := by
    show Text.chars (Text.ofChars a.checksumDigits) = _
    rw [Text.chars_ofChars]
  rw [ofText?, body, ofDigits?, if_pos (length_checksumDigits a), pairs_checksumDigits,
    Option.map_some, ofBytes_toBytes]

/-- An address is taken from a text exactly if the text spells it; a text without digits, or with
too few, is refused. -/
theorem normalizeText_eq_ok_iff {t : Text} {a : Address} :
    normalizeText t = .ok a ↔ ofText? t = some a := by
  unfold normalizeText ofText?
  generalize Text.chars (Hex.dropMark t) = body
  dsimp only
  cases read : ofDigits? body with
  | none => split <;> simp
  | some b =>
    have digits : body.all Hex.isDigit = true := by
      unfold ofDigits? at read
      split at read
      · obtain ⟨bs, pairs, _⟩ := Option.map_eq_some_iff.mp read
        exact List.all_eq_true.mpr (Hex.digits_of_pairs pairs).1
      · cases read
    rw [if_pos digits]
    simp

theorem checksum_inj {a b : Address} : a.checksum = b.checksum ↔ a = b := by
  constructor
  · intro h
    have same : some a = some b := by rw [← ofText_checksum a, ← ofText_checksum b, h]
    exact Option.some.inj same
  · rintro rfl
    rfl

/-- Twenty bytes spell an address exactly if they are its bytes. -/
theorem ofBytes_eq_iff {bs : Bytes} (h : bs.length = 20) {a : Address} :
    ofBytes bs = a ↔ bs = a.toBytes := by
  constructor
  · rintro rfl
    rw [toBytes_ofBytes h]
  · rintro rfl
    rw [ofBytes_toBytes]

end Address

end ProofGate
