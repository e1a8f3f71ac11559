import ProofGate.Proofs.Digits
import ProofGate.Proofs.Matching
import ProofGate.Proofs.Query

/-!
# Account ids compared

An account id reaches the gate twice: in the query, in one of several forms, and in the statement,
in five digits. Both are written as texts before they are compared. Whatever letters that writing
raises, the texts are equal exactly if the number in the query is the one that the digits add up to.
-/

namespace ProofGate

/-! ## Casings -/

namespace Address

/-- A way to write account ids: their forty digits with any of the letters raised. -/
structure Casing where
  digits : Address → List Char
  cased : ∀ a, (digits a).map Char.toLower = Hex.digits a.toBytes

/-- The text of an account id, behind a mark. -/
def Casing.write (c : Casing) (a : Address) : Text :=
  Text.ofChars ('0' :: 'x' :: c.digits a)

/-- **Casings keep account ids apart.** Two account ids are written alike only if they are one. -/
theorem Casing.write_inj (c : Casing) {a b : Address} : c.write a = c.write b ↔ a = b := by
  constructor
  · intro same
    have texts := congrArg Text.chars same
    rw [write, write, Text.chars_ofChars, Text.chars_ofChars, List.cons.injEq, List.cons.injEq]
      at texts
    have digits : Hex.digits a.toBytes = Hex.digits b.toBytes := by
      rw [← c.cased, ← c.cased, texts.2.2]
    have bytes : some a.toBytes = some b.toBytes := by
      rw [← Hex.pairs_digits, ← Hex.pairs_digits, digits]
    rw [← ofBytes_toBytes a, ← ofBytes_toBytes b, Option.some.inj bytes]
  · rintro rfl
    rfl

/-- A raised digit is found again by lowering it. -/
theorem toLower_raised : ∀ d < 16, (Numeral.digit d).toLower = Numeral.digit d ∧
    (Numeral.digit d).toUpper.toLower = Numeral.digit d := by decide

theorem map_toLower_raise (ns : List ℕ) (bs : Bytes) (h : 2 * bs.length ≤ ns.length) :
    (raise ns (Hex.digits bs)).map Char.toLower = Hex.digits bs := by
  induction bs generalizing ns with
  | nil => rfl
  | cons b bs ih =>
    obtain ⟨m, n, rest, enough, raised⟩ := exists_raise h
    have hb : b.toNat < 256 := b.toNat_lt
    have lowered (d : ℕ) (small : d < 16) (n : ℕ) :
        (if 8 ≤ n then (Numeral.digit d).toUpper else Numeral.digit d).toLower =
          Numeral.digit d := by
      split
      · exact (toLower_raised d small).2
      · exact (toLower_raised d small).1
    rw [raised, List.map_cons, List.map_cons, lowered _ (by omega), lowered _ (by omega),
      ih rest enough]
    rfl

/-- The casing of checksums. -/
def Casing.checksum : Casing where
  digits := checksumDigits
  cased a := by
    refine map_toLower_raise _ _ ?_
    rw [length_nibbles, Keccak.length_digest, length_toBytes]
    decide

theorem Casing.write_checksum (a : Address) : Casing.checksum.write a = a.checksum := rfl

/-- The account id at a place is the one whose number its digits add up to. -/
theorem eq_ofBytes_spelled_iff {p : Bytes} {offset : ℕ} (inside : offset + 40 ≤ p.length + 4)
    {a : Address} :
    a = ofBytes (Digits.spelled p offset 5) ↔ a.bits.toNat = Digits.sum p offset 5 := by
  have size : (Digits.spelled p offset 5).length = 20 := Digits.length_spelled (by omega)
  rw [← toNat_inj, toNat_ofBytes size, Digits.natBE_spelled (by omega)]

end Address

/-! ## Decoding and matching in any casing -/

namespace Statement

/-- Decoding with account ids written in a casing. -/
def decodeIn (c : Address.Casing) (data : Bytes) (l : Layout) : Except Failure Statement := do
  let s ← decode data l
  let contract ← Digits.address data (l.span .contract).offset
  let user ← Digits.address data (l.span .user).offset
  pure { s with contract := c.write contract, user := c.write user }

/-- The account ids of a decoded statement are checksum texts of those in the bytes. -/
theorem addresses_of_decode {l : Layout} {data : Bytes} {s : Statement}
    (h : decode data l = .ok s) : ∃ contract user,
      Digits.address data (l.span .contract).offset = .ok contract ∧
      Digits.address data (l.span .user).offset = .ok user ∧
      s.contract = contract.checksum ∧ s.user = user.checksum := by
  unfold decode at h
  dsimp only at h
  split at h
  · cases h
  · simp only [bind_eq_ok] at h
    obtain ⟨_, _, _, _, _, _, _, _, contract, readContract, user, readUser, _, _, _, _, _, _, _, _,
      _, _, _, _, _, _, said⟩ := h
    cases said
    exact ⟨contract, user, readContract, readUser, rfl, rfl⟩

/-- Decoding is decoding in the casing of checksums. -/
theorem decodeIn_checksum (data : Bytes) (l : Layout) :
    decodeIn .checksum data l = decode data l := by
  cases h : decode data l with
  | error e => rw [decodeIn, h, error_bind]
  | ok s =>
    obtain ⟨contract, user, readContract, readUser, saidContract, saidUser⟩ :=
      addresses_of_decode h
    rw [decodeIn, h, ok_bind, readContract, ok_bind, readUser, ok_bind, Address.Casing.write_checksum,
      Address.Casing.write_checksum, ← saidContract, ← saidUser]
    rfl

theorem decodeIn_standard (c : Address.Casing) {p : Bytes} (h : p.length = 368) :
    decodeIn c p Layout.standard = .ok { ofBuffer p with
      contract := c.write (Address.ofBytes (Digits.spelled p 32 5))
      user := c.write (Address.ofBytes (Digits.spelled p 72 5)) } := by
  have contract : Digits.address p (Layout.standard.span .contract).offset =
      .ok (Address.ofBytes (Digits.spelled p 32 5)) := by
    rw [Layout.standard_offset, Digits.address, Digits.assemble_inside (by simp [Field.place, h])]
    rfl
  have user : Digits.address p (Layout.standard.span .user).offset =
      .ok (Address.ofBytes (Digits.spelled p 72 5)) := by
    rw [Layout.standard_offset, Digits.address, Digits.assemble_inside (by simp [Field.place, h])]
    rfl
  rw [decodeIn, decode_standard h, ok_bind, contract, ok_bind, user, ok_bind]
  rfl

end Statement

namespace Matching

/-- Matching with account ids written in a casing. -/
def checkIn (c : Address.Casing) (s : Statement) (q : Query) : Except Failure Unit := do
  member .minBlock (.int q.minBlock.toNat) (.int s.minBlock)
  member .maxBlock (.int q.maxBlock.toNat) (.int s.maxBlock)
  member .contract (.text (c.write q.contract)) (.text s.contract)
  member .user (.text (c.write q.user)) (.text s.user)
  member .blockHash (.int q.blockHash.toNat) (.int s.blockHash)
  if Tag.ofNumber? (.int s.identifier) = some .erc20 then
    member .rewardsRate (.int q.rewardsRate.toNat) (.int s.rewardsRate)
  member .identifier (.int q.identifier.toNat) (.int s.identifier)

/-- Matching is matching in the casing of checksums. -/
theorem checkIn_checksum (s : Statement) (q : Query) : checkIn .checksum s q = check s q := rfl

/-- The guards of the members in the order of their checks, the contract third and the user fourth. -/
theorem checkIn_eq_verdict (c : Address.Casing) (s : Statement) (q : Query) :
    checkIn c s q = Guard.verdict
      ([one .minBlock (.int q.minBlock.toNat) (.int s.minBlock),
          one .maxBlock (.int q.maxBlock.toNat) (.int s.maxBlock)] ++
        one .contract (.text (c.write q.contract)) (.text s.contract) ::
        one .user (.text (c.write q.user)) (.text s.user) ::
        [one .blockHash (.int q.blockHash.toNat) (.int s.blockHash), rates s q,
          identifiers s q]) :=
  row_eq_verdict (c.write q.contract) (c.write q.user) s q

/-- The contract fails matching if the blocks pass and its text differs. -/
theorem checkIn_eq_contract_iff {c : Address.Casing} {s : Statement} {q : Query} :
    checkIn c s q = .error (.fieldMismatch (some .contract) (.text (c.write q.contract))
        (.text s.contract)) ↔
      (q.minBlock.toNat : Int) = s.minBlock ∧ (q.maxBlock.toNat : Int) = s.maxBlock ∧
        c.write q.contract ≠ s.contract := by
  rw [checkIn_eq_verdict, Guard.verdict_at (by simp [one, rates, identifiers]),
    Guard.verdict_eq_ok_iff]
  simp [one, and_assoc]

/-- The user fails matching if the blocks and the contract pass and its text differs. -/
theorem checkIn_eq_user_iff {c : Address.Casing} {s : Statement} {q : Query} :
    checkIn c s q = .error (.fieldMismatch (some .user) (.text (c.write q.user))
        (.text s.user)) ↔
      (q.minBlock.toNat : Int) = s.minBlock ∧ (q.maxBlock.toNat : Int) = s.maxBlock ∧
        c.write q.contract = s.contract ∧ c.write q.user ≠ s.user := by
  rw [checkIn_eq_verdict, List.append_cons, Guard.verdict_at (by simp [one, rates, identifiers]),
    Guard.verdict_eq_ok_iff]
  simp [one, and_assoc]

end Matching

/-! ## What is compared -/

/-- The account ids of a query are those that its members write. -/
theorem Query.accounts_of_ofMembers [Address.CaseRule] {ms : List (Text × Value)} {q : Query}
    (read : ofMembers ms = .ok q) {v w : Value}
    (contract : Value.find? ms "contract_address" = some v)
    (user : Value.find? ms "user_address" = some w) :
    Address.Accepted q.contract.bits.toNat v ∧ Address.Accepted q.user.bits.toNat w := by
  have asks := ofMembers_eq_ok_iff.mp read
  obtain ⟨_, foundContract, acceptedContract⟩ := asks.contract
  obtain ⟨_, foundUser, acceptedUser⟩ := asks.user
  cases contract.symm.trans foundContract
  cases user.symm.trans foundUser
  exact ⟨acceptedContract, acceptedUser⟩

namespace Sample

/-- Bytes that are nothing but account ids, with other bytes between their digits. -/
def accounts : Bytes :=
  Bytes.zeros 32 ++ (List.replicate 5 [0xAB, 0xCD, 0xEF, 1, 9, 9, 9, 9]).flatten ++
    (List.replicate 5 [0, 0, 0, 7, 9, 9, 9, 9]).flatten ++ Bytes.zeros 256

def contractDigits : List Char :=
  "ABCDEF01ABCDEF01ABCDEF01ABCDEF01ABCDEF01".toList

def userBytes : Bytes :=
  (List.replicate 5 [0, 0, 0, 7]).flatten

/-- Members that give the contract in capitals behind a capital mark, and the user in bytes. -/
def accountMembers : List (Text × Value) :=
  [("contract_address", .text (Text.ofChars ('0' :: 'X' :: contractDigits))),
    ("user_address", .bytes userBytes), ("min_block_number", .int 0), ("max_block_number", .int 0),
    ("block_hash", .int 0), ("identifier", .int 67)]

def accountQuery : Query where
  contract := .ofNat (Hex.number contractDigits)
  user := .ofBytes userBytes
  client := .ofBytes userBytes
  minBlock := 0
  maxBlock := 0
  blockHash := 0
  rewardsRate := 0
  identifier := 67

end Sample

namespace Matching

theorem member_text_iff {field : Checked} {t u : Text} :
    member field (.text t) (.text u) = .ok () ↔ t = u := by
  simp [member]

/-- **Account ids, not texts.** Whatever letters the writing of account ids raises, that of checksums
or another, and in whichever of its accepted forms each is given, the contract and the user pass
exactly if the number given is the sum of the five digits in the statement; the bytes between these
do not count. If one does not pass, and all before it do, matching fails for it. An account id is
taken exactly from its accepted forms, and these are all of its forms where letters of both cases
are not held against the checksum. -/
theorem accounts_compared [rule : Address.CaseRule] (c : Address.Casing) {p : Bytes}
    (size : p.length = 368) {ms : List (Text × Value)} {q : Query}
    (read : Query.ofMembers ms = .ok q) {v w : Value}
    (contract : Value.find? ms "contract_address" = some v)
    (user : Value.find? ms "user_address" = some w) {m n : ℕ}
    (first : Address.Accepted m v) (second : Address.Accepted n w) :
    (∀ name v a, Member.address name v = .ok a ↔ Address.Accepted a.bits.toNat v) ∧
    (rule = .any → ∀ n v, Address.Accepted n v ↔ Address.Writes n v) ∧
    (∀ data l, Statement.decodeIn .checksum data l = Statement.decode data l) ∧
    (∀ s q, checkIn .checksum s q = check s q) ∧
    ∃ s, Statement.decodeIn c p Layout.standard = .ok s ∧
      (member .contract (.text (c.write q.contract)) (.text s.contract) = .ok () ↔
        m = Digits.sum p 32 5) ∧
      (member .user (.text (c.write q.user)) (.text s.user) = .ok () ↔
        n = Digits.sum p 72 5) ∧
      (checkIn c s q = .error (.fieldMismatch (some .contract) (.text (c.write q.contract))
          (.text s.contract)) ↔
        (q.minBlock.toNat : Int) = s.minBlock ∧ (q.maxBlock.toNat : Int) = s.maxBlock ∧
          m ≠ Digits.sum p 32 5) ∧
      (checkIn c s q = .error (.fieldMismatch (some .user) (.text (c.write q.user))
          (.text s.user)) ↔
        (q.minBlock.toNat : Int) = s.minBlock ∧ (q.maxBlock.toNat : Int) = s.maxBlock ∧
          m = Digits.sum p 32 5 ∧ n ≠ Digits.sum p 72 5) := by
  obtain ⟨readContract, readUser⟩ := Query.accounts_of_ofMembers read contract user
  have contracts : c.write q.contract = c.write (Address.ofBytes (Digits.spelled p 32 5)) ↔
      m = Digits.sum p 32 5 := by
    rw [c.write_inj, Address.eq_ofBytes_spelled_iff (by omega),
      Member.accepted_unique readContract first]
  have users : c.write q.user = c.write (Address.ofBytes (Digits.spelled p 72 5)) ↔
      n = Digits.sum p 72 5 := by
    rw [c.write_inj, Address.eq_ofBytes_spelled_iff (by omega),
      Member.accepted_unique readUser second]
  refine ⟨fun _ _ _ => Member.address_eq_ok_iff,
    fun lenient _ _ => Address.accepted_iff_writes lenient, Statement.decodeIn_checksum,
    checkIn_checksum, _, Statement.decodeIn_standard c size, ?_, ?_, ?_, ?_⟩
  · rw [member_text_iff, contracts]
  · rw [member_text_iff, users]
  · rw [checkIn_eq_contract_iff, ne_eq, contracts]
  · rw [checkIn_eq_user_iff, ne_eq, contracts, users]

/-- Both account ids are accepted by the stricter rule and pass, whatever bytes are between their
digits. -/
theorem accounts_compared_sample :
    @Query.ofMembers .checksum Sample.accountMembers = .ok Sample.accountQuery ∧
    ∃ s, Statement.decode Sample.accounts Layout.standard = .ok s ∧
      member .contract (.text Sample.accountQuery.contract.checksum) (.text s.contract) = .ok () ∧
      member .user (.text Sample.accountQuery.user.checksum) (.text s.user) = .ok () := by
  let rule : Address.CaseRule := .checksum
  have size : Sample.accounts.length = 368 := by decide +kernel
  have read : Query.ofMembers Sample.accountMembers = .ok Sample.accountQuery := rfl
  have forty : Address.Forty (Hex.number Sample.contractDigits) Sample.contractDigits :=
    ⟨rfl, List.all_eq_true.mp rfl, rfl⟩
  have capitals : Address.Uniform Sample.contractDigits := Address.isUniform_iff.mp rfl
  obtain ⟨_, _, same, _, s, decoded, contract, user, _⟩ :=
    accounts_compared .checksum size read rfl rfl (.uniform (.capital forty) capitals)
      (.bytes rfl rfl)
  rw [same] at decoded
  exact ⟨read, s, decoded, contract.mpr (by decide), user.mpr (by decide)⟩

end Matching

end ProofGate
