import ProofGate.Command
import ProofGate.Proofs.Address
import ProofGate.Proofs.Calldata
import ProofGate.Proofs.Folder
import ProofGate.Proofs.Json.RoundTrip

/-!
# Documents of commands

Queries and results are made of plain texts and of numbers of few digits, and captured calls are
plain texts themselves. So whatever is written of them into a file is loaded from it as it was.
-/

namespace ProofGate

/-! ## Plain texts -/

namespace Json

theorem PlainText.append {t u : Text} (first : PlainText t) (second : PlainText u) :
    PlainText (t ++ u) := by
  obtain ⟨cs, rfl, plain⟩ := first
  obtain ⟨ds, rfl, plain'⟩ := second
  refine ⟨cs ++ ds, ?_, ?_⟩
  · simp [Text.ofChars]
  · rw [List.forall_mem_append]
    exact ⟨plain, plain'⟩

/-- The digits of a numeral are plain, in whatever base. -/
theorem isPlain_of_digit {b : ℕ} (two : 2 ≤ b) (few : b ≤ 36) (n : ℕ) :
    ∀ c ∈ Numeral.digits b n, isPlain c = true := by
  have digits : ∀ d < 36, isPlain (Numeral.digit d) = true := by decide
  intro c hc
  obtain ⟨d, small, rfl⟩ := Numeral.eq_digit_of_mem two n c hc
  exact digits d (lt_of_lt_of_le small few)

theorem plainText_ofNat (n : ℕ) : PlainText (Numeral.ofNat n) :=
  ⟨Numeral.digits 10 n, by simp [Text.ofString, Numeral.ofNat],
    isPlain_of_digit (by decide) (by decide) n⟩

theorem plainText_checksum (a : Address) : PlainText a.checksum := by
  refine ⟨'0' :: 'x' :: a.checksumDigits, rfl, ?_⟩
  rw [List.forall_mem_cons, List.forall_mem_cons]
  have digits := (Hex.digits_of_pairs (Address.pairs_checksumDigits a)).1
  exact ⟨rfl, rfl, fun c hc => isPlain_of_hex (digits c hc)⟩

end Json

/-! ## Queries and results -/

theorem Query.names_toMembers (q : Query) :
    q.toMembers.map Prod.fst = ["contract_address", "user_address", "client_address",
      "min_block_number", "max_block_number", "block_hash", "rewards_rate", "identifier"] := rfl

theorem Query.plain_toValue (q : Query) : Json.Plain q.toValue := by
  have block (n : BitVec 32) : Json.Plain (.int n.toNat) :=
    Json.plain_of_lt (lt_trans n.isLt (by norm_num))
  have wide (n : BitVec 256) : Json.Plain (.int n.toNat) := Json.plain_of_lt n.isLt
  refine .of_names ["contract_address", "user_address", "client_address", "min_block_number",
    "max_block_number", "block_hash", "rewards_rate", "identifier"] q.names_toMembers (by decide)
    (by decide) ?_
  simp only [toMembers, List.forall_mem_cons]
  exact ⟨.text (Json.plainText_checksum _), .text (Json.plainText_checksum _),
    .text (Json.plainText_checksum _), block _, block _, .text (Json.plainText_marked _),
    wide _, wide _, by simp⟩

theorem Console.plainText_tagText (n : ℕ) : Json.PlainText (Console.tagText (.int n)) := by
  have number : Json.PlainText (Value.int n).bare := Json.plainText_ofNat n
  have close : Json.PlainText ")" := Json.plainText_of_all rfl
  unfold Console.tagText
  split
  · next t _ =>
    have name : Json.PlainText t.name := by
      cases t <;> exact Json.plainText_of_all rfl
    exact ((name.append (Json.plainText_of_all rfl)).append number).append close
  · exact ((Json.plainText_of_all rfl).append number).append close

theorem Command.plain_resultDocument (q : Query) (values : List ℕ) :
    Json.Plain (Command.resultDocument q values) := by
  have results : ∀ v ∈ values.map fun v : ℕ => Value.text (Numeral.ofNat v), Json.Plain v := by
    rw [List.forall_mem_map]
    exact fun v _ => .text (Json.plainText_ofNat v)
  refine .of_names ["query", "identifier", "result"] rfl (by decide) (by decide) ?_
  simp only [List.forall_mem_cons]
  exact ⟨q.plain_toValue, .text (Console.plainText_tagText _), .list results, by simp⟩

/-! ## Captured calls in files -/

namespace Hex

theorem trim_marked (bs : Bytes) : Text.trim (marked bs) = marked bs := by
  have digits := (digits_of_pairs (pairs_digits bs)).1
  apply Literal.trim_of_codes
  rw [List.forall_mem_cons, List.forall_mem_cons]
  refine ⟨by decide, by decide, fun c hc => ?_⟩
  obtain ⟨d, value⟩ := Option.isSome_iff_exists.mp (digits c hc)
  obtain ⟨low, high⟩ := toNat_of_value value
  exact ⟨low, by omega⟩

end Hex

namespace Loading

/-- A file that holds a captured call: its text, or a document with the text as a member. -/
inductive HoldsCall (d : Folder) (path call : Text) : Prop where
  | text : jsonEnding.isSuffixOf path = false → d.readBytes path = .ok (Utf8.encode call) →
      HoldsCall d path call
  | document {ms : List (Text × Value)} : jsonEnding.isSuffixOf path = true →
      json d path = .ok (.object ms) → Value.find? ms "calldata" = some (.text call) →
      HoldsCall d path call

theorem calldataText_of_holds {d : Folder} {path : Text} {bs : Bytes}
    (holds : HoldsCall d path (Hex.marked bs)) :
    calldataText d path = .ok (.text (Hex.marked bs)) := by
  cases holds with
  | text other read =>
    obtain ⟨cs, written, plain⟩ := Json.plainText_marked bs
    have safe : ∀ c ∈ cs, Json.isSafe c = true := fun c hc => Json.isSafe_of_isPlain (plain c hc)
    have whole : d.readText path = .ok (Hex.marked bs) := by
      rw [Folder.readText, read, ok_bind, written, Folder.textOf_encode safe]
    rw [calldataText, if_neg (by simp [other]), whole, ok_bind, Hex.trim_marked]
    rfl
  | document ending read member =>
    simp only [calldataText, if_pos ending, read, ok_bind, member, Option.getD_some]
    rfl

/-- A captured call is loaded as the bundle and the query that it was written for. -/
theorem calldata_of_holds {d : Folder} {path call : Text} {b : Bundle} {q : Query}
    (written : Calldata.encodeText b q = .ok call) (holds : HoldsCall d path call) :
    calldata d path = .ok (b, q) := by
  by_cases narrow : q.identifier.toNat < 256
  · obtain ⟨t, encoded, read⟩ := Calldata.ofValue_text (b := b) narrow
    obtain rfl : t = call := Except.ok.inj (encoded.symm.trans written)
    rw [Calldata.encodeText, Calldata.encode_eq_row narrow, map_ok] at encoded
    obtain rfl := Except.ok.inj encoded
    rw [calldata, calldataText_of_holds holds, ok_bind, read]
  · rw [Calldata.encodeText, Calldata.encode, if_neg narrow] at written
    cases written

end Loading

/-- A path that a file was read from is not empty. -/
theorem Folder.path_ne_nil {d : Folder} {path : Text} {data : Bytes}
    (read : d.readBytes path = .ok data) : path ≠ [] := by
  rintro rfl
  cases read

theorem Loading.path_ne_nil {d : Folder} {path : Text} {v : Value} (read : json d path = .ok v) :
    path ≠ [] := by
  rintro rfl
  cases read

theorem Loading.HoldsCall.path_ne_nil {d : Folder} {path call : Text}
    (holds : Loading.HoldsCall d path call) : path ≠ [] := by
  cases holds with
  | text _ read => exact Folder.path_ne_nil read
  | document ending _ _ =>
    rintro rfl
    cases ending

end ProofGate
