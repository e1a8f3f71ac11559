import ProofGate.Command.Loading
import ProofGate.Proofs.Bundle.Buffer
import ProofGate.Proofs.Calldata
import ProofGate.Proofs.Folder
import ProofGate.Proofs.Gate.Passage
import ProofGate.Proofs.Json.RoundTrip

/-!
# Forms of a bundle

A bundle can be handed over word by word, as a blob, in hexadecimal, in its three parts, as an
object that holds one of these, and in a file. The forms that write the words keep all of them. The
forms that write the blob or the parts drop the filling, which comes back as zeros, and agree among
each other and on everything that a gate reads.
-/

namespace ProofGate

namespace Bundle

/-! ## Numbers of the proof and of its inputs -/

/-- The forms in which a number is given: itself, in decimal, or behind the mark of a base. -/
inductive Spelled (n : ℕ) : Value → Prop where
  | number : Spelled n (.int n)
  | decimal : Spelled n (.text (Numeral.ofNat n))
  | marked {m : Char} {base : ℕ} {cs : List Char} {ds : List ℕ} : Literal.Mark m base →
      Literal.Counts base cs ds → cs ≠ [] → Literal.ofDigits base ds = n →
      Spelled n (.text (Text.ofChars ('0' :: m :: cs)))

/-- The hexadecimal text of a number is one of its forms. -/
theorem spelled_hexNat (n : ℕ) : Spelled n (.text (Numeral.hexNat n)) := by
  obtain ⟨ds, counts, value⟩ := Numeral.counts_digits (b := 16) (by decide) (by decide) n
  have written : Text.ofString (Numeral.hexNat n) =
      Text.ofChars ('0' :: 'x' :: Numeral.digits 16 n) := by
    simp [Text.ofString, Numeral.hexNat]
  rw [written]
  exact .marked .x counts (Numeral.digits_ne_nil _ _) value

theorem elementOf_spelled {n : ℕ} (small : n < 2 ^ 256) {v : Value} (spelled : Spelled n v) :
    elementOf v = .ok (.int n) := by
  cases spelled with
  | number => rfl
  | decimal =>
    have read : Literal.read .detected (Numeral.ofNat n) = .ok (n : Int) := by
      rw [Literal.read, Numeral.ofNat, Text.ofString, String.toList_ofList, Text.chars_ofChars,
        Literal.readChars_decimal (Numeral.few_digits small)]
    rw [elementOf, read]
  | marked mark counts some value =>
    simp only [elementOf, Literal.read, Text.chars_ofChars,
      Literal.readChars_marked mark counts some, value]

theorem elementsOf_spelled {ns : List ℕ} (small : ∀ n ∈ ns, n < 2 ^ 256) {vs : List Value}
    (spelled : List.Forall₂ Spelled ns vs) :
    elementsOf vs = .ok (ns.map fun n : ℕ => .int n) := by
  induction spelled with
  | nil => rfl
  | cons first _ ih =>
    rw [List.forall_mem_cons] at small
    rw [elementsOf, elementOf_spelled small.1 first, ok_bind, ih small.2, ok_bind]
    rfl

theorem natBE_words_lt {b : Bundle} {ws : List Bytes} (part : ∀ w ∈ ws, w ∈ b.words) :
    ∀ n ∈ ws.map Bytes.natBE, n < 2 ^ 256 := by
  rw [List.forall_mem_map]
  intro w hw
  have bound := Bytes.natBE_lt w
  rw [b.widths w (part w hw)] at bound
  exact bound

theorem proof_lt (b : Bundle) : ∀ n ∈ b.proof, n < 2 ^ 256 :=
  natBE_words_lt fun _ hw => List.mem_of_mem_take hw

theorem inputs_lt (b : Bundle) : ∀ n ∈ b.inputs, n < 2 ^ 256 :=
  natBE_words_lt fun _ hw => List.mem_of_mem_drop (List.mem_of_mem_take hw)

/-! ## Blobs -/

/-- The forms in which bytes are given: themselves, or in hexadecimal. -/
inductive Blob (bs : Bytes) : Value → Prop where
  | bytes : Blob bs (.bytes bs)
  | text {t : Text} : Hex.Spells bs t → Blob bs (.text t)

theorem looseBytes_of_blob {bs : Bytes} {v : Value} (blob : Blob bs v) :
    Word.looseBytes v = .ok bs := by
  cases blob with
  | bytes => rfl
  | text spells => exact Word.looseBytes_of_spells spells

/-- What a prover writes is read without the filling. -/
theorem ofBytes_toBytes (b : Bundle) : ofBytes b.toBytes = .ok b.unfilled := by
  have size := length_toBytes b
  obtain ⟨c, read, buffer⟩ := ofBytes_eq_ok (by omega : 704 < b.toBytes.length) (by omega)
  rw [length_toBytes] at buffer
  rw [read, eq_unfilled buffer]

/-! ## Parts -/

theorem map_natBE_words {b : Bundle} {ws : List Bytes} (part : ∀ w ∈ ws, w ∈ b.words) :
    (ws.map Bytes.natBE).map (Bytes.ofNatBE 32) = ws := by
  rw [List.map_map]
  refine (List.map_congr_left fun w hw => ?_).trans (List.map_id ws)
  have whole := Bytes.ofNatBE_natBE w
  rwa [b.widths w (part w hw)] at whole

/-- A bundle is put together from its parts without the filling. -/
theorem build_parts (b : Bundle) :
    build (.list (b.proof.map fun n : ℕ => .int n)) (.list (b.inputs.map fun n : ℕ => .int n))
      (.bytes b.statement) = .ok b.unfilled := by
  obtain ⟨c, built, words⟩ := build_words (length_proof b) (length_inputs b) (proof_lt b)
    (inputs_lt b) (length_statement b)
  have proof : b.proof.map (Bytes.ofNatBE 32) = b.words.take 8 :=
    map_natBE_words fun _ hw => List.mem_of_mem_take hw
  have inputs : b.inputs.map (Bytes.ofNatBE 32) = (b.words.drop 8).take 3 :=
    map_natBE_words fun _ hw => List.mem_of_mem_drop (List.mem_of_mem_take hw)
  have head : b.words.take 8 ++ (b.words.drop 8).take 3 = b.words.take 11 := by
    rw [← List.take_add]
  have buffer : c.toBuffer = b.toBytes ++ Bytes.zeros 16 := by
    rw [toBuffer, words, proof, inputs, head, List.flatten_append,
      (Statement.splitWords_eq (length_statement b)).2.2, ← List.append_assoc]
    rfl
  rw [built, eq_unfilled buffer]

/-! ## Objects -/

/-- Members that give a bundle by what a prover writes, or by its three parts. -/
inductive Describes (b : Bundle) (ms : List (Text × Value)) : Prop where
  | blob {v : Value} : Value.find? ms "words" = none → Value.find? ms "proof" = some v →
      Blob b.toBytes v → Describes b ms
  | parts {ps xs : List Value} {v : Value} : Value.find? ms "words" = none →
      Value.find? ms "proof" = none →
      Value.find? ms "groth16_proof" = some (.list ps) → List.Forall₂ Spelled b.proof ps →
      Value.find? ms "groth16_inputs" = some (.list xs) → List.Forall₂ Spelled b.inputs xs →
      Value.find? ms "public_inputs" = some v → Blob b.statement v → Describes b ms

theorem ofHex_blob {b : Bundle} {v : Value} (blob : Blob b.toBytes v) :
    ofHex v = .ok b.unfilled := by
  rw [ofHex, looseBytes_of_blob blob, ok_bind, ofBytes_toBytes]

theorem ofMembers_describes {b : Bundle} {ms : List (Text × Value)} (describes : Describes b ms) :
    ofMembers ms = .ok b.unfilled := by
  cases describes with
  | blob noWords given blob =>
    rw [ofMembers, noWords, given]
    exact ofHex_blob blob
  | parts noWords noBlob proof ps inputs xs statement blob =>
    have elements (vs : List Value) : Member.elements (.list vs) = .ok vs := rfl
    simp only [ofMembers, noWords, noBlob, need, proof, inputs, statement, ok_bind, elements,
      elementsOf_spelled (proof_lt b) ps, elementsOf_spelled (inputs_lt b) xs,
      looseBytes_of_blob blob, build_parts]

/-- Members that give a bundle by its words. -/
def Lists (b : Bundle) (ms : List (Text × Value)) : Prop :=
  ∃ vs, Value.find? ms "words" = some (.list vs) ∧ List.Forall₂ Word.Written b.words vs

theorem ofWords_written {b : Bundle} {vs : List Value}
    (written : List.Forall₂ Word.Written b.words vs) : ofWords (.list vs) = .ok b :=
  ofWordList_written b written

theorem ofMembers_lists {b : Bundle} {ms : List (Text × Value)} (lists : Lists b ms) :
    ofMembers ms = .ok b := by
  obtain ⟨vs, given, written⟩ := lists
  rw [ofMembers, given]
  exact ofWords_written written

/-! ## Forms that agree -/

/-- What a prover writes of `b`, and its parts, are all read as `c`. -/
structure Settles (b c : Bundle) : Prop where
  bytes : ofBytes b.toBytes = .ok c
  hex : ∀ v, Blob b.toBytes v → ofHex v = .ok c
  parts : build (.list (b.proof.map fun n : ℕ => .int n))
    (.list (b.inputs.map fun n : ℕ => .int n)) (.bytes b.statement) = .ok c
  members : ∀ ms, Describes b ms → ofMembers ms = .ok c
  hexMember : ofMembers [("proof", .text (Hex.encode b.toBytes))] = .ok c
  hexParts : ofMembers [
    ("groth16_proof", .list (b.proof.map fun n : ℕ => .text (Numeral.hexNat n))),
    ("groth16_inputs", .list (b.inputs.map fun n : ℕ => .text (Numeral.hexNat n))),
    ("public_inputs", .text (Hex.encode b.statement))] = .ok c
  file : ∀ (d : Folder) (path : Text), (Path.ofText path).suffix ≠ ".json" →
    d.readBytes (Path.ofText path).text = .ok b.toBytes → Loading.bundle d path = .ok c
  document : ∀ (d : Folder) (path : Text) (ms : List (Text × Value)),
    (Path.ofText path).suffix = ".json" →
    Loading.json d (Path.ofText path).text = .ok (.object ms) → Describes b ms →
    Loading.bundle d path = .ok c
  saved : ∀ ms, Json.Plain (.object ms) → Describes b ms → ∃ t, Json.write (.object ms) = .ok t ∧
    ∀ (d : Folder) (path : Text), (Path.ofText path).suffix = ".json" →
      d.readBytes (Path.ofText path).text = .ok (Utf8.encode t) → Loading.bundle d path = .ok c

/-- The words of `b` in any forms are read as `b` itself. -/
structure Keeps (b : Bundle) : Prop where
  words : ∀ vs, List.Forall₂ Word.Written b.words vs → ofWords (.list vs) = .ok b
  bytes : ofWords (.list (b.words.map .bytes)) = .ok b
  hex : ofWords (.list (b.toHexWords.map .text)) = .ok b
  numbers : ofWords (.list (b.words.map fun w => .int w.natBE)) = .ok b
  members : ∀ ms, Lists b ms → ofMembers ms = .ok b
  document : ∀ (d : Folder) (path : Text) (ms : List (Text × Value)),
    (Path.ofText path).suffix = ".json" →
    Loading.json d (Path.ofText path).text = .ok (.object ms) → Lists b ms →
    Loading.bundle d path = .ok b
  saved : ∀ ms, Json.Plain (.object ms) → Lists b ms → ∃ t, Json.write (.object ms) = .ok t ∧
    ∀ (d : Folder) (path : Text), (Path.ofText path).suffix = ".json" →
      d.readBytes (Path.ofText path).text = .ok (Utf8.encode t) → Loading.bundle d path = .ok b

/-- Two bundles that no view, no prover and no gate tells apart. -/
structure Indistinct (b c : Bundle) : Prop where
  proof : b.proof = c.proof
  inputs : b.inputs = c.inputs
  statement : b.statement = c.statement
  bytes : b.toBytes = c.toBytes
  runs : ∀ {σ : Type} (g : Gate σ) (q : Query) (s : σ),
    g.release (.bundle b) q s = g.release (.bundle c) q s

theorem bundle_of_json {d : Folder} {path : Text} {ms : List (Text × Value)}
    (ending : (Path.ofText path).suffix = ".json")
    (read : Loading.json d (Path.ofText path).text = .ok (.object ms)) :
    Loading.bundle d path = ofMembers ms := by
  simp only [Loading.bundle, if_pos ending, read, ok_bind, ofValue]

/-- A plain object that is written into a file is what a bundle is read from. -/
theorem bundle_of_saved {ms : List (Text × Value)} (plain : Json.Plain (.object ms)) :
    ∃ t, Json.write (.object ms) = .ok t ∧
      ∀ (d : Folder) (path : Text), (Path.ofText path).suffix = ".json" →
        d.readBytes (Path.ofText path).text = .ok (Utf8.encode t) →
        Loading.bundle d path = ofMembers ms := by
  obtain ⟨t, written, load⟩ := Loading.json_of_saved plain
  exact ⟨t, written, fun d path ending holds => bundle_of_json ending (load d _ holds)⟩

theorem settles_unfilled (b : Bundle) : Settles b b.unfilled where
  bytes := ofBytes_toBytes b
  hex _ := ofHex_blob
  parts := build_parts b
  members _ := ofMembers_describes
  hexMember := ofMembers_describes (.blob rfl rfl (.text (Hex.spells_encode _)))
  hexParts := by
    have forms (ns : List ℕ) :
        List.Forall₂ Spelled ns (ns.map fun n : ℕ => .text (Numeral.hexNat n)) := by
      rw [List.forall₂_map_right_iff, List.forall₂_same]
      exact fun n _ => spelled_hexNat n
    exact ofMembers_describes
      (.parts rfl rfl rfl (forms _) rfl (forms _) rfl (.text (Hex.spells_encode _)))
  file d path ending read := by
    simp only [Loading.bundle, if_neg ending, read, ok_bind, ofBytes_toBytes]
  document d path ms ending read describes := by
    rw [bundle_of_json ending read, ofMembers_describes describes]
  saved ms plain describes := by
    obtain ⟨t, written, read⟩ := bundle_of_saved plain
    rw [ofMembers_describes describes] at read
    exact ⟨t, written, read⟩

theorem keeps (b : Bundle) : Keeps b where
  words _ := ofWords_written
  bytes := ofWords_written (Word.written_bytes b.words)
  hex := by
    refine ofWords_written ?_
    rw [toHexWords, List.map_map, List.forall₂_map_right_iff, List.forall₂_same]
    exact fun w _ => .text (Hex.spells_marked w)
  numbers := by
    refine ofWords_written ?_
    rw [List.forall₂_map_right_iff, List.forall₂_same]
    exact fun _ _ => .number
  members _ := ofMembers_lists
  document d path ms ending read lists := by
    rw [bundle_of_json ending read, ofMembers_lists lists]
  saved ms plain lists := by
    obtain ⟨t, written, read⟩ := bundle_of_saved plain
    rw [ofMembers_lists lists] at read
    exact ⟨t, written, read⟩

/-- Bundles of which a prover writes the same are not told apart. -/
theorem indistinct_of_toBytes {b c : Bundle} (same : b.toBytes = c.toBytes) : Indistinct b c := by
  obtain ⟨proof, inputs, statement⟩ := views_of_toBytes same
  refine ⟨proof, inputs, statement, same, fun g q s => ?_⟩
  have parts : (Offer.bundle b).parts = (Offer.bundle c).parts := by
    rw [Offer.parts, Offer.parts, Bundle.parts, Bundle.parts, proof, inputs, statement]
  rw [Gate.release_apply, Gate.release_apply, Gate.pass_eq, Gate.pass_eq, parts]

theorem indistinct_unfilled (b : Bundle) : Indistinct b b.unfilled :=
  indistinct_of_toBytes (toBytes_unfilled b).symm

/-- **Forms agree.** All forms that a prover writes, and the parts, are read as the bundle without
its filling; all forms of the words are read as the bundle itself; nothing tells the two apart. The
other way round the views of what is put together are its parts. -/
theorem forms_agree :
    (∀ b : Bundle, Settles b b.unfilled ∧ Keeps b ∧ Indistinct b b.unfilled) ∧
    ∀ (proof inputs : List ℕ) (data : Bytes), proof.length = 8 → inputs.length = 3 →
      (∀ n ∈ proof, n < 2 ^ 256) → (∀ n ∈ inputs, n < 2 ^ 256) → data.length = 368 →
      ∃ b, build (.list (proof.map fun n : ℕ => .int n)) (.list (inputs.map fun n : ℕ => .int n))
        (.bytes data) = .ok b ∧ b.proof = proof ∧ b.inputs = inputs ∧ b.statement = data :=
  ⟨fun b => ⟨settles_unfilled b, keeps b, indistinct_unfilled b⟩,
    fun _ _ _ eight three smallProof smallInputs size =>
      build_eq_ok eight three smallProof smallInputs size⟩

end Bundle

/-! ## Forms of the sample -/

namespace Sample

/-- The parts of a bundle of zeros, with its numbers in forms of several kinds. -/
def parts : List (Text × Value) :=
  [("public_inputs", .text (Hex.marked filled.statement)),
    ("groth16_proof", .list [.int 0, .text "0x0", .text "0X00", .text "0b0", .text "0o0", .int 0,
      .int 0, .text "0"]),
    ("groth16_inputs", .list [.text "0", .int 0, .text "0x0"])]

/-- The words of the bundle in hexadecimal. -/
def listed : List (Text × Value) :=
  [("words", .list (filled.toHexWords.map .text))]

theorem describes_parts : Bundle.Describes filled parts := by
  have zero : Bundle.Spelled 0 (.text "0") := by
    have form := Bundle.Spelled.decimal (n := 0)
    rwa [Numeral.ofNat, Numeral.digits_of_lt (by decide)] at form
  have marked {m : Char} {base : ℕ} (mark : Literal.Mark m base) :
      Bundle.Spelled 0 (.text (Text.ofChars ['0', m, '0'])) := by
    refine .marked mark (.cons ⟨rfl, by cases mark <;> decide⟩ .nil) (by simp) ?_
    show 0 * base + 0 = 0
    rw [Nat.zero_mul]
  have longer : Bundle.Spelled 0 (.text (Text.ofChars ['0', 'X', '0', '0'])) :=
    .marked .X (.cons ⟨rfl, by decide⟩ (.cons ⟨rfl, by decide⟩ .nil)) (by simp) rfl
  have proof : List.Forall₂ Bundle.Spelled [0, 0, 0, 0, 0, 0, 0, 0] [.int 0, .text "0x0",
      .text "0X00", .text "0b0", .text "0o0", .int 0, .int 0, .text "0"] :=
    .cons .number (.cons (marked .x) (.cons longer (.cons (marked .b) (.cons (marked .o)
      (.cons .number (.cons .number (.cons zero .nil)))))))
  have inputs : List.Forall₂ Bundle.Spelled [0, 0, 0] [.text "0", .int 0, .text "0x0"] :=
    .cons zero (.cons .number (.cons (marked .x) .nil))
  exact .parts rfl rfl rfl proof rfl inputs rfl (.text (Hex.spells_marked _))

theorem lists_listed : Bundle.Lists filled listed := by
  refine ⟨_, rfl, ?_⟩
  rw [Bundle.toHexWords, List.map_map, List.forall₂_map_right_iff, List.forall₂_same]
  exact fun w _ => .text (Hex.spells_marked w)

theorem plain_parts : Json.Plain (.object parts) := by
  have number : Json.Plain (.int 0) := Json.plain_of_lt (n := 0) (by decide)
  have proof : ∀ v ∈ [Value.int 0, .text "0x0", .text "0X00", .text "0b0", .text "0o0", .int 0,
      .int 0, .text "0"], Json.Plain v := by
    simp only [List.forall_mem_cons]
    exact ⟨number, .text (Json.plainText_of_all rfl), .text (Json.plainText_of_all rfl),
      .text (Json.plainText_of_all rfl), .text (Json.plainText_of_all rfl), number, number,
      .text (Json.plainText_of_all rfl), by simp⟩
  have inputs : ∀ v ∈ [Value.text "0", .int 0, .text "0x0"], Json.Plain v := by
    simp only [List.forall_mem_cons]
    exact ⟨.text (Json.plainText_of_all rfl), number, .text (Json.plainText_of_all rfl), by simp⟩
  refine .of_names ["public_inputs", "groth16_proof", "groth16_inputs"] rfl (by decide)
    (by decide) ?_
  simp only [parts, List.forall_mem_cons]
  exact ⟨.text (Json.plainText_marked _), .list proof, .list inputs, by simp⟩

theorem plain_listed : Json.Plain (.object listed) := by
  have words : ∀ v ∈ filled.toHexWords.map Value.text, Json.Plain v := by
    rw [Bundle.toHexWords, List.map_map, List.forall_mem_map]
    exact fun w _ => .text (Json.plainText_marked w)
  refine .of_names ["words"] rfl (by decide) (by decide) ?_
  rw [listed, List.forall_mem_singleton]
  exact .list words

/-- A folder with one file. -/
def folder (name : Text) (data : Bytes) : Folder :=
  ⟨[(⟨.work, [name]⟩, data)], []⟩

theorem readBytes_bin (data : Bytes) :
    (folder "bundle.bin" data).readBytes (Path.ofText "bundle.bin").text = .ok data := by
  rfl

theorem readBytes_json (data : Bytes) :
    (folder "bundle.json" data).readBytes (Path.ofText "bundle.json").text = .ok data := by
  rfl

end Sample

namespace Bundle

/-- A bundle with filling is read from its parts in a document and from its blob in a file without
the filling, and from its words in a document with it. Parts are put together and shown again. -/
theorem forms_agree_sample :
    (∃ t, Json.write (.object Sample.parts) = .ok t ∧
      Loading.bundle (Sample.folder "bundle.json" (Utf8.encode t)) "bundle.json" =
        .ok Sample.filled.unfilled) ∧
    Loading.bundle (Sample.folder "bundle.bin" Sample.filled.toBytes) "bundle.bin" =
      .ok Sample.filled.unfilled ∧
    ofHex (.text (Hex.encode Sample.filled.toBytes)) = .ok Sample.filled.unfilled ∧
    (∃ t, Json.write (.object Sample.listed) = .ok t ∧
      Loading.bundle (Sample.folder "bundle.json" (Utf8.encode t)) "bundle.json" =
        .ok Sample.filled) ∧
    Sample.filled ≠ Sample.filled.unfilled ∧
    ∃ b, build (.list ([1, 2, 3, 4, 5, 6, 7, 8].map fun n : ℕ => .int n))
        (.list ([9, 10, 11].map fun n : ℕ => .int n)) (.bytes (Bytes.zeros 368)) = .ok b ∧
      b.proof = [1, 2, 3, 4, 5, 6, 7, 8] ∧ b.inputs = [9, 10, 11] ∧
      b.statement = Bytes.zeros 368 := by
  obtain ⟨agree, views⟩ := forms_agree
  obtain ⟨settles, keeps, _⟩ := agree Sample.filled
  refine ⟨?parts, ?file, ?hex, ?words, ?filling, ?views⟩
  case parts =>
    obtain ⟨t, written, read⟩ := settles.saved _ Sample.plain_parts Sample.describes_parts
    exact ⟨t, written, read _ _ (by decide) (Sample.readBytes_json _)⟩
  case file => exact settles.file _ _ (by decide) (Sample.readBytes_bin _)
  case hex => exact settles.hex _ (.text (Hex.spells_encode _))
  case words =>
    obtain ⟨t, written, read⟩ := keeps.saved _ Sample.plain_listed Sample.lists_listed
    exact ⟨t, written, read _ _ (by decide) (Sample.readBytes_json _)⟩
  case filling =>
    intro same
    have last : (1 : UInt8) = 0 := congrArg (fun b => (b.words.getD 22 []).getD 31 0) same
    exact absurd last (by decide)
  case views =>
    exact views _ _ _ rfl rfl (by decide) (by decide) (Bytes.length_zeros 368)

end Bundle

end ProofGate
