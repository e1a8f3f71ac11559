import ProofGate.Proofs.Json.Atoms
import ProofGate.Proofs.Value
import Mathlib.Data.List.Nodup

/-!
# Documents read back

A document that was written is read as the value it was written from, as long as its texts are
printable ASCII without quotes, its numbers are integers of a readable length and no name stands
twice in an object. Items and members are read one after the other, each in front of the comma or
the new line that the writer puts behind it.
-/

namespace ProofGate

namespace Json

/-! ## Lists -/

theorem newline_eq (level : ℕ) : newline level = Text.ofChars (gapAt level) := rfl

/-- What is written behind an item: the items that follow, and the closing bracket. -/
def itemsTail (level : ℕ) : List (List Char) → List Char
  | [] => gapAt level ++ [']']
  | s :: ss => ',' :: (gapAt (level + 1) ++ (s ++ itemsTail level ss))

theorem writeItems_tail {level : ℕ} {vs : List Value} {ss : List (List Char)}
    (written : List.Forall₂ (fun v s => writeAt (level + 1) v = .ok (Text.ofChars s)) vs ss) :
    writeItems level ("," ++ newline (level + 1)) vs = .ok (Text.ofChars (itemsTail level ss)) := by
  induction written with
  | nil =>
    rw [writeItems, itemsTail, newline_eq, Text.ofChars, Text.ofChars, List.map_append]
    rfl
  | cons first _ ih =>
    rw [writeItems, first]
    dsimp only
    rw [ih, itemsTail, newline_eq]
    simp only [Text.ofChars, List.map_cons, List.map_append, List.append_assoc]
    rfl

theorem isSafe_itemsTail (level : ℕ) {vs : List Value} {ss : List (List Char)}
    (reads : List.Forall₂ Reads vs ss) : ∀ c ∈ itemsTail level ss, isSafe c = true := by
  induction reads with
  | nil =>
    rw [itemsTail, List.forall_mem_append, List.forall_mem_singleton]
    exact ⟨isSafe_gapAt level, rfl⟩
  | cons next _ ih =>
    rw [itemsTail, List.forall_mem_cons, List.forall_mem_append, List.forall_mem_append]
    exact ⟨rfl, isSafe_gapAt _, next.safe, ih⟩

theorem stops_itemsTail (level : ℕ) (ss : List (List Char)) (rest : List Char) :
    Stops (itemsTail level ss ++ rest) := by
  cases ss with
  | nil => exact stops_newline _
  | cons s ss => exact stops_comma _

theorem items_read (level : ℕ) {vs : List Value} {ss : List (List Char)}
    (reads : List.Forall₂ Reads vs ss) {v : Value} {s : List Char} (first : Reads v s)
    (fuel pos : ℕ) (rest : List Char) (enough : 2 * (s ++ itemsTail level ss).length < fuel) :
    ∃ pos', items fuel ⟨pos, s ++ (itemsTail level ss ++ rest)⟩ = .ok (v :: vs, ⟨pos', rest⟩) := by
  -- Behind a comma the next item is the first of those that are left.
  induction reads generalizing v s fuel pos with
  | nil =>
    obtain ⟨fuel, rfl⟩ : ∃ n, fuel = n + 1 := ⟨fuel - 1, by omega⟩
    rw [List.length_append] at enough
    obtain ⟨p, read⟩ := first.reads fuel pos (itemsTail level [] ++ rest) (by omega)
      (stops_itemsTail level [] rest)
    obtain ⟨p', skip⟩ := skip_gap (r := ']' :: rest) (isGap_gapAt level) (by rintro _ ⟨⟩; rfl) p
    refine ⟨p' + 1, ?_⟩
    rw [items, read]
    dsimp only
    rw [itemsTail, List.append_assoc, List.singleton_append, skip]
    rfl
  | @cons v' s' vs ss next _ ih =>
    obtain ⟨fuel, rfl⟩ : ∃ n, fuel = n + 1 := ⟨fuel - 1, by omega⟩
    simp only [itemsTail, List.length_append, List.length_cons] at enough ih
    obtain ⟨p, read⟩ := first.reads fuel pos (itemsTail level (s' :: ss) ++ rest) (by omega)
      (stops_itemsTail level (s' :: ss) rest)
    obtain ⟨p', skip⟩ := skip_none (r := itemsTail level (s' :: ss) ++ rest)
      (by rintro _ ⟨⟩; rfl) p
    obtain ⟨p'', skip'⟩ := skip_gap (r := s' ++ (itemsTail level ss ++ rest))
      (isGap_gapAt (level + 1)) (fun c hc => (next.starts.head_append _ c hc).1) (p' + 1)
    obtain ⟨pos', more⟩ := ih next fuel p'' (by omega)
    refine ⟨pos', ?_⟩
    rw [items, read]
    dsimp only
    rw [skip, itemsTail, List.cons_append]
    dsimp only [Cursor.advance]
    rw [List.drop_succ_cons, List.drop_zero, List.append_assoc, List.append_assoc, skip', more]
    rfl

theorem value_bracket {cs cs' : List Char} {pos p : ℕ} (skip : Cursor.skip ⟨pos + 1, cs⟩ = ⟨p, cs'⟩)
    (other : ∀ c ∈ cs'.head?, c ≠ ']') (fuel : ℕ) :
    value (fuel + 1) ⟨pos, '[' :: cs⟩ = (items fuel ⟨p, cs'⟩).map fun r => (.list r.1, r.2) := by
  have inside : (Cursor.advance ⟨pos, '[' :: cs⟩ 1).skip = ⟨p, cs'⟩ := skip
  simp only [value, inside]
  split
  · exact absurd rfl (other ']' rfl)
  · cases items fuel ⟨p, cs'⟩ <;> rfl

theorem fuel_of_cons {c : Char} {cs : List Char} {fuel : ℕ} (enough : 2 * (c :: cs).length ≤ fuel) :
    ∃ n, fuel = n + 1 ∧ 2 * cs.length < n := by
  rw [List.length_cons] at enough
  exact ⟨fuel - 1, by omega, by omega⟩

/-- A list is read from its items with brackets around them. -/
theorem reads_list (level : ℕ) {vs : List Value} {ss : List (List Char)}
    (reads : List.Forall₂ Reads vs ss) {v : Value} {s : List Char} (first : Reads v s) :
    Reads (.list (v :: vs)) ('[' :: (gapAt (level + 1) ++ (s ++ itemsTail level ss))) where
  starts := ⟨'[', rfl, by decide, by decide, by decide⟩
  safe := by
    rw [List.forall_mem_cons, List.forall_mem_append, List.forall_mem_append]
    exact ⟨rfl, isSafe_gapAt _, first.safe, isSafe_itemsTail level reads⟩
  reads := by
    intro fuel pos rest enough _
    obtain ⟨fuel, rfl, more⟩ := fuel_of_cons enough
    obtain ⟨p, skip⟩ := skip_gap (r := s ++ (itemsTail level ss ++ rest)) (isGap_gapAt (level + 1))
      (fun c hc => (first.starts.head_append _ c hc).1) (pos + 1)
    rw [List.length_append] at more
    obtain ⟨pos', read⟩ := items_read level reads first fuel p rest (by omega)
    refine ⟨pos', ?_⟩
    rw [List.cons_append, List.append_assoc, List.append_assoc,
      value_bracket skip fun c hc => (first.starts.head_append _ c hc).2.1, read]
    rfl

theorem reads_nil : Reads (.list []) ['[', ']'] where
  starts := ⟨'[', rfl, by decide, by decide, by decide⟩
  safe := List.all_eq_true.mp rfl
  reads := by
    intro fuel pos rest enough _
    obtain ⟨fuel, rfl, _⟩ := fuel_of_cons enough
    exact ⟨_, rfl⟩

/-! ## Objects -/

/-- A member as written: its name in quotes, and its value. -/
def memberText (t : List Char × List Char) : List Char :=
  quoted t.1 ++ ':' :: ' ' :: t.2

/-- What is written behind a member: the members that follow, and the closing brace. -/
def membersTail (level : ℕ) : List (List Char × List Char) → List Char
  | [] => gapAt level ++ ['\x7d']
  | t :: ts => ',' :: (gapAt (level + 1) ++ (memberText t ++ membersTail level ts))

/-- A name and a value with the characters that they are read from. -/
structure ReadsMember (m : Text × Value) (t : List Char × List Char) : Prop where
  name : m.1 = Text.ofChars t.1
  plain : ∀ c ∈ t.1, isPlain c = true
  value : Reads m.2 t.2

theorem writeMembers_cons {level : ℕ} {m : Text × Value} {t : List Char × List Char}
    (reads : ReadsMember m t) (written : writeAt (level + 1) m.2 = .ok (Text.ofChars t.2))
    {ms : List (Text × Value)} {tail : Text}
    (behind : writeMembers level ("," ++ newline (level + 1)) ms = .ok tail) (lead : Text) :
    writeMembers level lead (m :: ms) = .ok (lead ++ Text.ofChars (memberText t) ++ tail) := by
  obtain ⟨name, v⟩ := m
  have spelled : writtenText name = Text.ofChars (quoted t.1) :=
    (congrArg writtenText reads.name).trans (writtenText_plain reads.plain)
  rw [writeMembers, written]
  dsimp only
  rw [behind, spelled, memberText]
  simp only [Text.ofChars, List.map_cons, List.map_append, List.append_assoc]
  rfl

theorem writeMembers_tail {level : ℕ} {ms : List (Text × Value)} {ts : List (List Char × List Char)}
    (written : List.Forall₂ (fun m t => writeAt (level + 1) m.2 = .ok (Text.ofChars t.2) ∧
      ReadsMember m t) ms ts) :
    writeMembers level ("," ++ newline (level + 1)) ms =
      .ok (Text.ofChars (membersTail level ts)) := by
  induction written with
  | nil =>
    rw [writeMembers, membersTail, newline_eq, Text.ofChars, Text.ofChars, List.map_append]
    rfl
  | cons first _ ih =>
    rw [writeMembers_cons first.2 first.1 ih, membersTail, newline_eq]
    simp only [Text.ofChars, List.map_cons, List.map_append, List.append_assoc]
    rfl

theorem ReadsMember.safe {m : Text × Value} {t : List Char × List Char}
    (reads : ReadsMember m t) : ∀ c ∈ memberText t, isSafe c = true := by
  rw [memberText, List.forall_mem_append, List.forall_mem_cons, List.forall_mem_cons]
  exact ⟨isSafe_quoted reads.plain, rfl, rfl, reads.value.safe⟩

theorem isSafe_membersTail (level : ℕ) {ms : List (Text × Value)}
    {ts : List (List Char × List Char)} (reads : List.Forall₂ ReadsMember ms ts) :
    ∀ c ∈ membersTail level ts, isSafe c = true := by
  induction reads with
  | nil =>
    rw [membersTail, List.forall_mem_append, List.forall_mem_singleton]
    exact ⟨isSafe_gapAt level, rfl⟩
  | cons next _ ih =>
    rw [membersTail, List.forall_mem_cons, List.forall_mem_append, List.forall_mem_append]
    exact ⟨rfl, isSafe_gapAt _, next.safe, ih⟩

theorem stops_membersTail (level : ℕ) (ts : List (List Char × List Char)) (rest : List Char) :
    Stops (membersTail level ts ++ rest) := by
  cases ts with
  | nil => exact stops_newline _
  | cons t ts => exact stops_comma _

/-- The name and the value of a member are read in front of what stands behind it. -/
theorem members_read_first {m : Text × Value} {t : List Char × List Char} (reads : ReadsMember m t)
    (fuel pos : ℕ) {behind : List Char} (stops : Stops behind)
    (enough : 2 * (memberText t).length < fuel + 1) :
    ∃ p, members (fuel + 1) ⟨pos, memberText t ++ behind⟩ =
      (match (Cursor.skip ⟨p, behind⟩).rest with
      | '\x7d' :: _ => .ok ([m], (Cursor.skip ⟨p, behind⟩).advance 1)
      | ',' :: _ =>
        match members fuel ((Cursor.skip ⟨p, behind⟩).advance 1).skip with
        | .ok (ms, c) => .ok (m :: ms, c)
        | .error e => .error e
      | _ => .error (.commaDue, (Cursor.skip ⟨p, behind⟩).pos)) := by
  obtain ⟨name, v⟩ := m
  obtain ⟨ns, s⟩ := t
  obtain ⟨same, plain, reads⟩ := reads
  dsimp only at same plain reads
  have size : s.length < (memberText (ns, s)).length := by
    show s.length < (quoted ns ++ ':' :: ' ' :: s).length
    rw [List.length_append, List.length_cons, List.length_cons]
    omega
  obtain ⟨p, named⟩ := textFrom_plain plain pos (pos + 1) (':' :: ' ' :: (s ++ behind)) []
  obtain ⟨p', colon⟩ := skip_none (r := ':' :: ' ' :: (s ++ behind)) (by rintro _ ⟨⟩; rfl) p
  have blank : ∀ c ∈ [' '], isGap c = true := by simp [isGap]
  obtain ⟨p'', gap⟩ := skip_gap blank (fun c hc => (reads.starts.head_append behind c hc).1) (p' + 1)
  obtain ⟨q, read⟩ := reads.reads fuel p'' behind (by omega) stops
  refine ⟨q, ?_⟩
  have split : memberText (ns, s) ++ behind =
      '"' :: (ns ++ '"' :: ':' :: ' ' :: (s ++ behind)) := by
    simp [memberText, quoted]
  have after : (Cursor.advance ⟨p', ':' :: ' ' :: (s ++ behind)⟩ 1).skip = ⟨p'', s ++ behind⟩ := gap
  rw [split, members]
  split
  · next cs quote =>
    cases quote
    rw [named]
    dsimp only
    rw [colon]
    split
    · rw [after, read, same]
      rfl
    · next other => exact absurd rfl (other _)
  · next other => exact absurd rfl (other _)

theorem members_read (level : ℕ) {ms : List (Text × Value)} {ts : List (List Char × List Char)}
    (reads : List.Forall₂ ReadsMember ms ts) {m : Text × Value} {t : List Char × List Char}
    (first : ReadsMember m t) (fuel pos : ℕ) (rest : List Char)
    (enough : 2 * (memberText t ++ membersTail level ts).length < fuel) :
    ∃ pos', members fuel ⟨pos, memberText t ++ (membersTail level ts ++ rest)⟩ =
      .ok (m :: ms, ⟨pos', rest⟩) := by
  induction reads generalizing m t fuel pos with
  | nil =>
    obtain ⟨fuel, rfl⟩ : ∃ n, fuel = n + 1 := ⟨fuel - 1, by omega⟩
    rw [List.length_append] at enough
    obtain ⟨p, read⟩ := members_read_first first fuel pos (stops_membersTail level [] rest)
      (by omega)
    obtain ⟨p', skip⟩ := skip_gap (r := '\x7d' :: rest) (isGap_gapAt level) (by rintro _ ⟨⟩; rfl) p
    have closed : Cursor.skip ⟨p, membersTail level [] ++ rest⟩ = ⟨p', '\x7d' :: rest⟩ := by
      rw [membersTail, List.append_assoc, List.singleton_append, skip]
    refine ⟨p' + 1, ?_⟩
    rw [read, closed]
    rfl
  | @cons m' t' ms ts next _ ih =>
    obtain ⟨fuel, rfl⟩ : ∃ n, fuel = n + 1 := ⟨fuel - 1, by omega⟩
    simp only [membersTail, List.length_append, List.length_cons] at enough ih
    obtain ⟨p, read⟩ := members_read_first first fuel pos (stops_membersTail level (t' :: ts) rest)
      (by omega)
    obtain ⟨p', skip⟩ := skip_none (r := membersTail level (t' :: ts) ++ rest)
      (by rintro _ ⟨⟩; rfl) p
    obtain ⟨p'', skip'⟩ := skip_gap (r := memberText t' ++ (membersTail level ts ++ rest))
      (isGap_gapAt (level + 1)) (by rintro _ ⟨⟩; rfl) (p' + 1)
    obtain ⟨pos', more⟩ := ih next fuel p'' (by omega)
    have behind : (Cursor.advance ⟨p', membersTail level (t' :: ts) ++ rest⟩ 1).skip =
        ⟨p'', memberText t' ++ (membersTail level ts ++ rest)⟩ := by
      rw [membersTail, List.cons_append, Cursor.advance, List.drop_succ_cons, List.drop_zero,
        List.append_assoc, List.append_assoc, skip']
    refine ⟨pos', ?_⟩
    rw [read, skip, behind, more]
    rfl

theorem value_brace {cs cs' : List Char} {pos p : ℕ} (skip : Cursor.skip ⟨pos + 1, cs⟩ = ⟨p, cs'⟩)
    (other : ∀ c ∈ cs'.head?, c ≠ '\x7d') (fuel : ℕ) :
    value (fuel + 1) ⟨pos, '\x7b' :: cs⟩ =
      (members fuel ⟨p, cs'⟩).map fun r => (.object r.1, r.2) := by
  have inside : (Cursor.advance ⟨pos, '\x7b' :: cs⟩ 1).skip = ⟨p, cs'⟩ := skip
  simp only [value, inside]
  split
  · exact absurd rfl (other '\x7d' rfl)
  · cases members fuel ⟨p, cs'⟩ <;> rfl

/-- An object is read from its members with braces around them. -/
theorem reads_object (level : ℕ) {ms : List (Text × Value)} {ts : List (List Char × List Char)}
    (reads : List.Forall₂ ReadsMember ms ts) {m : Text × Value} {t : List Char × List Char}
    (first : ReadsMember m t) :
    Reads (.object (m :: ms))
      ('\x7b' :: (gapAt (level + 1) ++ (memberText t ++ membersTail level ts))) where
  starts := ⟨'\x7b', rfl, by decide, by decide, by decide⟩
  safe := by
    rw [List.forall_mem_cons, List.forall_mem_append, List.forall_mem_append]
    exact ⟨rfl, isSafe_gapAt _, first.safe, isSafe_membersTail level reads⟩
  reads := by
    intro fuel pos rest enough _
    obtain ⟨fuel, rfl, more⟩ := fuel_of_cons enough
    have quote : ∀ c ∈ (memberText t ++ (membersTail level ts ++ rest)).head?, c = '"' := by
      rintro _ ⟨⟩
      rfl
    obtain ⟨p, skip⟩ := skip_gap (r := memberText t ++ (membersTail level ts ++ rest))
      (isGap_gapAt (level + 1)) (fun c hc => by rw [quote c hc]; rfl) (pos + 1)
    rw [List.length_append] at more
    obtain ⟨pos', read⟩ := members_read level reads first fuel p rest (by omega)
    refine ⟨pos', ?_⟩
    rw [List.cons_append, List.append_assoc, List.append_assoc,
      value_brace skip fun c hc => by rw [quote c hc]; decide, read]
    rfl

theorem reads_empty : Reads (.object []) ['\x7b', '\x7d'] where
  starts := ⟨'\x7b', rfl, by decide, by decide, by decide⟩
  safe := List.all_eq_true.mp rfl
  reads := by
    intro fuel pos rest enough _
    obtain ⟨fuel, rfl, _⟩ := fuel_of_cons enough
    exact ⟨_, rfl⟩

/-! ## Documents -/

/-- Values without doubles and byte strings, whose texts are plain. -/
inductive Plain : Value → Prop where
  | null : Plain .null
  | bool (b : Bool) : Plain (.bool b)
  | int {n : Int} : (Numeral.digits 10 n.natAbs).length ≤ Literal.maxDigits → Plain (.int n)
  | text {t : Text} : PlainText t → Plain (.text t)
  | list {vs : List Value} : (∀ v ∈ vs, Plain v) → Plain (.list vs)
  | object {ms : List (Text × Value)} : (ms.map Prod.fst).Nodup → (∀ m ∈ ms, PlainText m.1) →
      (∀ m ∈ ms, Plain m.2) → Plain (.object ms)

/-- An object under distinct names of plain characters is plain if what they name is. -/
theorem Plain.of_names (names : List String) {ms : List (Text × Value)}
    (named : ms.map Prod.fst = names.map Text.ofString)
    (distinct : (names.map Text.ofString).Nodup)
    (plain : ∀ s ∈ names, s.toList.all isPlain = true) (values : ∀ m ∈ ms, Plain m.2) :
    Plain (.object ms) := by
  refine .object (named ▸ distinct) (fun m hm => ?_) values
  have inside : m.1 ∈ names.map Text.ofString := named ▸ List.mem_map_of_mem hm
  obtain ⟨s, hs, same⟩ := List.mem_map.mp inside
  rw [← same]
  exact plainText_of_all (plain s hs)

theorem plain_of_lt {n : ℕ} (small : n < 2 ^ 256) : Plain (.int n) := by
  refine .int ?_
  rw [Int.natAbs_natCast]
  exact Numeral.few_digits small

theorem exists_forall₂ {α β : Type} {R : α → β → Prop} {xs : List α} (h : ∀ x ∈ xs, ∃ y, R x y) :
    ∃ ys, List.Forall₂ R xs ys := by
  induction xs with
  | nil => exact ⟨[], .nil⟩
  | cons x xs ih =>
    rw [List.forall_mem_cons] at h
    obtain ⟨⟨y, first⟩, rest⟩ := h
    obtain ⟨ys, all⟩ := ih rest
    exact ⟨y :: ys, .cons first all⟩

/-- **Values.** What is written of a plain value is read as that value. -/
theorem writeAt_reads {v : Value} (plain : Plain v) (level : ℕ) :
    ∃ cs, writeAt level v = .ok (Text.ofChars cs) ∧ Reads v cs := by
  induction plain generalizing level with
  | null => exact ⟨"null".toList, rfl, reads_word (by simp [words])⟩
  | bool b =>
    cases b with
    | true => exact ⟨"true".toList, rfl, reads_word (by simp [words])⟩
    | false => exact ⟨"false".toList, rfl, reads_word (by simp [words])⟩
  | @int n few =>
    refine ⟨numeral n, ?_, reads_int few⟩
    rw [writeAt, ofInt_eq_numeral]
  | text printable =>
    obtain ⟨cs, rfl, plain⟩ := printable
    refine ⟨quoted cs, ?_, reads_text plain⟩
    rw [writeAt, writtenText_plain plain]
  | @list vs _ ih =>
    cases vs with
    | nil => exact ⟨['[', ']'], rfl, reads_nil⟩
    | cons v vs =>
      rw [List.forall_mem_cons] at ih
      obtain ⟨s, written, first⟩ := ih.1 (level + 1)
      obtain ⟨ss, all⟩ := exists_forall₂ fun v hv => ih.2 v hv (level + 1)
      refine ⟨_, ?_, reads_list level (all.imp fun _ _ => And.right) first⟩
      rw [writeAt, writeItems, written]
      dsimp only
      rw [writeItems_tail (all.imp fun _ _ => And.left), newline_eq]
      simp only [Text.ofChars, List.map_cons, List.map_append, List.append_assoc]
      rfl
  | @object ms _ names _ ih =>
    have each : ∀ m ∈ ms, ∃ t : List Char × List Char,
        writeAt (level + 1) m.2 = .ok (Text.ofChars t.2) ∧ ReadsMember m t := by
      intro m hm
      obtain ⟨ns, same, plain⟩ := names m hm
      obtain ⟨cs, written, reads⟩ := ih m hm (level + 1)
      exact ⟨(ns, cs), written, same, plain, reads⟩
    cases ms with
    | nil => exact ⟨['\x7b', '\x7d'], rfl, reads_empty⟩
    | cons m ms =>
      rw [List.forall_mem_cons] at each
      obtain ⟨t, written, first⟩ := each.1
      obtain ⟨ts, all⟩ := exists_forall₂ each.2
      refine ⟨_, ?_, reads_object level (all.imp fun _ _ => And.right) first⟩
      rw [writeAt, writeMembers_cons first written (writeMembers_tail all), newline_eq]
      simp only [Text.ofChars, List.map_cons, List.map_append, List.append_assoc]
      rfl

/-- Names that differ are settled. -/
theorem settled_plain {v : Value} (plain : Plain v) : settled v = v := by
  induction plain with
  | null | bool | int | text => rfl
  | @list vs inside ih =>
    have items : settledItems vs = vs := by
      clear inside
      induction vs with
      | nil => rfl
      | cons v vs again =>
        rw [List.forall_mem_cons] at ih
        rw [settledItems, ih.1, again ih.2]
    rw [settled, items]
  | @object ms distinct names inside ih =>
    have members : settledMembers ms = ms := by
      clear distinct names inside
      induction ms with
      | nil => rfl
      | cons m ms again =>
        rw [List.forall_mem_cons] at ih
        rw [settledMembers, ih.1, again ih.2]
    rw [settled, members, settle, @Value.foldl_put [] ms distinct, List.nil_append]

/-- **Documents are read back.** -/
theorem read_write {v : Value} (plain : Plain v) :
    ∃ cs, write v = .ok (Text.ofChars cs) ∧ (∀ c ∈ cs, isSafe c = true) ∧
      read (Text.ofChars cs) = .ok v := by
  obtain ⟨cs, written, starts, safe, reads⟩ := writeAt_reads plain 0
  obtain ⟨p, skip⟩ := skip_none (fun c hc => (starts.head_append [] c hc).1) 0
  obtain ⟨p', value⟩ := reads (2 * cs.length + 2) p [] (by omega) stops_nil
  rw [List.append_nil] at skip value
  have whole : document cs = .ok v := by
    unfold document
    split
    · exact absurd (safe '\uFEFF' List.mem_cons_self) (by decide)
    · rw [skip, value]
      dsimp only
      rw [settled_plain plain]
      rfl
  refine ⟨cs, written, safe, ?_⟩
  simp only [read, Text.chars_ofChars, whole]

end Json

end ProofGate
