import ProofGate.Command.Loading
import ProofGate.Proofs.Json.RoundTrip

/-!
# Texts in files

A text of plain characters that is written into a file is read back, because every character is one
byte and no line ends in a way that reading changes. So a plain document is loaded as it was
written.
-/

namespace ProofGate

theorem Utf8.encode_ascii {cs : List Char} (ascii : ∀ c ∈ cs, c.toNat < 128) :
    encode (Text.ofChars cs) = cs.map fun c => UInt8.ofNat c.toNat := by
  induction cs with
  | nil => rfl
  | cons c cs ih =>
    rw [List.forall_mem_cons] at ascii
    have one : encodePoint (.char c) = [UInt8.ofNat c.toNat] := if_pos ascii.1
    show encodePoint (.char c) ++ encode (Text.ofChars cs) = _
    rw [one, ih ascii.2]
    rfl

theorem Utf8.decodeFrom_ascii {cs : List Char} (ascii : ∀ c ∈ cs, c.toNat < 128) (pos : ℕ)
    (done : List Char) :
    decodeFrom pos (cs.map fun c => UInt8.ofNat c.toNat) done = .ok (done.reverse ++ cs) := by
  induction cs generalizing pos done with
  | nil =>
    rw [List.map_nil, decodeFrom, List.append_nil]
  | cons c cs ih =>
    rw [List.forall_mem_cons] at ascii
    have code : (UInt8.ofNat c.toNat).toNat = c.toNat := by
      rw [UInt8.toNat_ofNat', Nat.mod_eq_of_lt (Nat.lt_trans ascii.1 (by decide))]
    have low : UInt8.ofNat c.toNat < 0x80 := by
      rw [UInt8.lt_iff_toNat_lt, code]
      exact ascii.1
    have read : next (UInt8.ofNat c.toNat) (cs.map fun c => UInt8.ofNat c.toNat) = .ok (c, 0) := by
      simp only [next, shape?, if_pos low, List.take_zero, if_true, code, Char.ofNat_toNat]
    rw [List.map_cons, decodeFrom, read]
    dsimp only
    rw [List.drop_zero, ih ascii.2, List.reverse_cons, List.append_assoc, List.singleton_append]

namespace Folder

theorem unifyLines_safe {cs : List Char} (safe : ∀ c ∈ cs, c ≠ '\r') :
    unifyLines (Text.ofChars cs) = Text.ofChars cs := by
  induction cs with
  | nil => rfl
  | cons c cs ih =>
    rw [List.forall_mem_cons] at safe
    have kept := ih safe.2
    show unifyLines (.char c :: Text.ofChars cs) = .char c :: Text.ofChars cs
    unfold unifyLines
    split
    · next same => exact absurd (Point.char.inj (List.cons.inj same).1) safe.1
    · next same => exact absurd (Point.char.inj (List.cons.inj same).1) safe.1
    · next same =>
      cases same
      rw [kept]
    · next same => cases same

/-- **Texts are read back** from the bytes of a file. -/
theorem textOf_encode {cs : List Char} (safe : ∀ c ∈ cs, Json.isSafe c = true) :
    textOf (Utf8.encode (Text.ofChars cs)) = .ok (Text.ofChars cs) := by
  have ascii : ∀ c ∈ cs, c.toNat < 128 := fun c hc =>
    of_decide_eq_true (Bool.and_eq_true_iff.mp (safe c hc)).1
  have lines : ∀ c ∈ cs, c ≠ '\r' := fun c hc =>
    bne_iff_ne.mp (Bool.and_eq_true_iff.mp (safe c hc)).2
  have decoded : Utf8.decode (Utf8.encode (Text.ofChars cs)) = .ok (Text.ofChars cs) := by
    rw [Utf8.decode, Utf8.encode_ascii ascii, Utf8.decodeFrom_ascii ascii]
    rfl
  rw [textOf, decoded]
  exact congrArg Except.ok (unifyLines_safe lines)

end Folder

namespace Loading

/-- A plain document that is written into a file is loaded from it. -/
theorem json_of_saved {v : Value} (plain : Json.Plain v) :
    ∃ t, Json.write v = .ok t ∧ ∀ (d : Folder) (path : Text),
      d.readBytes path = .ok (Utf8.encode t) → json d path = .ok v := by
  obtain ⟨cs, written, safe, read⟩ := Json.read_write plain
  refine ⟨Text.ofChars cs, written, fun d path holds => ?_⟩
  rw [json, Folder.readText, holds, ok_bind, Folder.textOf_encode safe, ok_bind, read]

end Loading

end ProofGate
