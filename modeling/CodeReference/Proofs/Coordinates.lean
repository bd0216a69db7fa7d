import Mathlib
import CodeReference.Outline.Block
import CodeReference.Proofs.Text.Encoding
import CodeReference.Syntax.Walk

/-!
Three ways to say where something is in a text: by its line and character, by the lines that an
outline is read from, and by the bytes that a syntax tree counts. All three give the same lines, and
what a node meets or holds can be decided in characters.
-/
namespace CodeReference

/-! ## Lines of an outline -/

namespace Outline

theorem length_dropReturns (ls : List Text) : (lines.dropReturns ls).length = ls.length := by
  fun_induction lines.dropReturns ls with
  | case1 => rfl
  | case2 last => rfl
  | case3 l r h ih => rw [List.length_cons, List.length_cons, ih]

/-- Each line but the last one loses the carriage return at its end. -/
theorem getElem?_dropReturns {ls : List Text} {line : Nat} {l : Text} (h : ls[line]? = some l) :
    (lines.dropReturns ls)[line]? =
      some (if line + 1 = ls.length then l else Text.dropReturn l) := by
  fun_induction lines.dropReturns ls generalizing line with
  | case1 => simp at h
  | case2 last =>
      obtain ⟨hline, rfl⟩ := List.getElem?_eq_some_iff.1 h
      obtain rfl : line = 0 := by simpa using hline
      rfl
  | case3 m r hr ih =>
      cases line with
      | zero =>
          rw [List.getElem?_cons_zero, Option.some.injEq] at h
          have hlast : 0 + 1 ≠ (m :: r).length := by simpa using Ne.symm hr
          rw [if_neg hlast, h]
          rfl
      | succ line =>
          rw [List.getElem?_cons_succ] at h ⊢
          simp only [ih h, List.length_cons, Nat.add_right_cancel_iff]

theorem length_lines (t : Text) : (lines t).length = t.lineCount := by
  rw [lines, length_dropReturns, Text.length_splitOn, Text.lineCount_eq]

theorem getElem?_lines {t : Text} {line : Nat} (h : line < t.lineCount) :
    ∃ l, (lines t)[line]? = some l ∧
      (l = t.lineContent line ∨ line + 1 = t.lineCount ∧ l = t.lineContent line ++ ['\r']) := by
  obtain ⟨above, content, below, hline⟩ := Text.exists_isLine h
  refine ⟨_, getElem?_dropReturns hline.getElem?_splitOn, ?_⟩
  rw [Text.length_splitOn, ← Text.lineCount_eq, hline.lineContent_eq]
  split
  · rename_i hlast
    exact (Text.dropReturn_append content).imp Eq.symm fun h => ⟨hlast, h.symm⟩
  · exact .inl rfl

end Outline

/-! ## Nodes on boundaries of characters -/

namespace Syntax

variable {t : Text} {n : Node} {first last : Nat}

/-- Whether a node spans the characters `first` to `last` of a text. -/
structure Node.Spans (t : Text) (first last : Nat) (n : Node) : Prop where
  first_le : first ≤ t.length
  last_le : last ≤ t.length
  first_eq : n.first = t.byteOffset first
  last_eq : n.last = t.byteOffset last

theorem Node.Spans.meets_iff (h : n.Spans t first last) {i j : Nat} (hi : i ≤ t.length) :
    n.meets (t.byteOffset i) (t.byteOffset j) = true ↔ first ≤ j ∧ i ≤ last := by
  rw [Node.meets, Bool.and_eq_true, decide_eq_true_eq, decide_eq_true_eq, h.first_eq, h.last_eq,
    Text.byteOffset_le_iff h.first_le, Text.byteOffset_le_iff hi]

theorem Node.Spans.holds_iff (h : n.Spans t first last) {i : Nat} (hi : i ≤ t.length) :
    n.holds (t.byteOffset i) = true ↔ first ≤ i ∧ i ≤ last := by
  rw [Node.holds, Bool.and_eq_true, decide_eq_true_eq, decide_eq_true_eq, h.first_eq, h.last_eq,
    Text.byteOffset_le_iff h.first_le, Text.byteOffset_le_iff hi]

/-- What a walk asks of a node that spans the characters `first` to `last`, it can ask of the
characters. -/
theorem Node.Spans.ofSpan_iff (h : n.Spans t first last) (path : Text) {s : Span}
    (hstart : 0 ≤ s.start) (hle : s.start ≤ s.stop) (hstop : s.stop ≤ t.length) :
    (n.meets (Query.ofSpan path t s).start (Query.ofSpan path t s).stop = true ↔
        first ≤ s.stop ∧ s.start ≤ last) ∧
      (n.holds (Query.ofSpan path t s).focus = true ↔ first ≤ s.focus ∧ s.focus ≤ last) := by
  have hi : s.start.toNat ≤ t.length := by omega
  refine ⟨(h.meets_iff hi).trans ?_, (h.holds_iff hi).trans ?_⟩
  · omega
  · rw [Span.focus]
    omega

end Syntax

open Syntax

/-- The lines of an outline are the lines of the text, but the last one may end with a carriage
return. The row of a byte offset is the line of the character offset it comes from. Byte offsets
keep the order of character offsets, so nodes between characters meet a selection and hold its focus
in bytes exactly if they do so in characters. -/
theorem coordinates_agree (t : Text) :
    ((Outline.lines t).length = t.lineCount ∧
        ∀ line < t.lineCount, ∃ l, (Outline.lines t)[line]? = some l ∧
          (l = t.lineContent line ∨
            line + 1 = t.lineCount ∧ l = t.lineContent line ++ ['\r'])) ∧
      (∀ offset ≤ t.length,
        t.byteOffset offset = (Text.encode (t.take offset)).length ∧
          (t.encode.take (t.byteOffset offset)).count Text.lineFeed = t.lineAt offset ∧
          t.rowAtByte (t.byteOffset offset) = t.lineAt offset) ∧
      (∀ i j, i < j → j ≤ t.length → t.byteOffset i < t.byteOffset j) ∧
      ∀ (n : Node) (first last : Nat), n.Spans t first last →
        ∀ (path : Text) (s : Span), 0 ≤ s.start → s.start ≤ s.stop → s.stop ≤ t.length →
          (n.meets (Query.ofSpan path t s).start (Query.ofSpan path t s).stop = true ↔
              first ≤ s.stop ∧ s.start ≤ last) ∧
            (n.holds (Query.ofSpan path t s).focus = true ↔
              first ≤ s.focus ∧ s.focus ≤ last) := by
  refine ⟨⟨Outline.length_lines t, fun line => Outline.getElem?_lines⟩, fun offset _ => ?_,
    fun i j => Text.byteOffset_lt, fun n first last h path s => h.ofSpan_iff path⟩
  have hcount := t.count_take_byteOffset offset
  exact ⟨(Text.length_encode _).symm, hcount, (t.rowAtByte_eq_count _).trans hcount⟩

end CodeReference
