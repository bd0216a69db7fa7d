import Mathlib
import CodeReference.Text.Lines
import CodeReference.Text.Utf8

/-!
Bytes and lines. Byte offsets keep the order of character offsets, and the rows that bytes are on
are lines of the text.
-/
namespace CodeReference.Text

/-! ## Byte offsets -/

theorem byteWidth_append (t u : Text) : byteWidth (t ++ u) = byteWidth t + byteWidth u := by
  induction t with
  | nil => simp [byteWidth]
  | cons c t ih => rw [List.cons_append, byteWidth, byteWidth, ih, Nat.add_assoc]

theorem byteOffset_mono (t : Text) {a b : Nat} (h : a ≤ b) : byteOffset t a ≤ byteOffset t b := by
  obtain ⟨u, hu⟩ := List.take_prefix_take_left (l := t) h
  rw [byteOffset, byteOffset, ← hu, byteWidth_append]
  exact Nat.le_add_right _ _

/-! ## Lines and rows -/

theorem length_breaks (base : Nat) (t : Text) : (breaks base t).length = t.count '\n' := by
  induction t generalizing base with
  | nil => rfl
  | cons c t ih =>
      rw [breaks, List.count_cons]
      split
      · rename_i hc
        simp [ih, hc]
      · rename_i hc
        simp [ih, hc]

/-- There is one line more than there are line feeds. -/
theorem lineCount_eq (t : Text) : lineCount t = t.count '\n' + 1 := by
  rw [lineCount, lineStarts, List.length_cons, length_breaks]

theorem rowAtByte_go_le (offset pos : Nat) (t : Text) :
    rowAtByte.go offset pos t ≤ t.count '\n' := by
  induction t generalizing pos with
  | nil => exact Nat.zero_le _
  | cons c t ih =>
      rw [rowAtByte.go, List.count_cons]
      have := ih (pos + c.utf8Size)
      split
      · exact Nat.zero_le _
      · simp only [beq_iff_eq]
        omega

theorem rowAtByte_lt_lineCount (t : Text) (offset : Nat) : rowAtByte t offset < lineCount t := by
  rw [lineCount_eq, rowAtByte]
  exact Nat.lt_succ_of_le (rowAtByte_go_le offset 0 t)

end CodeReference.Text
