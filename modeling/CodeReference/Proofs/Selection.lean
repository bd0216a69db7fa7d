import Mathlib
import CodeReference.Selection

/-!
Which selections have a span in a text, and the order of its offsets and lines. Only a position
beyond the last line can fail; the checks of the span itself never do.
-/
namespace CodeReference

variable {t : Text} {sel : Selection} {s : Span}

/-! ## Lines of a selection -/

theorem Position.line_le_of_not_notAfter {p q : Position} (h : p.notAfter q = false) :
    q.line ≤ p.line := by
  simp only [Position.notAfter, Position.before, Bool.or_eq_false_iff, Bool.and_eq_false_imp,
    decide_eq_false_iff_not, not_lt] at h
  exact h.1.1

theorem Position.line_le_of_notAfter {p q : Position} (h : p.notAfter q = true) :
    p.line ≤ q.line := by
  simp only [Position.notAfter, Position.before, Bool.or_eq_true, Bool.and_eq_true,
    decide_eq_true_eq, beq_iff_eq] at h
  rcases h with (h | h) | rfl
  · exact h.le
  · exact h.1.le
  · exact le_rfl

namespace Selection

theorem start_line_le_stop_line (sel : Selection) : sel.start.line ≤ sel.stop.line := by
  cases h : sel.anchor.notAfter sel.active with
  | true => simpa [start, stop, h] using Position.line_le_of_notAfter h
  | false => simpa [start, stop, h] using Position.line_le_of_not_notAfter h

theorem lineRange_le (sel : Selection) : sel.lineRange.1 ≤ sel.lineRange.2 := by
  have h := sel.start_line_le_stop_line
  unfold lineRange
  split
  · exact le_rfl
  · dsimp only
    split
    · rename_i hlt
      exact Nat.le_sub_one_of_lt hlt.2
    · exact h

theorem lineRange_lt {n : Nat} (hanchor : sel.anchor.line < n) (hactive : sel.active.line < n) :
    sel.lineRange.2 < n := by
  have hstop : sel.stop.line < n := by
    unfold stop
    split
    · exact hactive
    · exact hanchor
  unfold lineRange
  split
  · exact hactive
  · dsimp only
    split
    · exact (Nat.sub_le _ _).trans_lt hstop
    · exact hstop

end Selection

/-! ## Spans -/

namespace Text

/-- The offset of a position whose line exists. -/
def offsetIn (t : Text) (p : Position) : Nat :=
  t.lineStart p.line + min p.character (t.lineLength p.line)

theorem offsetAt_of_lt {p : Position} (h : p.line < t.lineCount) :
    t.offsetAt p = .ok (t.offsetIn p) := if_neg (not_le.2 h)

theorem offsetAt_of_le {p : Position} (h : t.lineCount ≤ p.line) :
    t.offsetAt p = .error (.lineOutOfRange p.line t.lineCount) := if_pos h

end Text

theorem Span.make_of_le {start stop startLine stopLine : Int} {text : Text} (h : start ≤ stop)
    (hline : startLine ≤ stopLine) :
    Span.make start stop startLine stopLine text = .ok ⟨start, stop, startLine, stopLine, text⟩ := by
  rw [Span.make, if_neg (not_lt.2 h), if_neg (not_lt.2 hline)]

namespace Selection

theorem span_of_le_anchor (h : t.lineCount ≤ sel.anchor.line) :
    sel.span t = .error (.place (.lineOutOfRange sel.anchor.line t.lineCount)) := by
  rw [span, Text.offsetAt_of_le h]
  rfl

theorem span_of_le_active (hanchor : sel.anchor.line < t.lineCount)
    (h : t.lineCount ≤ sel.active.line) :
    sel.span t = .error (.place (.lineOutOfRange sel.active.line t.lineCount)) := by
  rw [span, Text.offsetAt_of_lt hanchor, Text.offsetAt_of_le h]
  rfl

theorem span_of_lt (hanchor : sel.anchor.line < t.lineCount)
    (hactive : sel.active.line < t.lineCount) :
    sel.span t = .ok
      { start := min (t.offsetIn sel.anchor) (t.offsetIn sel.active)
        stop := max (t.offsetIn sel.anchor) (t.offsetIn sel.active)
        startLine := sel.lineRange.1
        stopLine := sel.lineRange.2
        text := if sel.isEmpty then [] else
          (t.take (max (t.offsetIn sel.anchor) (t.offsetIn sel.active))).drop
            (min (t.offsetIn sel.anchor) (t.offsetIn sel.active)) } := by
  rw [span, Text.offsetAt_of_lt hanchor, Text.offsetAt_of_lt hactive]
  simp only [Except.mapError, bind, Except.bind]
  rw [Span.make_of_le (by omega) (Int.ofNat_le.2 sel.lineRange_le), Nat.cast_min, Nat.cast_max]

theorem lt_of_span (h : sel.span t = .ok s) :
    sel.anchor.line < t.lineCount ∧ sel.active.line < t.lineCount := by
  by_cases hanchor : sel.anchor.line < t.lineCount
  · by_cases hactive : sel.active.line < t.lineCount
    · exact ⟨hanchor, hactive⟩
    · rw [span_of_le_active hanchor (not_lt.1 hactive)] at h
      cases h
  · rw [span_of_le_anchor (not_lt.1 hanchor)] at h
    cases h

theorem start_le_stop_of_span (h : sel.span t = .ok s) : s.start ≤ s.stop := by
  obtain ⟨hanchor, hactive⟩ := lt_of_span h
  rw [span_of_lt hanchor hactive, Except.ok.injEq] at h
  subst h
  exact min_le_max

theorem lines_of_span (h : sel.span t = .ok s) :
    s.startLine = sel.lineRange.1 ∧ s.stopLine = sel.lineRange.2 := by
  obtain ⟨hanchor, hactive⟩ := lt_of_span h
  rw [span_of_lt hanchor hactive, Except.ok.injEq] at h
  subst h
  exact ⟨rfl, rfl⟩

end Selection
end CodeReference
