import Mathlib
import CodeReference.Markup.Range
import CodeReference.Proofs.Selection
import CodeReference.Proofs.Text.Lines
import CodeReference.Reference

/-!
The direction of a drag does not matter. Positions are ordered line by line and offsets keep this
order, so the span of a selection runs from the offset of its lower end to that of its upper end,
and everything that is read from a selection is the same when its ends are exchanged.
-/
namespace CodeReference

variable {t : Text} {sel : Selection} {p q : Position}

/-! ## The order of positions -/

namespace Position

def key (p : Position) : Nat ×ₗ Nat := toLex (p.line, p.character)

theorem key_injective : Function.Injective key := by
  intro p q h
  cases p
  cases q
  simpa [key] using h

/-- Positions are ordered by line, and in a line by character. -/
instance : LinearOrder Position := LinearOrder.lift' key key_injective

theorem le_iff : p ≤ q ↔ p.line < q.line ∨ p.line = q.line ∧ p.character ≤ q.character :=
  Prod.Lex.toLex_le_toLex

theorem notAfter_iff : p.notAfter q = true ↔ p ≤ q := by
  obtain ⟨line, character⟩ := p
  obtain ⟨line', character'⟩ := q
  simp only [le_iff, notAfter, before, Bool.or_eq_true, Bool.and_eq_true, decide_eq_true_eq,
    beq_iff_eq, Position.mk.injEq]
  omega

theorem min_line_lt {n : Nat} (hp : p.line < n) (hq : q.line < n) : (min p q).line < n := by
  rcases min_choice p q with h | h <;> rwa [h]

theorem max_line_lt {n : Nat} (hp : p.line < n) (hq : q.line < n) : (max p q).line < n := by
  rcases max_choice p q with h | h <;> rwa [h]

end Position

namespace Selection

theorem start_eq_min (sel : Selection) : sel.start = min sel.anchor sel.active := by
  simp only [start, min_def, Position.notAfter_iff]

theorem stop_eq_max (sel : Selection) : sel.stop = max sel.anchor sel.active := by
  simp only [stop, max_def, Position.notAfter_iff]

theorem lineRange_fst (sel : Selection) :
    sel.lineRange.1 = (min sel.anchor sel.active).line := by
  simp only [lineRange, isEmpty, start_eq_min, beq_iff_eq]
  split
  · rename_i h
    rw [h, min_self]
  · split <;> rfl

theorem lineRange_snd (sel : Selection) : sel.lineRange.2 =
    if sel.anchor ≠ sel.active ∧ (max sel.anchor sel.active).character = 0 ∧
        (min sel.anchor sel.active).line < (max sel.anchor sel.active).line then
      (max sel.anchor sel.active).line - 1
    else (max sel.anchor sel.active).line := by
  simp only [lineRange, isEmpty, start_eq_min, stop_eq_max, beq_iff_eq]
  by_cases h : sel.anchor = sel.active
  · simp [h]
  · simp only [h, if_false, ne_eq, not_false_eq_true, true_and]
    split <;> rfl

end Selection

/-! ## Offsets of positions -/

namespace Text

theorem lineAt_offsetIn (h : p.line < t.lineCount) : t.lineAt (t.offsetIn p) = p.line :=
  lineAt_lineStart_add h (min_le_right _ _)

theorem offsetIn_le_length (h : p.line < t.lineCount) : t.offsetIn p ≤ t.length :=
  lineStart_add_le_length h (min_le_right _ _)

/-- Offsets of positions keep their order: a later line starts behind the end of an earlier one. -/
theorem offsetIn_mono (hp : p.line < t.lineCount) (hq : q.line < t.lineCount) (h : p ≤ q) :
    t.offsetIn p ≤ t.offsetIn q := by
  rcases Position.le_iff.1 h with hline | ⟨hline, hcharacter⟩
  · by_contra hlt
    have hle := t.lineAt_mono (not_le.1 hlt).le
    rw [lineAt_offsetIn hp, lineAt_offsetIn hq] at hle
    exact hle.not_gt hline
  · rw [offsetIn, offsetIn, hline]
    exact Nat.add_le_add_left (min_le_min_right _ hcharacter) _

theorem min_offsetIn (hp : p.line < t.lineCount) (hq : q.line < t.lineCount) :
    min (t.offsetIn p) (t.offsetIn q) = t.offsetIn (min p q) := by
  rcases le_total p q with h | h
  · rw [min_eq_left h, min_eq_left (offsetIn_mono hp hq h)]
  · rw [min_eq_right h, min_eq_right (offsetIn_mono hq hp h)]

theorem max_offsetIn (hp : p.line < t.lineCount) (hq : q.line < t.lineCount) :
    max (t.offsetIn p) (t.offsetIn q) = t.offsetIn (max p q) := by
  rcases le_total p q with h | h
  · rw [max_eq_right h, max_eq_right (offsetIn_mono hp hq h)]
  · rw [max_eq_left h, max_eq_left (offsetIn_mono hq hp h)]

end Text

/-! ## The span of a selection -/

/-- The span that a selection has in a text: its ends are the offsets of the lower and the upper end
of the drag, and its lines are theirs. The last line is not counted if the drag reaches it only
before its first character. -/
structure Selection.HasSpan (sel : Selection) (t : Text) (s : Span) : Prop where
  start : t.offsetAt (min sel.anchor sel.active) = .ok s.start.toNat
  stop : t.offsetAt (max sel.anchor sel.active) = .ok s.stop.toNat
  start_nonneg : 0 ≤ s.start
  start_le_stop : s.start ≤ s.stop
  stop_le : s.stop ≤ t.length
  text : s.text = (t.take s.stop.toNat).drop s.start.toNat
  startLine : s.startLine = t.lineAt s.start.toNat
  stopLine : s.stopLine =
    if sel.anchor ≠ sel.active ∧ (max sel.anchor sel.active).character = 0 ∧
        (min sel.anchor sel.active).line < (max sel.anchor sel.active).line then
      (t.lineAt s.stop.toNat : Int) - 1
    else t.lineAt s.stop.toNat

namespace Selection

/-- The span runs from the lower end of the drag to the upper one. -/
theorem span_eq (hanchor : sel.anchor.line < t.lineCount) (hactive : sel.active.line < t.lineCount) :
    sel.span t = .ok
      { start := t.offsetIn (min sel.anchor sel.active)
        stop := t.offsetIn (max sel.anchor sel.active)
        startLine := sel.lineRange.1
        stopLine := sel.lineRange.2
        text := (t.take (t.offsetIn (max sel.anchor sel.active))).drop
          (t.offsetIn (min sel.anchor sel.active)) } := by
  rw [span_of_lt hanchor hactive, ← Nat.cast_min, ← Nat.cast_max,
    Text.min_offsetIn hanchor hactive, Text.max_offsetIn hanchor hactive]
  split
  · rename_i h
    rw [beq_iff_eq.1 h, min_self, max_self, List.drop_take_self]
  · rfl

theorem exists_hasSpan (hanchor : sel.anchor.line < t.lineCount)
    (hactive : sel.active.line < t.lineCount) : ∃ s, sel.span t = .ok s ∧ sel.HasSpan t s := by
  have hlow := Position.min_line_lt hanchor hactive
  have hhigh := Position.max_line_lt hanchor hactive
  have hle : t.offsetIn (min sel.anchor sel.active) ≤ t.offsetIn (max sel.anchor sel.active) :=
    Text.offsetIn_mono hlow hhigh min_le_max
  refine ⟨_, span_eq hanchor hactive, Text.offsetAt_of_lt hlow, Text.offsetAt_of_lt hhigh,
    Int.natCast_nonneg _, Int.ofNat_le.2 hle, Int.ofNat_le.2 (Text.offsetIn_le_length hhigh), rfl,
    ?_, ?_⟩
  · rw [lineRange_fst, Int.toNat_natCast, Text.lineAt_offsetIn hlow]
  · rw [lineRange_snd, Int.toNat_natCast, Text.lineAt_offsetIn hhigh]
    split
    · rename_i h
      exact Nat.cast_pred (Nat.zero_lt_of_lt h.2.2)
    · rfl

/-! ## Exchanged ends -/

/-- The same selection, dragged the other way. -/
def swap (sel : Selection) : Selection := ⟨sel.active, sel.anchor⟩

theorem start_swap (sel : Selection) : sel.swap.start = sel.start := by
  rw [start_eq_min, start_eq_min, swap, min_comm]

theorem stop_swap (sel : Selection) : sel.swap.stop = sel.stop := by
  rw [stop_eq_max, stop_eq_max, swap, max_comm]

theorem isEmpty_swap (sel : Selection) : sel.swap.isEmpty = sel.isEmpty := BEq.comm

theorem lineRange_swap (sel : Selection) : sel.swap.lineRange = sel.lineRange := by
  refine Prod.ext ?_ ?_
  · rw [lineRange_fst, lineRange_fst, swap, min_comm]
  · simp only [lineRange_snd, swap, min_comm sel.active, max_comm sel.active, ne_comm (a := sel.active)]

theorem span_swap (hanchor : sel.anchor.line < t.lineCount)
    (hactive : sel.active.line < t.lineCount) : sel.swap.span t = sel.span t := by
  have hswap : sel.swap.span t = _ := span_eq hactive hanchor
  rw [span_eq hanchor hactive, hswap, lineRange_swap, swap, min_comm, max_comm]

end Selection

theorem lineReference_swap (path : Text) (sel : Selection) :
    Entry.lineReference path sel.swap = Entry.lineReference path sel := by
  rw [Entry.lineReference, Selection.lineRange_swap, Entry.lineReference]

theorem formatSelection_swap (style : Markup.Style) (document : Text) (sel : Selection) :
    style.formatSelection document sel.swap = style.formatSelection document sel := by
  rw [Markup.Style.formatSelection, Selection.isEmpty_swap, Selection.start_swap,
    Selection.stop_swap, Markup.Style.formatSelection]

/-- A selection whose lines exist has a span, and neither the span nor anything else that is read
from the selection depends on the direction of the drag. -/
theorem Selection.hasSpan_undirected (t : Text) (sel : Selection)
    (hanchor : sel.anchor.line < t.lineCount) (hactive : sel.active.line < t.lineCount) :
    (∃ s, sel.span t = .ok s ∧ sel.HasSpan t s) ∧ sel.swap.span t = sel.span t ∧
      (∀ readTree registry settings (d : Document), d.text = t →
        references readTree registry settings d sel.swap =
          references readTree registry settings d sel) ∧
      (∀ path, Entry.lineReference path sel.swap = Entry.lineReference path sel) ∧
      ∀ style : Markup.Style, style.formatSelection t sel.swap = style.formatSelection t sel := by
  have hspan : sel.swap.span t = sel.span t := span_swap hanchor hactive
  refine ⟨exists_hasSpan hanchor hactive, hspan, ?_, fun path => lineReference_swap path sel,
    fun style => formatSelection_swap style t sel⟩
  rintro readTree registry settings d rfl
  rw [references, findings, hspan, references, findings]

/-- The drag goes back from the start of the third line, which is not counted, to a place behind the
end of the first. -/
theorem Selection.hasSpan_undirected_backward :
    Selection.span "ab\r\ncde\n\nf".toList ⟨⟨0, 9⟩, ⟨2, 0⟩⟩ =
        .ok ⟨2, 8, 0, 1, "\r\ncde\n".toList⟩ ∧
      Entry.lineReference "a.py".toList ⟨⟨0, 9⟩, ⟨2, 0⟩⟩ = "a.py:1-2".toList :=
  have h := Selection.hasSpan_undirected "ab\r\ncde\n\nf".toList ⟨⟨2, 0⟩, ⟨0, 9⟩⟩ (by decide)
    (by decide)
  ⟨h.2.1.trans (by decide +kernel), (h.2.2.2.1 "a.py".toList).trans (by decide +kernel)⟩

end CodeReference
