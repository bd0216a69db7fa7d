import Mathlib
import CodeReference.Proofs.Direction
import CodeReference.Proofs.Syntax.Enclosing
import CodeReference.Proofs.Text.Encoding

/-!
The rows of the declarations that a walk reports. Selected lines and selected bytes end at the same
place, but where a selection ends before the first character of a line, that line is not counted,
while its first byte still touches the closed interval of selected bytes.
-/
namespace CodeReference

/-! ## Rows up to the end of a selection -/

namespace Selection

variable {t : Text} {sel : Selection} {s : Span} {b : Nat}

/-- Whether a selection ends before the first character of a line, which it does not count. -/
def StopsBeforeLine (sel : Selection) : Prop :=
  sel.isEmpty = false ∧ sel.stop.character = 0 ∧ sel.start.line < sel.stop.line

theorem stopsBeforeLine_iff : sel.StopsBeforeLine ↔
    sel.anchor ≠ sel.active ∧ (max sel.anchor sel.active).character = 0 ∧
      (min sel.anchor sel.active).line < (max sel.anchor sel.active).line := by
  simp only [StopsBeforeLine, isEmpty, beq_eq_false_iff_ne, start_eq_min, stop_eq_max]

theorem lineRange_snd_of_stopsBeforeLine (h : sel.StopsBeforeLine) :
    sel.lineRange.2 + 1 = sel.stop.line := by
  have hpos : 0 < sel.stop.line := Nat.zero_lt_of_lt h.2.2
  rw [lineRange_snd, if_pos (stopsBeforeLine_iff.1 h), ← stop_eq_max, Nat.sub_add_cancel hpos]

theorem lineRange_snd_of_not_stopsBeforeLine (h : ¬ sel.StopsBeforeLine) :
    sel.lineRange.2 = sel.stop.line := by
  rw [lineRange_snd, if_neg (mt stopsBeforeLine_iff.2 h), stop_eq_max]

theorem stop_of_span (h : sel.span t = .ok s) :
    sel.stop.line < t.lineCount ∧ s.stop.toNat = t.offsetIn sel.stop := by
  obtain ⟨hanchor, hactive⟩ := lt_of_span h
  rw [span_eq hanchor hactive, Except.ok.injEq] at h
  subst h
  rw [stop_eq_max]
  exact ⟨Position.max_line_lt hanchor hactive, Int.toNat_natCast _⟩

theorem rowAtByte_stop (h : sel.span t = .ok s) :
    t.rowAtByte (t.byteOffset s.stop.toNat) = sel.stop.line := by
  obtain ⟨hline, hstop⟩ := stop_of_span h
  rw [Text.rowAtByte_byteOffset, hstop, Text.lineAt_offsetIn hline]

/-- A byte up to the end of a selection is on a selected row or above, unless it is the first byte
of the line that the selection ends at and does not count. -/
theorem rowAtByte_le_of_span (h : sel.span t = .ok s) (hb : b ≤ t.byteOffset s.stop.toNat) :
    (t.rowAtByte b : Int) ≤ s.stopLine ∨
      sel.StopsBeforeLine ∧ b = t.byteOffset s.stop.toNat ∧
        (t.rowAtByte b : Int) = s.stopLine + 1 := by
  have hrow := t.rowAtByte_mono hb
  rw [rowAtByte_stop h] at hrow
  rw [(lines_of_span h).2]
  by_cases hstops : sel.StopsBeforeLine
  · have hlast := lineRange_snd_of_stopsBeforeLine hstops
    rcases hb.lt_or_eq with hlt | heq
    · obtain ⟨hline, hstop⟩ := stop_of_span h
      have hstart : t.offsetIn sel.stop = t.lineStart sel.stop.line := by
        rw [Text.offsetIn, hstops.2.1, Nat.zero_min, Nat.add_zero]
      rw [hstop, hstart] at hlt
      have := Text.rowAtByte_lt hline hlt
      exact .inl (by omega)
    · have := rowAtByte_stop h
      rw [← heq] at this
      exact .inr ⟨hstops, heq, by omega⟩
  · rw [lineRange_snd_of_not_stopsBeforeLine hstops]
    exact .inl (Int.ofNat_le.2 hrow)

end Selection

/-! ## Rows of declarations -/

namespace Syntax

variable {source : Text} {sel : Selection} {s : Span}

/-- Every entry of a walk stands for a declaration that begins on a selected line or above, or for
one that begins exactly where the selection ends, before the first character of a line that it does
not count. Each declaration that begins exactly there is reported. -/
theorem walk_rows (h : sel.span source = .ok s) (path : Text) (root : Node) :
    (∀ e ∈ (walk source (Query.ofSpan path source s) root).entries,
      ∃ a ∈ root.preorder, ∃ label, declarationLabel? source a = some label ∧
        e = entryAt path (a.node.row source + 1, label) ∧
        ((a.node.row source : Int) ≤ s.stopLine ∨
          sel.StopsBeforeLine ∧ a.node.first = source.byteOffset s.stop.toNat ∧
            (a.node.row source : Int) = s.stopLine + 1)) ∧
      ∀ a ∈ root.preorder, ∀ label, declarationLabel? source a = some label →
        a.node.first = source.byteOffset s.stop.toNat → a.node.first ≤ a.node.last →
        entryAt path (sel.stop.line + 1, label) ∈
          (walk source (Query.ofSpan path source s) root).entries := by
  simp only [entries_walk, List.mem_map, List.mem_eraseDups, List.mem_filterMap]
  constructor
  · rintro e ⟨⟨row, label⟩, ⟨a, ha, hreported⟩, rfl⟩
    obtain ⟨⟨hfirst, -⟩, hlabel, -, hrow⟩ := reported?_eq_some_iff.1 hreported
    obtain rfl : row = a.node.row source + 1 := hrow
    exact ⟨a, ha, label, hlabel, rfl, Selection.rowAtByte_le_of_span h hfirst⟩
  · intro a ha label hlabel hfirst hlast
    have hle : source.byteOffset s.start.toNat ≤ source.byteOffset s.stop.toNat :=
      source.byteOffset_mono (Int.toNat_le_toNat (Selection.start_le_stop_of_span h))
    have hrow : a.node.row source = sel.stop.line := by
      rw [Node.row, hfirst, Selection.rowAtByte_stop h]
    refine ⟨(sel.stop.line + 1, label), ⟨a, ha, reported?_eq_some_iff.2 ?_⟩, rfl⟩
    exact ⟨⟨hfirst.le, hle.trans (hfirst ▸ hlast)⟩, hlabel, declarationLabel?_ne_nil hlabel,
      by rw [hrow]⟩

/-! ## A declaration behind the selection -/

def twoLineScript : Text := "let a;\nfunction f() {}\n".toList

def twoLineTree : Node :=
  ⟨"program", 0, 23, none, [
    ⟨"lexical_declaration", 0, 6, none, [
      ⟨"variable_declarator", 4, 5, none, [⟨"identifier", 4, 5, some "name", []⟩]⟩]⟩,
    ⟨"function_declaration", 7, 22, none, [
      ⟨"identifier", 16, 17, some "name", []⟩,
      ⟨"formal_parameters", 17, 19, some "parameters", []⟩,
      ⟨"statement_block", 20, 22, some "body", []⟩]⟩]⟩

/-- A selection from the first line to the start of the second one, which it does not count. -/
def firstLine : Selection := ⟨⟨0, 0⟩, ⟨1, 0⟩⟩

def firstLineSpan : Span := ⟨0, 7, 0, 0, "let a;\n".toList⟩

theorem span_firstLine : firstLine.span twoLineScript = .ok firstLineSpan := by decide +kernel

/-- The function begins where the selection ends, and is reported on its own line. -/
theorem walk_rows_firstLine :
    entryAt "a.ts".toList (2, ['f']) ∈
      (walk twoLineScript (Query.ofSpan "a.ts".toList twoLineScript firstLineSpan)
        twoLineTree).entries := by
  obtain ⟨a, ha, hlabel, hfirst, hlast⟩ : ∃ a ∈ twoLineTree.preorder,
      declarationLabel? twoLineScript a = some ['f'] ∧
        a.node.first = twoLineScript.byteOffset firstLineSpan.stop.toNat ∧
        a.node.first ≤ a.node.last := by decide +kernel
  exact (walk_rows span_firstLine "a.ts".toList twoLineTree).2 a ha ['f'] hlabel hfirst hlast

/-- Nested spans do not keep a walk from reporting a declaration below the selected lines. -/
theorem not_walk_rows_le_stopLine :
    ¬ ∀ (source path : Text) (sel : Selection) (s : Span) (root : Node), root.Nested →
      sel.isEmpty = false → sel.span source = .ok s →
      ∀ e ∈ (walk source (Query.ofSpan path source s) root).entries,
        ∃ a ∈ root.preorder, ∃ label, declarationLabel? source a = some label ∧
          e = entryAt path (a.node.row source + 1, label) ∧
          (a.node.row source : Int) ≤ s.stopLine := by
  intro h
  have hreported : entryAt "a.ts".toList (2, ['f']) ∈
      (walk twoLineScript (Query.ofSpan "a.ts".toList twoLineScript firstLineSpan)
        twoLineTree).entries := by decide +kernel
  obtain ⟨a, -, label, -, heq, hrow⟩ := h twoLineScript "a.ts".toList firstLine firstLineSpan
    twoLineTree (by decide +kernel) (by decide) span_firstLine _ hreported
  have hplace : 2 = a.node.row twoLineScript + 1 := congrArg Prod.fst (entryAt_inj.1 heq)
  have hstop : firstLineSpan.stopLine = 0 := rfl
  omega

end Syntax
end CodeReference
