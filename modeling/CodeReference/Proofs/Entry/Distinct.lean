import Mathlib
import CodeReference.Proofs.Entry.Format
import CodeReference.Proofs.Text.Scan
import CodeReference.Selection

/-!
Entries kept once, and lines of output kept once. Entries of one path are written alike exactly if
they are the same, so it does not matter whether what is repeated is left out of the entries or of
the lines they are written as.
-/
namespace CodeReference

theorem blank_not_mem_lineText (first last : Int) : ' ' ∉ lineText first last := by
  have hnumber : ∀ i : Int, ' ' ∉ Text.ofInt i := Text.not_mem_ofInt (by decide) (by decide)
  intro h
  rw [lineText] at h
  split at h
  · exact hnumber _ h
  · rw [List.mem_append, List.mem_append, List.mem_singleton] at h
    rcases h with (h | h) | h
    · exact hnumber _ h
    · exact absurd h (by decide)
    · exact hnumber _ h

namespace Entry

variable {e f : Entry} {es : List Entry}

/-! ## Entries that are written alike -/

/-- What stands behind the lines of an entry. -/
def writtenLabel (label : Text) : Text := if label.isEmpty then [] else ' ' :: label

theorem render_eq (e : Entry) :
    e.render = e.path ++ [':'] ++ (e.lines ++ writtenLabel e.labelText) :=
  List.append_assoc (e.path ++ [':']) e.lines _

theorem writtenLabel_inj {a b : Text} : writtenLabel a = writtenLabel b ↔ a = b := by
  cases a with
  | nil => cases b <;> simp [writtenLabel]
  | cons c a => cases b <;> simp [writtenLabel]

theorem head?_writtenLabel {c : Char} {label : Text} (h : c ∈ (writtenLabel label).head?) :
    c = ' ' := by
  cases label with
  | nil => cases h
  | cons d label => exact (Option.mem_some_iff.1 h).symm

/-- The lines of an entry are what stands before the first blank behind its path. -/
theorem takeWhile_lines (h : ' ' ∉ e.lines) :
    (e.lines ++ writtenLabel e.labelText).takeWhile (· != ' ') = e.lines := by
  apply Text.takeWhile_append_of_stop
  · intro c hc
    exact bne_iff_ne.2 (ne_of_mem_of_not_mem hc h)
  · intro c hc
    rw [head?_writtenLabel hc]
    rfl

theorem render_inj (hpath : e.path = f.path) (he : ' ' ∉ e.lines) (hf : ' ' ∉ f.lines) :
    e.render = f.render ↔ e.lines = f.lines ∧ e.labelText = f.labelText := by
  constructor
  · intro h
    rw [render_eq, render_eq, hpath, List.append_cancel_left_eq] at h
    have hlines : e.lines = f.lines := by
      rw [← takeWhile_lines he, h, takeWhile_lines hf]
    rw [hlines, List.append_cancel_left_eq] at h
    exact ⟨hlines, writtenLabel_inj.1 h⟩
  · rintro ⟨hlines, hlabel⟩
    rw [render_eq, render_eq, hpath, hlines, hlabel]

/-! ## Entries and lines kept once -/

/-- If entries are the same only when they are written alike, then what is kept is written as the
first occurrences of what the entries are written as. -/
theorem map_render_foldl_addUnique
    (h : ∀ e ∈ es, ∀ f ∈ es, e.same f = true ↔ e.render = f.render) :
    (es.foldl addUnique []).map render = (es.map render).eraseDups := by
  induction es using List.reverseRecOn with
  | nil => rfl
  | append_singleton es e ih =>
      have hes : ∀ f ∈ es, f ∈ es ++ [e] := fun f hf => List.mem_append_left [e] hf
      have hsame : es.any (same · e) = true ↔ e.render ∈ es.map render := by
        rw [List.any_eq_true, List.mem_map]
        exact exists_congr fun f => and_congr_right fun hf => h f (hes f hf) e (by simp)
      have ih := ih fun f hf g hg => h f (hes f hf) g (hes g hg)
      rw [foldl_addUnique_concat, List.map_append, List.map_singleton, eraseDups_concat]
      by_cases hany : es.any (same · e) = true
      · rw [if_pos hany, if_pos (hsame.1 hany), ih]
      · rw [if_neg hany, if_neg (mt hsame.2 hany), List.map_append, List.map_singleton, ih]

theorem format_eq (es : List Entry) : format es = Text.join ['\n'] (es.map render).eraseDups := by
  rw [format, firstOccurrences_eq]

/-- Two entries of one path are written alike exactly if their lines agree and their labels, where
none is the same as an empty one. So the entries that are kept, the first of each kind in order, are
written as the whole list is, whether or not lines are kept once too. -/
theorem format_foldl_addUnique {path : Text}
    (h : ∀ e ∈ es, e.path = path ∧ ∃ first last : Int, e.lines = lineText first last) :
    (∀ e ∈ es, ∀ f ∈ es,
      e.render = f.render ↔ e.lines = f.lines ∧ e.labelText = f.labelText) ∧
      (∀ before e after, es = before ++ e :: after →
        (before ++ [e]).foldl addUnique [] = before.foldl addUnique [] ++
          if ∃ f ∈ before, f.lines = e.lines ∧ f.labelText = e.labelText then [] else [e]) ∧
      Text.join ['\n'] ((es.foldl addUnique []).map render) = format es ∧
      format (es.foldl addUnique []) = format es := by
  have hblank : ∀ e ∈ es, ' ' ∉ e.lines := by
    intro e he
    obtain ⟨-, first, last, hlines⟩ := h e he
    rw [hlines]
    exact blank_not_mem_lineText first last
  have hpath : ∀ e ∈ es, ∀ f ∈ es, e.path = f.path := fun e he f hf =>
    (h e he).1.trans (h f hf).1.symm
  have hrender : ∀ e ∈ es, ∀ f ∈ es,
      e.render = f.render ↔ e.lines = f.lines ∧ e.labelText = f.labelText := fun e he f hf =>
    render_inj (hpath e he f hf) (hblank e he) (hblank f hf)
  have hsame : ∀ e ∈ es, ∀ f ∈ es,
      e.same f = true ↔ e.lines = f.lines ∧ e.labelText = f.labelText := fun e he f hf =>
    same_iff.trans (and_iff_right (hpath e he f hf))
  have hmap : (es.foldl addUnique []).map render = (es.map render).eraseDups :=
    map_render_foldl_addUnique fun e he f hf => (hsame e he f hf).trans (hrender e he f hf).symm
  refine ⟨hrender, ?_, ?_, ?_⟩
  · intro before e after heq
    have hbefore : ∀ f ∈ before, f.same e = true ↔
        f.lines = e.lines ∧ f.labelText = e.labelText := fun f hf =>
      hsame f (by simp [heq, hf]) e (by simp [heq])
    have hany : before.any (same · e) = true ↔
        ∃ f ∈ before, f.lines = e.lines ∧ f.labelText = e.labelText := by
      rw [List.any_eq_true]
      exact exists_congr fun f => and_congr_right fun hf => hbefore f hf
    rw [foldl_addUnique_concat]
    by_cases hf : ∃ f ∈ before, f.lines = e.lines ∧ f.labelText = e.labelText
    · rw [if_pos hf, if_pos (hany.2 hf), List.append_nil]
    · rw [if_neg hf, if_neg (mt hany.1 hf)]
  · rw [hmap, format_eq]
  · rw [format_eq, hmap, eraseDups_eraseDups, format_eq]

/-- Entries of one path, with labels that look like lines. -/
def sampleEntries : List Entry :=
  [("1", none), ("1-2", some "2"), ("1", some ""), ("1", some "-2 2"), ("1-2", some "2")].map
    fun (lines, label) => ⟨"a.py".toList, lines.toList, label.map (·.toList)⟩

/-- An empty label counts as none, and labels with digits and blanks do not pass for lines. -/
theorem format_foldl_addUnique_sampleEntries :
    (∀ e ∈ sampleEntries, e.path = "a.py".toList ∧
      ∃ first last : Int, e.lines = lineText first last) ∧
    Text.join ['\n'] ((sampleEntries.foldl addUnique []).map render) =
      "a.py:1\na.py:1-2 2\na.py:1 -2 2".toList := by
  have hlines : ∀ e ∈ sampleEntries, e.path = "a.py".toList ∧
      (e.lines = lineText 0 0 ∨ e.lines = lineText 0 1) := by decide +kernel
  have h : ∀ e ∈ sampleEntries, e.path = "a.py".toList ∧
      ∃ first last : Int, e.lines = lineText first last := by
    intro e he
    obtain ⟨hpath, hline | hline⟩ := hlines e he
    · exact ⟨hpath, 0, 0, hline⟩
    · exact ⟨hpath, 0, 1, hline⟩
  exact ⟨h, (format_foldl_addUnique h).2.2.1.trans (by decide +kernel)⟩

end Entry
end CodeReference
