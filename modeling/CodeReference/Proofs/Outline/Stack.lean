import Mathlib
import CodeReference.Outline.Block

/-!
The open blocks during a scan are a stack of growing indentation. So a line that ends blocks ends
all open ones that are not indented less than it, although only the innermost ones are looked at.
-/
namespace CodeReference.Outline

/-- Of two open drafts the newer one is indented more; the drafts are given newest first. -/
def Stacked (drafts : List Draft) : Prop :=
  drafts.Pairwise fun newer older =>
    newer.isOpen = true → older.isOpen = true → older.indent < newer.indent

/-- A draft after a line of an indentation that ends blocks. -/
def Draft.closeAt (line : Nat) (indent : Int) (d : Draft) : Draft :=
  if d.isOpen = true ∧ indent ≤ d.indent then { d with stop? := some (line - 1) } else d

@[simp] theorem Draft.closeAt_indent (line : Nat) (indent : Int) (d : Draft) :
    (d.closeAt line indent).indent = d.indent := by
  unfold Draft.closeAt
  split <;> rfl

@[simp] theorem Draft.closeAt_kind (line : Nat) (indent : Int) (d : Draft) :
    (d.closeAt line indent).kind = d.kind := by
  unfold Draft.closeAt
  split <;> rfl

@[simp] theorem Draft.closeAt_name (line : Nat) (indent : Int) (d : Draft) :
    (d.closeAt line indent).name = d.name := by
  unfold Draft.closeAt
  split <;> rfl

@[simp] theorem Draft.closeAt_label (line : Nat) (indent : Int) (d : Draft) :
    (d.closeAt line indent).label = d.label := by
  unfold Draft.closeAt
  split <;> rfl

@[simp] theorem Draft.closeAt_start (line : Nat) (indent : Int) (d : Draft) :
    (d.closeAt line indent).start = d.start := by
  unfold Draft.closeAt
  split <;> rfl

theorem Draft.isOpen_closeAt {line : Nat} {indent : Int} {d : Draft} :
    (d.closeAt line indent).isOpen = true ↔ d.isOpen = true ∧ d.indent < indent := by
  unfold Draft.closeAt
  split
  · rename_i h
    simp only [Draft.isOpen, Option.isNone_some, Bool.false_eq_true, false_iff, not_and]
    omega
  · rename_i h
    rw [not_and] at h
    exact ⟨fun ho => ⟨ho, Int.lt_of_not_ge (h ho)⟩, fun ho => ho.1⟩

theorem closeBefore_eq_map {drafts : List Draft} (h : Stacked drafts) (line : Nat) (indent : Int) :
    closeBefore line indent drafts = drafts.map (Draft.closeAt line indent) := by
  induction drafts with
  | nil => rfl
  | cons d ds ih =>
      obtain ⟨hd, hds⟩ := List.pairwise_cons.1 h
      rw [closeBefore, List.map_cons, ih hds]
      by_cases ho : d.isOpen = true
      · by_cases hi : indent ≤ d.indent
        · simp [ho, hi, Draft.closeAt]
        · -- The open drafts behind this one are indented even less, so none of them changes.
          have hrest : ds.map (Draft.closeAt line indent) = ds := by
            refine (List.map_congr_left fun e he => ?_).trans (List.map_id ds)
            refine if_neg fun hc => ?_
            have := hd e he ho hc.1
            omega
          simp [ho, hi, Draft.closeAt, hrest]
      · simp [ho, Draft.closeAt]

theorem Stacked.map_closeAt {drafts : List Draft} (h : Stacked drafts) (line : Nat) (indent : Int) :
    Stacked (drafts.map (Draft.closeAt line indent)) := by
  refine List.pairwise_map.2 (h.imp fun hlt hn ho => ?_)
  rw [Draft.closeAt_indent, Draft.closeAt_indent]
  exact hlt (Draft.isOpen_closeAt.1 hn).1 (Draft.isOpen_closeAt.1 ho).1

/-- The label of a header that is put on top of drafts. -/
def labelOver (drafts : List Draft) : BlockKind → Text → Text
  | .classBlock, name => name
  | .defBlock, name => qualify (owner? drafts) name

/-- What one line does to the drafts: it may end some of them and put a new one on top. -/
theorem scanLine_of_significant (tabWidth : Int) {drafts : List Draft} {line : Text} (number : Nat)
    (h : Stacked drafts) (hs : isSignificant (Text.trim line) = true) :
    scanLine tabWidth drafts (line, number) =
      ((header? (Text.trim line)).map fun (kind, name) =>
        ⟨kind, name,
          labelOver (drafts.map (Draft.closeAt number (indentOf tabWidth line))) kind name,
          indentOf tabWidth line, number, none⟩).toList ++
      drafts.map (Draft.closeAt number (indentOf tabWidth line)) := by
  simp only [scanLine, hs, Bool.not_true, Bool.false_eq_true, if_false, closeBefore_eq_map h]
  cases header? (Text.trim line) with
  | none => rfl
  | some found =>
      obtain ⟨kind, name⟩ := found
      cases kind <;> rfl

theorem scanLine_of_not_significant {tabWidth : Int} {drafts : List Draft} {line : Text}
    (number : Nat) (hs : isSignificant (Text.trim line) = false) :
    scanLine tabWidth drafts (line, number) = drafts := by
  simp [scanLine, hs]

theorem Stacked.scanLine {tabWidth : Int} {drafts : List Draft} (h : Stacked drafts)
    (entry : Text × Nat) : Stacked (scanLine tabWidth drafts entry) := by
  obtain ⟨line, number⟩ := entry
  cases hs : isSignificant (Text.trim line) with
  | false => rwa [scanLine_of_not_significant number hs]
  | true =>
      rw [scanLine_of_significant tabWidth number h hs]
      cases header? (Text.trim line) with
      | none => exact h.map_closeAt number _
      | some found =>
          refine List.pairwise_cons.2 ⟨fun e he _ ho => ?_, h.map_closeAt number _⟩
          obtain ⟨d, -, rfl⟩ := List.mem_map.1 he
          rw [Draft.closeAt_indent]
          exact (Draft.isOpen_closeAt.1 ho).2

end CodeReference.Outline
