import Mathlib
import CodeReference.Syntax.Declaration

/-! Labels of declarations are not empty. -/
namespace CodeReference.Syntax

variable {source : Text}

theorem ne_nil_of_nonEmpty? {t label : Text} (h : nonEmpty? t = some label) : label ≠ [] := by
  simp only [nonEmpty?, Option.ite_none_left_eq_some, List.isEmpty_iff, Option.some.injEq] at h
  exact h.2 ▸ h.1

theorem qualified_ne_nil {owner : Option Text} {name : Text} (h : name ≠ []) :
    qualified owner name ≠ [] := by
  cases owner with
  | none => exact h
  | some o => simp [qualified]

theorem propertyName?_ne_nil {n : Node} {name : Text} (h : propertyName? source n = some name) :
    name ≠ [] := by
  simp only [propertyName?] at h
  split at h
  · exact ne_nil_of_nonEmpty? h
  · split at h
    · split at h
      · exact ne_nil_of_nonEmpty? h
      · cases h
    · split at h
      · obtain ⟨inner, -, hi⟩ := Option.bind_eq_some_iff.1 h
        exact ne_nil_of_nonEmpty? hi
      · cases h

theorem nameText?_ne_nil {n : Node} {name : Text} (h : nameText? source n = some name) :
    name ≠ [] := by
  obtain ⟨child, -, hc⟩ := Option.bind_eq_some_iff.1 h
  exact ne_nil_of_nonEmpty? hc

theorem variableLabel?_ne_nil {s : Site} {label : Text} (h : variableLabel? source s = some label) :
    label ≠ [] := by
  simp only [variableLabel?, bind, Option.bind_eq_some_iff] at h
  obtain ⟨name, -, value, -, hl⟩ := h
  split at hl
  · exact ne_nil_of_nonEmpty? hl
  · cases hl

theorem memberLabel?_ne_nil {s : Site} {label : Text} (h : memberLabel? source s = some label) :
    label ≠ [] := by
  simp only [memberLabel?, bind, Option.bind_eq_some_iff] at h
  obtain ⟨name, -, member, hm, hl⟩ := h
  have hm := propertyName?_ne_nil hm
  split at hl
  · split at hl
    · cases hl
      exact qualified_ne_nil hm
    · split at hl
      · cases hl
      · split at hl
        · cases hl
          exact qualified_ne_nil hm
        · cases hl
          exact hm
  · split at hl
    · cases hl
    · cases hl
      exact hm

theorem pairLabel?_ne_nil {s : Site} {label : Text} (h : pairLabel? source s = some label) :
    label ≠ [] := by
  simp only [pairLabel?, bind, Option.bind_eq_some_iff] at h
  obtain ⟨key, -, property, hp, hl⟩ := h
  have hp := propertyName?_ne_nil hp
  split at hl
  · split at hl
    · cases hl
      exact qualified_ne_nil hp
    · cases hl
      exact hp
  · cases hl
    exact hp

theorem declarationLabel?_ne_nil {s : Site} {label : Text}
    (h : declarationLabel? source s = some label) : label ≠ [] := by
  simp only [declarationLabel?] at h
  split at h
  · exact nameText?_ne_nil h
  · split at h
    · exact variableLabel?_ne_nil h
    · split at h
      · exact memberLabel?_ne_nil h
      · split at h
        · exact pairLabel?_ne_nil h
        · cases h

end CodeReference.Syntax
