import Mathlib
import CodeReference.Proofs.Entry.Unique
import CodeReference.Proofs.Text.Split

/-!
Entries as lines of output. Read line by line, the output gives the rendered entries back, each
once, if and only if none of them contains a line break.
-/
namespace CodeReference

theorem Text.not_mem_ofInt {c : Char} (hsign : c ≠ '-') (hdigit : c.isDigit = false) (i : Int) :
    c ∉ Text.ofInt i := by
  have hdigits : ∀ n : Nat, c ∉ n.repr.toList := by
    intro n hc
    rw [Nat.toList_repr] at hc
    rw [Nat.isDigit_of_mem_toDigits (by decide) le_rfl hc] at hdigit
    cases hdigit
  cases i with
  | ofNat n => exact hdigits n
  | negSucc n =>
      have heq : Text.ofInt (.negSucc n) = '-' :: (n + 1).repr.toList := String.toList_append
      rw [heq, List.mem_cons, not_or]
      exact ⟨hsign, hdigits (n + 1)⟩

theorem Text.lineFeed_not_mem_ofInt (n : Nat) : '\n' ∉ Text.ofInt n :=
  Text.not_mem_ofInt (by decide) (by decide) n

namespace Entry

/-! ## One entry -/

theorem mem_render {c : Char} {e : Entry} : c ∈ e.render ↔
    c ∈ e.path ∨ c = ':' ∨ c ∈ e.lines ∨ e.labelText ≠ [] ∧ (c = ' ' ∨ c ∈ e.labelText) := by
  simp only [render, List.mem_append, List.mem_singleton, or_assoc]
  by_cases h : e.labelText = []
  · simp [h]
  · simp [h]

/-- Where the path and the lines are unbroken, only the label can break an entry. -/
theorem lineFeed_mem_render {e : Entry} (hpath : '\n' ∉ e.path) (hlines : '\n' ∉ e.lines) :
    '\n' ∈ e.render ↔ '\n' ∈ e.labelText := by
  simp only [mem_render, hpath, hlines, false_or]
  exact ⟨by simp, fun h => .inr ⟨List.ne_nil_of_mem h, .inr h⟩⟩

theorem path_isPrefix_render (e : Entry) : e.path ++ [':'] <+: e.render := by
  rw [render, List.append_assoc (e.path ++ [':'])]
  exact List.prefix_append _ _

/-! ## A list of entries -/

theorem firstOccurrences_eq {α : Type} [BEq α] [LawfulBEq α] (as : List α) :
    firstOccurrences as = as.eraseDups := by
  induction as using List.reverseRecOn with
  | nil => rfl
  | append_singleton as a ih =>
      rw [firstOccurrences, List.foldl_append, ← firstOccurrences, ih, eraseDups_concat]
      by_cases ha : a ∈ as <;> simp [ha]

theorem splitOn_format {es : List Entry} (hne : es ≠ []) :
    Text.splitOn '\n' (format es) = (es.map render).eraseDups ↔ ∀ e ∈ es, '\n' ∉ e.render := by
  constructor
  · intro h e he
    have hmem : e.render ∈ Text.splitOn '\n' (format es) := by
      rw [h, List.mem_eraseDups]
      exact List.mem_map_of_mem he
    exact Text.not_mem_of_mem_splitOn hmem
  · intro h
    obtain ⟨e, he⟩ := List.exists_mem_of_ne_nil es hne
    have hmem : e.render ∈ (es.map render).eraseDups :=
      List.mem_eraseDups.2 (List.mem_map_of_mem he)
    rw [format, firstOccurrences_eq]
    refine Text.splitOn_join (List.ne_nil_of_mem hmem) fun l hl => ?_
    obtain ⟨f, hf, rfl⟩ := List.mem_map.1 (List.mem_eraseDups.1 hl)
    exact h f hf

end Entry
end CodeReference
