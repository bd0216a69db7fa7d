import Mathlib

/-!
Lists without repetitions, lists that ascend and lists of values under keys. Removing duplicates
keeps the first occurrence of each member where it is, the last member of an ascending list has the
greatest key, and values that are changed under their keys are found changed.
-/
namespace CodeReference

section
variable {α : Type} [BEq α] [LawfulBEq α]

theorem eraseDups_concat (as : List α) (a : α) :
    (as ++ [a]).eraseDups = if a ∈ as then as.eraseDups else as.eraseDups ++ [a] := by
  rw [List.eraseDups_append]
  by_cases ha : a ∈ as <;> simp [ha, List.removeAll, List.eraseDups_cons]

theorem nodup_eraseDups (as : List α) : as.eraseDups.Nodup := by
  induction as using List.reverseRecOn with
  | nil => simp
  | append_singleton as a ih =>
      rw [eraseDups_concat]
      split
      · exact ih
      · rename_i ha
        have hne : ∀ b ∈ as, b ≠ a := fun b hb => ne_of_mem_of_not_mem hb ha
        simpa [ih, List.nodup_append] using hne

theorem eraseDups_eraseDups (as : List α) : as.eraseDups.eraseDups = as.eraseDups := by
  induction as using List.reverseRecOn with
  | nil => rfl
  | append_singleton as a ih =>
      rw [eraseDups_concat]
      split
      · exact ih
      · rename_i ha
        rw [eraseDups_concat, if_neg (mt List.mem_eraseDups.1 ha), ih]

theorem eraseDups_sublist (as : List α) : as.eraseDups.Sublist as := by
  induction as using List.reverseRecOn with
  | nil => exact List.Sublist.refl []
  | append_singleton as a ih =>
      rw [eraseDups_concat]
      split
      · exact ih.trans (List.sublist_append_left as [a])
      · exact ih.append_right [a]

end

theorem lookup_map_snd {α β γ : Type} [BEq α] [LawfulBEq α] (f : α → β → γ) (l : List (α × β))
    (a : α) : (l.map fun m => (m.1, f m.1 m.2)).lookup a = (l.lookup a).map (f a) := by
  induction l with
  | nil => rfl
  | cons m l ih =>
      rw [List.map_cons, List.lookup_cons, ih, List.lookup_cons]
      cases h : a == m.1 with
      | true => rw [eq_of_beq h]; rfl
      | false => rfl

theorem getLast?_eq_some_iff_of_pairwise {α β : Type} [LinearOrder β] {key : α → β} {as : List α}
    {a : α} (h : as.Pairwise fun b c => key b < key c) :
    as.getLast? = some a ↔ a ∈ as ∧ ∀ b ∈ as, key b ≤ key a := by
  constructor
  · intro ha
    obtain ⟨front, rfl⟩ := List.getLast?_eq_some_iff.1 ha
    refine ⟨by simp, fun b hb => ?_⟩
    rcases List.mem_append.1 hb with hb | hb
    · exact ((List.pairwise_append.1 h).2.2 b hb a List.mem_cons_self).le
    · rw [List.mem_singleton.1 hb]
  · rintro ⟨ha, hmax⟩
    -- All others have smaller keys than the last one, so `a` can only be the last one itself.
    rcases List.eq_nil_or_concat' as with rfl | ⟨front, last, rfl⟩
    · simp at ha
    · rw [List.getLast?_concat, Option.some.injEq]
      rcases List.mem_append.1 ha with ha | ha
      · have hlt := (List.pairwise_append.1 h).2.2 a ha last List.mem_cons_self
        exact absurd (hmax last (by simp)) (not_le.2 hlt)
      · exact (List.mem_singleton.1 ha).symm

end CodeReference
