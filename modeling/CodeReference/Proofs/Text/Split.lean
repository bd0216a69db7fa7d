import Mathlib
import CodeReference.Text.Basic

/-! Cutting a text at a character, and joining the pieces again. -/
namespace CodeReference.Text

theorem splitOn_eq (c : Char) (t : Text) : splitOn c t = List.splitOn c t := by
  induction t with
  | nil => rfl
  | cons a t ih =>
      rw [splitOn, ih, List.splitOn_cons_eq_if_modifyHead]
      simp only [beq_iff_eq]
      cases h : List.splitOn c t with
      | nil => exact absurd h (List.splitOn_ne_nil c t)
      | cons l r => rfl

theorem join_eq (sep : Text) (ls : List Text) : join sep ls = sep.intercalate ls := by
  fun_induction join sep ls with
  | case1 => simp
  | case2 t => simp
  | case3 t u r ih => rw [ih, List.intercalate_cons_cons, List.append_assoc]

theorem splitOn_of_not_mem {c : Char} {t : Text} (h : c ∉ t) : splitOn c t = [t] := by
  rw [splitOn_eq, List.splitOn_eq_singleton h]

theorem splitOn_append_cons (c : Char) (a b : Text) :
    splitOn c (a ++ c :: b) = splitOn c a ++ splitOn c b := by
  simp only [splitOn_eq]
  exact List.splitOnP_append_cons a b (beq_self_eq_true c)

theorem length_splitOn (c : Char) (t : Text) : (splitOn c t).length = t.count c + 1 := by
  induction t with
  | nil => rfl
  | cons d t ih =>
      obtain ⟨l, r, hl⟩ := List.exists_cons_of_ne_nil (splitOn_ne_nil c t)
      rw [hl, List.length_cons] at ih
      rw [splitOn, hl, List.count_cons]
      by_cases hd : d = c
      · simp [hd, ih]
      · simp [hd, ih]

theorem splitOn_join {c : Char} {ls : List Text} (hne : ls ≠ []) (h : ∀ l ∈ ls, c ∉ l) :
    splitOn c (join [c] ls) = ls := by
  rw [splitOn_eq, join_eq, List.splitOn_intercalate c h hne]

theorem not_mem_of_mem_splitOn {c : Char} {t l : Text} (h : l ∈ splitOn c t) : c ∉ l := by
  rw [splitOn_eq] at h
  induction t generalizing l with
  | nil => simp_all
  | cons a t ih =>
      rw [List.splitOn_cons_eq_if_modifyHead] at h
      split at h
      · rcases List.mem_cons.1 h with rfl | h
        · simp
        · exact ih h
      · rename_i ha
        cases hs : List.splitOn c t with
        | nil => exact absurd hs (List.splitOn_ne_nil c t)
        | cons m r =>
            rw [hs, List.modifyHead_cons] at h
            rcases List.mem_cons.1 h with rfl | h
            · have hm := ih (by rw [hs]; exact List.mem_cons_self)
              simp only [List.mem_cons, not_or]
              exact ⟨fun hc => ha (by simp [hc]), hm⟩
            · exact ih (by rw [hs]; exact List.mem_cons_of_mem _ h)

end CodeReference.Text
