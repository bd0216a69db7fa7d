import Mathlib
import CodeReference.Entry
import CodeReference.Proofs.Lists

/-!
Adding entries one after the other, each at most once, keeps the first occurrence of each.
-/
namespace CodeReference

theorem Text.ofInt_inj {a b : Int} : Text.ofInt a = Text.ofInt b ↔ a = b := by
  rw [Text.ofInt, Text.ofInt, String.toList_inj]
  exact Int.repr_inj

namespace Entry

variable {e f : Entry}

theorem same_iff :
    e.same f = true ↔ e.path = f.path ∧ e.lines = f.lines ∧ e.labelText = f.labelText := by
  simp only [same, Bool.and_eq_true, beq_iff_eq, and_assoc]

theorem same_trans {g : Entry} (h : e.same f = true) (h' : f.same g = true) : e.same g = true := by
  obtain ⟨hpath, hlines, hlabel⟩ := same_iff.1 h
  obtain ⟨hpath', hlines', hlabel'⟩ := same_iff.1 h'
  exact same_iff.2 ⟨hpath.trans hpath', hlines.trans hlines', hlabel.trans hlabel'⟩

/-- Among the entries that are kept is one that is the same as a given one, if there was one at
all. -/
theorem any_same_foldl_addUnique (es : List Entry) (e : Entry) :
    (es.foldl addUnique []).any (same · e) = es.any (same · e) := by
  induction es using List.reverseRecOn with
  | nil => rfl
  | append_singleton es f ih =>
      rw [List.foldl_append, List.foldl_cons, List.foldl_nil, List.any_append, addUnique]
      split
      · rename_i hkept
        rw [ih]
        cases hfe : f.same e with
        | false => simp [hfe]
        | true =>
            -- The entry kept in place of `f` is the same as `f`, and so the same as `e`.
            obtain ⟨k, hk, hkf⟩ := List.any_eq_true.1 hkept
            have hany : es.any (same · e) = true := by
              rw [← ih]
              exact List.any_eq_true.2 ⟨k, hk, same_trans hkf hfe⟩
            rw [hany, Bool.true_or]
      · rw [List.any_append, ih]

/-- An entry is kept, behind those kept before, unless the same one came before it. -/
theorem foldl_addUnique_concat (es : List Entry) (e : Entry) :
    (es ++ [e]).foldl addUnique [] =
      if es.any (same · e) then es.foldl addUnique [] else es.foldl addUnique [] ++ [e] := by
  rw [List.foldl_append, List.foldl_cons, List.foldl_nil, addUnique, any_same_foldl_addUnique]

/-- If entries are the same only when they come from the same value, then what is kept comes from
the first occurrences of the values. -/
theorem foldl_addUnique_map {α : Type} [BEq α] [LawfulBEq α] {entry : α → Entry}
    (h : ∀ a b, (entry a).same (entry b) = true ↔ a = b) (as : List α) :
    (as.map entry).foldl addUnique [] = as.eraseDups.map entry := by
  induction as using List.reverseRecOn with
  | nil => rfl
  | append_singleton as a ih =>
      have hany : (as.map entry).any (same · (entry a)) = true ↔ a ∈ as := by
        simp only [List.any_map, List.any_eq_true, Function.comp_apply, h, exists_eq_right]
      rw [List.map_append, List.map_singleton, foldl_addUnique_concat, ih, eraseDups_concat]
      by_cases ha : a ∈ as
      · rw [if_pos ha, if_pos (hany.2 ha)]
      · rw [if_neg ha, if_neg (mt hany.1 ha), List.map_append, List.map_singleton]

end Entry
end CodeReference
