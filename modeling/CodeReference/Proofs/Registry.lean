import Mathlib
import CodeReference.Registry

/-!
Where the strategies of a registry come from: a lookup finds one that was registered.
-/
namespace CodeReference.Registry

variable {r : Registry} {s : Strategy} {m : Text × Strategy}

theorem of_mem_set {extension : Text} (h : m ∈ r.set extension s) : m ∈ r ∨ m.2 = s := by
  unfold set at h
  split at h
  · obtain ⟨n, hn, rfl⟩ := List.mem_map.1 h
    split
    · exact .inr rfl
    · exact .inl hn
  · rcases List.mem_append.1 h with h | h
    · exact .inl h
    · rw [List.mem_singleton.1 h]
      exact .inr rfl

theorem of_mem_register (h : m ∈ r.register s) : m ∈ r ∨ m.2 = s := by
  unfold register at h
  generalize s.extensions = extensions at h
  induction extensions using List.reverseRecOn with
  | nil => exact .inl h
  | append_singleton extensions extension ih =>
      rw [List.foldl_append] at h
      rcases of_mem_set h with h | h
      · exact ih h
      · exact .inr h

theorem of_mem_foldl_register {strategies : List Strategy} (h : m ∈ strategies.foldl register r) :
    m ∈ r ∨ m.2 ∈ strategies := by
  induction strategies generalizing r with
  | nil => exact .inl h
  | cons t strategies ih =>
      rcases ih h with h | h
      · rcases of_mem_register h with h | h
        · exact .inl h
        · exact .inr (h ▸ List.mem_cons_self)
      · exact .inr (List.mem_cons_of_mem t h)

theorem exists_mem_of_get? {extension : Text} {settings : Option Settings}
    (h : r.get? extension settings = some s) : ∃ m ∈ r, m.2 = s := by
  unfold get? at h
  dsimp only at h
  split at h
  · rename_i found hlookup
    cases h
    obtain ⟨before, after, heq, -⟩ := List.lookup_eq_some_iff.1 hlookup
    exact ⟨(Text.lowercase extension, s), by rw [heq]; simp, rfl⟩
  · simp only [bind, Option.bind_eq_some_iff, ofLanguage?, Option.map_eq_some_iff] at h
    obtain ⟨_, -, language, -, m, hm, rfl⟩ := h
    exact ⟨m, List.mem_of_find?_eq_some hm, rfl⟩

/-- A lookup among the built-in strategies finds one of the four. -/
theorem of_get?_standard {extension : Text} {settings : Option Settings}
    (h : standard.get? extension settings = some s) :
    s ∈ [Strategy.ofOutline, Strategy.ofTypedTree, Strategy.ofScriptTree, Strategy.ofMarkup] := by
  obtain ⟨m, hm, rfl⟩ := exists_mem_of_get? h
  exact (of_mem_foldl_register hm).resolve_left List.not_mem_nil

end CodeReference.Registry
