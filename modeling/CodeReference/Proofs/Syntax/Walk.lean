import Mathlib
import CodeReference.Proofs.Entry.Unique
import CodeReference.Proofs.Syntax.Label
import CodeReference.Proofs.Syntax.Preorder

/-!
What a walk finds, said without the walk: the declarations that the selection meets, in preorder and
each once, and the first of the narrowest sites that hold the focus.
-/
namespace CodeReference.Syntax

/-! ## Declarations -/

/-- The line and the label that a site is reported with, if the closed span of its node meets the
closed selection and the node has a label that is not empty. -/
def reported? (source : Text) (q : Query) (s : Site) : Option (Nat × Text) :=
  if s.node.first ≤ q.stop ∧ q.start ≤ s.node.last then
    match declarationLabel? source s with
    | some label => if label = [] then none else some (s.node.row source + 1, label)
    | none => none
  else none

theorem reported?_eq_some_iff {source : Text} {q : Query} {s : Site} {place : Nat × Text} :
    reported? source q s = some place ↔
      (s.node.first ≤ q.stop ∧ q.start ≤ s.node.last) ∧
        declarationLabel? source s = some place.2 ∧ place.2 ≠ [] ∧
          place.1 = s.node.row source + 1 := by
  rw [reported?, Option.ite_none_right_eq_some]
  refine and_congr_right fun _ => ?_
  cases declarationLabel? source s with
  | none => simp
  | some label =>
      simp only [Option.ite_none_left_eq_some, Option.some.injEq, Prod.ext_iff]
      constructor
      · rintro ⟨hlabel, hrow, rfl⟩
        exact ⟨rfl, hlabel, hrow.symm⟩
      · rintro ⟨rfl, hlabel, hrow⟩
        exact ⟨hlabel, hrow.symm, rfl⟩

def entryAt (path : Text) (place : Nat × Text) : Entry :=
  { path := path, lines := Text.ofInt place.1, label := some place.2 }

variable (source : Text) (q : Query)

theorem entry?_eq (s : Site) : entry? source q s = (reported? source q s).map (entryAt q.path) := by
  simp only [reported?, entry?, Node.meets, Bool.and_eq_true, decide_eq_true_eq]
  split
  · cases hl : declarationLabel? source s with
    | none => rfl
    | some label =>
        simp [declarationLabel?_ne_nil hl, entryAt, lineText]
  · rfl

theorem entryAt_inj {path : Text} {a b : Nat × Text} : entryAt path a = entryAt path b ↔ a = b := by
  simp [entryAt, Text.ofInt_inj, Prod.ext_iff]

theorem same_entryAt {path : Text} {a b : Nat × Text} :
    (entryAt path a).same (entryAt path b) = true ↔ a = b := by
  simp [Entry.same, entryAt, Entry.labelText, Text.ofInt_inj, Prod.ext_iff]

theorem foldl_visit_entries (f : Found) (ss : List Site) :
    (ss.foldl (visit source q) f).entries =
      ((ss.filterMap (reported? source q)).map (entryAt q.path)).foldl Entry.addUnique f.entries := by
  induction ss generalizing f with
  | nil => rfl
  | cons s ss ih =>
      rw [List.foldl_cons, ih, visit, entry?_eq, List.filterMap_cons]
      cases reported? source q s <;> rfl

/-! ## The site at the focus -/

/-- A site is the first of the narrowest ones among `ss` that hold an offset: the ones before it are
wider, and the ones after it are not narrower. -/
def IsNarrowest (offset : Nat) (ss : List Site) (s : Site) : Prop :=
  ∃ before after, ss = before ++ s :: after ∧ s.node.holds offset = true ∧
    (∀ t ∈ before, t.node.holds offset = true → s.node.width < t.node.width) ∧
    ∀ t ∈ after, t.node.holds offset = true → s.node.width ≤ t.node.width

variable {offset : Nat}

theorem IsNarrowest.unique {ss : List Site} {s t : Site} (hs : IsNarrowest offset ss s)
    (ht : IsNarrowest offset ss t) : s = t := by
  obtain ⟨before, after, rfl, hsHolds, hsBefore, hsAfter⟩ := hs
  obtain ⟨before', after', heq, htHolds, htBefore, htAfter⟩ := ht
  -- If one of the two stood before the other, it would be both strictly wider and not wider.
  rcases List.append_eq_append_iff.1 heq with ⟨mid, hb, hm⟩ | ⟨mid, hb, hm⟩ <;> cases mid with
  | nil => simp_all
  | cons u mid => ?_
  · rw [List.cons_append, List.cons.injEq] at hm
    obtain ⟨rfl, rfl⟩ := hm
    have h₁ := htBefore s (by simp [hb]) hsHolds
    have h₂ := hsAfter t (by simp) htHolds
    omega
  · rw [List.cons_append, List.cons.injEq] at hm
    obtain ⟨rfl, rfl⟩ := hm
    have h₁ := hsBefore t (by simp [hb]) htHolds
    have h₂ := htAfter s (by simp) hsHolds
    omega

/-- What the walk knows of the site at the focus after the sites `ss`. -/
def Tracks (offset : Nat) (ss : List Site) : Option Site → Prop
  | none => ∀ t ∈ ss, t.node.holds offset = false
  | some s => IsNarrowest offset ss s

theorem Tracks.narrower {ss : List Site} {best? : Option Site} (h : Tracks q.focus ss best?)
    (s : Site) : Tracks q.focus (ss ++ [s]) (narrower q best? s) := by
  unfold Syntax.narrower
  by_cases hs : s.node.holds q.focus = true
  · rw [if_pos hs]
    cases best? with
    | none =>
        refine ⟨ss, [], rfl, hs, fun t ht hHolds => ?_, by simp⟩
        rw [h t ht] at hHolds
        cases hHolds
    | some best =>
        obtain ⟨before, after, rfl, hHolds, hBefore, hAfter⟩ := h
        dsimp only
        split
        · rename_i hlt
          refine ⟨before ++ best :: after, [], rfl, hs, fun t ht htHolds => ?_, by simp⟩
          rcases List.mem_append.1 ht with ht | ht
          · have := hBefore t ht htHolds
            omega
          · rcases List.mem_cons.1 ht with rfl | ht
            · exact hlt
            · have := hAfter t ht htHolds
              omega
        · rename_i hge
          refine ⟨before, after ++ [s], by simp, hHolds, hBefore, fun t ht htHolds => ?_⟩
          rcases List.mem_append.1 ht with ht | ht
          · exact hAfter t ht htHolds
          · rw [List.mem_singleton.1 ht]
            omega
  · rw [if_neg hs]
    cases best? with
    | none =>
        intro t ht
        rcases List.mem_append.1 ht with ht | ht
        · exact h t ht
        · rw [List.mem_singleton.1 ht]
          simpa using hs
    | some best =>
        obtain ⟨before, after, rfl, hHolds, hBefore, hAfter⟩ := h
        refine ⟨before, after ++ [s], by simp, hHolds, hBefore, fun t ht htHolds => ?_⟩
        rcases List.mem_append.1 ht with ht | ht
        · exact hAfter t ht htHolds
        · rw [List.mem_singleton.1 ht] at htHolds
          exact absurd htHolds hs

theorem tracks_foldl_visit (ss : List Site) :
    Tracks q.focus ss (ss.foldl (visit source q) {}).enclosing? := by
  induction ss using List.reverseRecOn with
  | nil => simp [Tracks]
  | append_singleton ss s ih =>
      rw [List.foldl_append, List.foldl_cons, List.foldl_nil]
      exact ih.narrower q s

theorem enclosing?_walk_eq_some_iff (root : Node) (s : Site) :
    (walk source q root).enclosing? = some s ↔ IsNarrowest q.focus root.preorder s := by
  have h := tracks_foldl_visit source q root.preorder
  rw [walk_eq]
  cases hf : (root.preorder.foldl (visit source q) {}).enclosing? with
  | none =>
      rw [hf] at h
      refine ⟨by simp, fun ⟨before, after, heq, hHolds, _, _⟩ => ?_⟩
      rw [h s (by simp [heq])] at hHolds
      cases hHolds
  | some best =>
      rw [hf] at h
      refine ⟨fun he => Option.some.inj he ▸ h, fun hs => congrArg some (h.unique hs)⟩

theorem entries_walk (root : Node) :
    (walk source q root).entries =
      ((root.preorder.filterMap (reported? source q)).eraseDups).map (entryAt q.path) := by
  rw [walk_eq, foldl_visit_entries]
  exact Entry.foldl_addUnique_map (fun a b => same_entryAt) _

theorem mem_entries_walk_iff {root : Node} {e : Entry} : e ∈ (walk source q root).entries ↔
    ∃ s ∈ root.preorder, ∃ place, reported? source q s = some place ∧ e = entryAt q.path place := by
  rw [entries_walk, List.mem_map]
  simp only [List.mem_eraseDups, List.mem_filterMap]
  constructor
  · rintro ⟨place, ⟨s, hs, hplace⟩, rfl⟩
    exact ⟨s, hs, place, hplace, rfl⟩
  · rintro ⟨s, hs, place, hplace, rfl⟩
    exact ⟨place, ⟨s, hs, hplace⟩, rfl⟩

end CodeReference.Syntax
