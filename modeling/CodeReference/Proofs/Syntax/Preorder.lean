import Mathlib
import CodeReference.Syntax.Walk

/-!
The walk visits the sites of a tree in preorder, each once. The stack holds the roots of the
subtrees still to visit, so what is left to visit is the preorder of those subtrees, one after the
other. With a site the tree has all sites around it and all its children.
-/
namespace CodeReference.Syntax

/-! ## Trees under sites -/

/-- The sites of the tree under a site, in preorder. -/
def Site.subtree (s : Site) : List Site := s.node.sites s.leads s.above

theorem sitesOfChildren_eq (above : List (Node × Bool)) (fields : List String) (cs : List Node) :
    sitesOfChildren above fields cs = (childSites above fields cs).flatMap Site.subtree := by
  induction cs generalizing fields with
  | nil => simp [sitesOfChildren, childSites]
  | cons c cs ih => simp [sitesOfChildren, childSites, Site.subtree, ih]

/-- A site comes before the trees under its children, and these come in source order. -/
theorem Site.subtree_eq (s : Site) : s.subtree = s :: s.children.flatMap Site.subtree := by
  obtain ⟨⟨kind, first, last, field, children⟩, leads, above⟩ := s
  rw [Site.children, ← sitesOfChildren_eq]
  simp only [Site.subtree, Site.path, Node.sites]

theorem subtree_root (root : Node) : (Site.root root).subtree = root.preorder := rfl

theorem Site.size_lt_of_mem_children {s c : Site} (h : c ∈ s.children) :
    c.node.size < s.node.size := by
  refine lt_of_le_of_lt ?_ s.size_children_lt
  obtain ⟨before, after, heq⟩ := List.append_of_mem h
  rw [heq, sizeOfSites_append, sizeOfSites]
  omega

theorem Site.mem_subtree_self (s : Site) : s ∈ s.subtree := by
  rw [s.subtree_eq]
  exact List.mem_cons_self

theorem Site.subtree_subset_of_mem_children {s c : Site} (h : c ∈ s.children) :
    c.subtree ⊆ s.subtree := by
  intro x hx
  rw [s.subtree_eq]
  exact List.mem_cons_of_mem _ (List.mem_flatMap.2 ⟨c, h, hx⟩)

/-- What holds of the site at the top of a tree, and of the children of a site of the tree if it
holds of the site, holds of all sites of the tree. -/
theorem subtree_induction (top : Site) {P : Site → Prop} (htop : P top)
    (step : ∀ s ∈ top.subtree, P s → ∀ c ∈ s.children, c ∈ top.subtree → P c) :
    ∀ s ∈ top.subtree, P s := by
  induction hn : top.node.size using Nat.strong_induction_on generalizing top with
  | h n ih =>
      subst hn
      intro s hs
      rw [top.subtree_eq, List.mem_cons] at hs
      rcases hs with rfl | hs
      · exact htop
      · obtain ⟨c, hc, hs⟩ := List.mem_flatMap.1 hs
        have hsub : c.subtree ⊆ top.subtree := Site.subtree_subset_of_mem_children hc
        have hPc : P c := step top top.mem_subtree_self htop c hc (hsub c.mem_subtree_self)
        exact ih _ (Site.size_lt_of_mem_children hc) c hPc
          (fun t ht hPt d hd hdc => step t (hsub ht) hPt d hd (hsub hdc)) rfl s hs

theorem Site.subtree_subset (top : Site) {s : Site} (h : s ∈ top.subtree) :
    s.subtree ⊆ top.subtree := by
  refine subtree_induction top (P := fun s => s.subtree ⊆ top.subtree) (List.Subset.refl _) ?_ s h
  intro s _ ih c hc _
  exact List.Subset.trans (Site.subtree_subset_of_mem_children hc) ih

/-! ## Sites around a site -/

section
variable {root n : Node} {s c p a : Site} {above : List (Node × Bool)} {fields : List String}
  {cs : List Node}

theorem of_mem_childSites (h : c ∈ childSites above fields cs) : c.above = above ∧ c.node ∈ cs := by
  induction cs generalizing fields with
  | nil => simp [childSites] at h
  | cons n cs ih =>
      rw [childSites, List.mem_cons] at h
      rcases h with rfl | h
      · exact ⟨rfl, List.mem_cons_self⟩
      · obtain ⟨habove, hmem⟩ := ih h
        exact ⟨habove, List.mem_cons_of_mem _ hmem⟩

theorem exists_mem_childSites (above : List (Node × Bool)) (fields : List String) (h : n ∈ cs) :
    ∃ c ∈ childSites above fields cs, c.node = n := by
  induction cs generalizing fields with
  | nil => cases h
  | cons m cs ih =>
      rcases List.mem_cons.1 h with rfl | h
      · exact ⟨_, List.mem_cons_self, rfl⟩
      · obtain ⟨c, hc, heq⟩ := ih (fields ++ m.field.toList) h
        exact ⟨c, List.mem_cons_of_mem _ hc, heq⟩

theorem outward_root (root : Node) : (Site.root root).outward = [Site.root root] := rfl

theorem Site.outward_of_mem_children (h : c ∈ s.children) : c.outward = c :: s.outward := by
  obtain ⟨node, leads, above⟩ := c
  obtain ⟨rfl, -⟩ : above = s.path ∧ node ∈ s.node.children := of_mem_childSites h
  rfl

theorem Site.parent?_of_mem_children (h : c ∈ s.children) : c.parent? = some s := by
  obtain ⟨node, leads, above⟩ := c
  obtain ⟨rfl, -⟩ : above = s.path ∧ node ∈ s.node.children := of_mem_childSites h
  rfl

theorem Site.mem_outward_of_parent? (h : s.parent? = some p) : p ∈ s.outward := by
  obtain ⟨node, leads, above⟩ := s
  cases above with
  | nil => cases h
  | cons m above =>
      cases h
      cases above <;> simp [outward, outward.go]

/-- The children of a node of a tree are at sites of the tree. -/
theorem exists_site_of_mem_children (hs : s ∈ root.preorder) (hn : n ∈ s.node.children) :
    ∃ c ∈ root.preorder, c.node = n ∧ c.parent? = some s := by
  obtain ⟨c, hc, heq⟩ := exists_mem_childSites s.path [] hn
  have hmem : c ∈ s.subtree := Site.subtree_subset_of_mem_children hc c.mem_subtree_self
  exact ⟨c, Site.subtree_subset (Site.root root) hs hmem, heq, Site.parent?_of_mem_children hc⟩

theorem mem_preorder_of_mem_outward (hs : s ∈ root.preorder) (ha : a ∈ s.outward) :
    a ∈ root.preorder := by
  refine subtree_induction (Site.root root) (P := fun s => ∀ a ∈ s.outward, a ∈ root.preorder)
    ?_ ?_ s hs a ha
  · intro a ha
    rw [outward_root, List.mem_singleton] at ha
    exact ha ▸ Site.mem_subtree_self _
  · intro s _ ih c hc hcs a ha
    rw [Site.outward_of_mem_children hc, List.mem_cons] at ha
    rcases ha with rfl | ha
    · exact hcs
    · exact ih a ha

theorem mem_preorder_of_parent? (hs : s ∈ root.preorder) (hp : s.parent? = some p) :
    p ∈ root.preorder :=
  mem_preorder_of_mem_outward hs (Site.mem_outward_of_parent? hp)

end

/-! ## The walk -/

variable (source : Text) (q : Query)

theorem walkFrom_eq (f : Found) (stack : List Site) :
    walkFrom source q f stack = (stack.flatMap Site.subtree).foldl (visit source q) f := by
  fun_induction walkFrom source q f stack with
  | case1 f => rfl
  | case2 f s stack ih =>
      rw [ih, List.flatMap_append, List.flatMap_cons, Site.subtree_eq]
      rfl

theorem walk_eq (root : Node) :
    walk source q root = root.preorder.foldl (visit source q) {} := by
  rw [walk, walkFrom_eq, List.flatMap_singleton, subtree_root]

end CodeReference.Syntax
