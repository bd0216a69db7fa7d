import Mathlib
import CodeReference.Proofs.Syntax.Walk

/-!
What labels in a tree are made of. A label is put together from the texts of nodes of the tree, with
dots between them, so every character of it is a dot or stands in a node that gives a name.
-/
namespace CodeReference.Syntax

/-! ## Names -/

/-- Whether the text of a site can become part of a label: the site fills the field of a name, it is
a name or a string, it is a member expression, or it is what a computed name computes. -/
def Site.givesName (s : Site) : Bool :=
  s.node.field == some "name" || plainNames.contains s.kind || s.kind == "string" ||
    s.kind == "member_expression" || s.parent?.any fun p => p.kind == "computed_property_name"

/-- Whether every character of a text is a dot or stands in a site of the tree that gives a name. -/
def Spelled (source : Text) (root : Node) (t : Text) : Prop :=
  ∀ c ∈ t, c = '.' ∨ ∃ a ∈ root.preorder, a.givesName = true ∧ c ∈ a.node.text source

variable {source : Text} {root : Node} {s : Site} {t name label : Text}

theorem Spelled.of_subset {u : Text} (h : Spelled source root t) (hu : u ⊆ t) :
    Spelled source root u :=
  fun c hc => h c (hu hc)

theorem spelled_qualified {owner? : Option Text} (howner : ∀ o ∈ owner?, Spelled source root o)
    (hname : Spelled source root name) : Spelled source root (qualified owner? name) := by
  cases owner? with
  | none => exact hname
  | some o =>
      intro c hc
      simp only [qualified, List.append_assoc, List.mem_append, List.mem_singleton] at hc
      rcases hc with hc | rfl | hc
      · exact howner o rfl c hc
      · exact .inl rfl
      · exact hname c hc

theorem spelled_of_givesName (hs : s ∈ root.preorder) (h : s.givesName = true) :
    Spelled source root (s.node.text source) :=
  fun _ hc => .inr ⟨s, hs, h, hc⟩

theorem eq_of_nonEmpty? (h : nonEmpty? t = some name) : name = t := by
  rw [nonEmpty?, Option.ite_none_left_eq_some, Option.some.injEq] at h
  exact h.2.symm

theorem of_child? {n c : Node} {field : String} (h : n.child? field = some c) :
    c ∈ n.children ∧ c.field = some field :=
  ⟨List.mem_of_find?_eq_some h, by simpa using List.find?_some h⟩

/-- The text of a child that gives a name by what it is. -/
theorem spelled_child {n : Node} (hs : s ∈ root.preorder) (hn : n ∈ s.node.children)
    (h : n.field = some "name" ∨ plainNames.contains n.kind = true ∨ n.kind = "string" ∨
      n.kind = "member_expression" ∨ s.kind = "computed_property_name") :
    Spelled source root (n.text source) := by
  obtain ⟨c, hc, rfl, hparent⟩ := exists_site_of_mem_children hs hn
  refine spelled_of_givesName hc ?_
  simpa [Site.givesName, Site.kind, hparent, or_assoc] using h

theorem spelled_nameText? (hs : s ∈ root.preorder) (h : nameText? source s.node = some name) :
    Spelled source root name := by
  obtain ⟨child, hchild, hname⟩ := Option.bind_eq_some_iff.1 h
  obtain ⟨hmem, hfield⟩ := of_child? hchild
  exact eq_of_nonEmpty? hname ▸ spelled_child hs hmem (.inl hfield)

theorem spelled_propertyName? {n : Node} (hs : s ∈ root.preorder) (hn : n ∈ s.node.children)
    (h : propertyName? source n = some name) : Spelled source root name := by
  simp only [propertyName?] at h
  split at h
  · rename_i hplain
    exact eq_of_nonEmpty? h ▸ spelled_child hs hn (.inr (.inl hplain))
  · split at h
    · rename_i hstring
      split at h
      · -- The quotes are cut off.
        have hinner : ((n.text source).drop 1).dropLast ⊆ n.text source :=
          List.Subset.trans (List.dropLast_subset _) (List.drop_subset 1 _)
        exact eq_of_nonEmpty? h ▸
          (spelled_child hs hn (.inr (.inr (.inl hstring)))).of_subset hinner
      · cases h
    · split at h
      · rename_i hcomputed
        obtain ⟨inner, hinner, hname⟩ := Option.bind_eq_some_iff.1 h
        obtain ⟨c, hc, rfl, -⟩ := exists_site_of_mem_children hs hn
        exact eq_of_nonEmpty? hname ▸ spelled_child hc (List.mem_of_head? hinner)
          (.inr (.inr (.inr (.inr hcomputed))))
      · cases h

/-! ## Labels -/

theorem spelled_ownerOfObject? (hs : s ∈ root.preorder) (h : ownerOfObject? source s = some name) :
    Spelled source root name := by
  simp only [ownerOfObject?, bind, Option.bind_eq_some_iff] at h
  obtain ⟨parent, hparent, h⟩ := h
  have hmem := mem_preorder_of_parent? hs hparent
  split at h
  · simp only [Option.bind_eq_some_iff] at h
    obtain ⟨bound, hbound, h⟩ := h
    obtain ⟨hchild, hfield⟩ := of_child? hbound
    rw [Option.ite_none_right_eq_some] at h
    exact eq_of_nonEmpty? h.2 ▸ spelled_child hmem hchild (.inl hfield)
  · split at h
    · simp only [Option.bind_eq_some_iff] at h
      obtain ⟨left, hleft, h⟩ := h
      rw [Option.ite_none_right_eq_some] at h
      obtain ⟨⟨-, hkind⟩, h⟩ := h
      refine eq_of_nonEmpty? h ▸ spelled_child hmem (of_child? hleft).1 (.inr ?_)
      rcases hkind with hkind | hkind
      · exact .inl (by rw [hkind]; rfl)
      · exact .inr (.inr (.inl hkind))
    · cases h

theorem spelled_ownerOfBody? (hs : s ∈ root.preorder) (h : ownerOfBody? source s = some name) :
    Spelled source root name := by
  simp only [ownerOfBody?, bind, Option.bind_eq_some_iff] at h
  obtain ⟨cls, hcls, h⟩ := h
  rw [Option.ite_none_right_eq_some] at h
  exact spelled_nameText? (mem_preorder_of_parent? hs hcls) h.2

theorem spelled_variableLabel? (hs : s ∈ root.preorder)
    (h : variableLabel? source s = some label) : Spelled source root label := by
  simp only [variableLabel?, bind, Option.bind_eq_some_iff] at h
  obtain ⟨name, hname, value, -, h⟩ := h
  obtain ⟨hchild, hfield⟩ := of_child? hname
  rw [Option.ite_none_right_eq_some] at h
  exact eq_of_nonEmpty? h.2 ▸ spelled_child hs hchild (.inl hfield)

theorem spelled_memberLabel? (hs : s ∈ root.preorder) (h : memberLabel? source s = some label) :
    Spelled source root label := by
  simp only [memberLabel?, bind, Option.bind_eq_some_iff] at h
  obtain ⟨name, hname, member, hmember, h⟩ := h
  have hchild : name ∈ s.node.children :=
    (Option.or_eq_some_iff.1 hname).elim (fun h => (of_child? h).1) fun h => (of_child? h.2).1
  have hmember := spelled_propertyName? hs hchild hmember
  split at h
  · rename_i parent hparent
    have hmem := mem_preorder_of_parent? hs hparent
    split at h
    · cases h
      exact spelled_qualified (fun o ho => spelled_ownerOfBody? hmem ho) hmember
    · split at h
      · cases h
      · split at h
        · cases h
          exact spelled_qualified (fun o ho => spelled_ownerOfObject? hmem ho) hmember
        · cases h
          exact hmember
  · split at h
    · cases h
    · cases h
      exact hmember

theorem spelled_pairLabel? (hs : s ∈ root.preorder) (h : pairLabel? source s = some label) :
    Spelled source root label := by
  simp only [pairLabel?, bind, Option.bind_eq_some_iff] at h
  obtain ⟨key, hkey, property, hproperty, h⟩ := h
  have hproperty := spelled_propertyName? hs (of_child? hkey).1 hproperty
  split at h
  · rename_i parent hparent
    split at h
    · cases h
      have hmem := mem_preorder_of_parent? hs hparent
      exact spelled_qualified (fun o ho => spelled_ownerOfObject? hmem ho) hproperty
    · cases h
      exact hproperty
  · cases h
    exact hproperty

theorem spelled_declarationLabel? (hs : s ∈ root.preorder)
    (h : declarationLabel? source s = some label) : Spelled source root label := by
  simp only [declarationLabel?] at h
  split at h
  · exact spelled_nameText? hs h
  · split at h
    · exact spelled_variableLabel? hs h
    · split at h
      · exact spelled_memberLabel? hs h
      · split at h
        · exact spelled_pairLabel? hs h
        · cases h

theorem spelled_enclosingLabel? {outward : List Site} (hs : ∀ s ∈ outward, s ∈ root.preorder)
    (h : enclosingLabel? source outward = some label) : Spelled source root label := by
  induction outward with
  | nil => cases h
  | cons s outward ih =>
      obtain ⟨hs, houtward⟩ := List.forall_mem_cons.1 hs
      rw [enclosingLabel?] at h
      split at h
      · rename_i hkind
        cases h
        exact spelled_of_givesName hs (by simp [Site.givesName, hkind])
      · split at h
        · rename_i hlabel
          cases h
          exact spelled_declarationLabel? hs hlabel
        · exact ih houtward h

/-! ## Answers -/

variable {q : Query}

theorem spelled_of_mem_walk {e : Entry} (h : e ∈ (walk source q root).entries) :
    Spelled source root e.labelText := by
  obtain ⟨a, ha, place, hreported, rfl⟩ := (mem_entries_walk_iff source q).1 h
  exact spelled_declarationLabel? ha (reported?_eq_some_iff.1 hreported).2.1

theorem spelled_of_mem_answer {path lines : Text} {e : Entry}
    (h : e ∈ (answer source q root).entries path lines) : Spelled source root e.labelText := by
  simp only [answer] at h
  split at h
  · split at h
    · rename_i c hc
      obtain ⟨before, after, heq, -⟩ := (enclosing?_walk_eq_some_iff source q root c).1 hc
      have hmem : c ∈ root.preorder := by simp [heq]
      rw [List.mem_singleton.1 h]
      cases hlabel : enclosingLabel? source c.outward with
      | none => exact List.forall_mem_nil _
      | some label =>
          exact spelled_enclosingLabel? (fun a ha => mem_preorder_of_mem_outward hmem ha) hlabel
    · cases h
  · exact spelled_of_mem_walk h

end CodeReference.Syntax
