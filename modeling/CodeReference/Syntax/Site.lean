import CodeReference.Syntax.Node

/-!
Sites: nodes together with the nodes around them. A tree lists its sites in preorder, every node
before its children and the children in source order.
-/
namespace CodeReference.Syntax

/-- A node in its tree. It leads if no child of its parent before it fills the same field; `above`
holds the nodes around it, the nearest first, and whether they lead. -/
structure Site where
  node : Node
  leads : Bool
  above : List (Node × Bool)

namespace Site

def kind (s : Site) : String := s.node.kind

def root (n : Node) : Site := ⟨n, false, []⟩

def parent? (s : Site) : Option Site :=
  match s.above with
  | [] => none
  | (n, leads) :: above => some ⟨n, leads, above⟩

def path (s : Site) : List (Node × Bool) := (s.node, s.leads) :: s.above

/-- Whether the site is the child that its parent has in a field. -/
def isChildIn (s : Site) (field : String) : Bool := s.leads && s.node.field == some field

end Site

/-- Whether a child leads, by the fields that the children before it fill. -/
def leadsAfter (fields : List String) (n : Node) : Bool :=
  match n.field with
  | some f => !fields.contains f
  | none => false

/-- The sites of children, after children that fill the given fields. -/
def childSites (above : List (Node × Bool)) (fields : List String) : List Node → List Site
  | [] => []
  | c :: cs => ⟨c, leadsAfter fields c, above⟩ :: childSites above (fields ++ c.field.toList) cs

def Site.children (s : Site) : List Site := childSites s.path [] s.node.children

def sizeOfSites : List Site → Nat
  | [] => 0
  | s :: ss => s.node.size + sizeOfSites ss

theorem sizeOfSites_append (ss ts : List Site) :
    sizeOfSites (ss ++ ts) = sizeOfSites ss + sizeOfSites ts := by
  induction ss with
  | nil => rw [List.nil_append, sizeOfSites, Nat.zero_add]
  | cons s ss ih => rw [List.cons_append, sizeOfSites, sizeOfSites, ih, Nat.add_assoc]

theorem sizeOfSites_childSites (above : List (Node × Bool)) (fields : List String)
    (cs : List Node) : sizeOfSites (childSites above fields cs) = sizeOfTrees cs := by
  induction cs generalizing fields with
  | nil => rfl
  | cons c cs ih => rw [childSites, sizeOfSites, sizeOfTrees, ih]

theorem Site.size_children_lt (s : Site) : sizeOfSites s.children < s.node.size := by
  obtain ⟨⟨kind, first, last, field, children⟩, leads, above⟩ := s
  rw [Site.children, sizeOfSites_childSites]
  show sizeOfTrees children < 1 + sizeOfTrees children
  omega

mutual

def Node.sites (leads : Bool) (above : List (Node × Bool)) : Node → List Site
  | ⟨kind, first, last, field, children⟩ =>
    let n : Node := ⟨kind, first, last, field, children⟩
    ⟨n, leads, above⟩ :: sitesOfChildren ((n, leads) :: above) [] children

/-- The sites of the trees under children, after children that fill the given fields. -/
def sitesOfChildren (above : List (Node × Bool)) (fields : List String) :
    List Node → List Site
  | [] => []
  | c :: cs =>
    c.sites (leadsAfter fields c) above ++ sitesOfChildren above (fields ++ c.field.toList) cs

end

def Node.preorder (n : Node) : List Site := n.sites false []

/-- A site and the sites around it, the nearest first. -/
def Site.outward (s : Site) : List Site :=
  go s.node s.leads s.above
where
  go (n : Node) (leads : Bool) : List (Node × Bool) → List Site
    | [] => [⟨n, leads, []⟩]
    | (m, l) :: above => ⟨n, leads, (m, l) :: above⟩ :: go m l above

end CodeReference.Syntax
