import CodeReference.Entry
import CodeReference.Syntax.Declaration

/-!
One walk over a tree, with a stack of sites still to visit, collects the declarations that a
selection meets and the narrowest node that holds its focus. Where nothing is declared, the member
expression around that node gives the label.
-/
namespace CodeReference.Syntax

/-- What is looked for: the path of the document and the selection in bytes. -/
structure Query where
  path : Text
  start : Nat
  stop : Nat
  focus : Nat
deriving Repr, DecidableEq

namespace Query

def ofSpan (path source : Text) (s : Span) : Query :=
  { path := path, start := source.byteOffset s.start.toNat, stop := source.byteOffset s.stop.toNat,
    focus := source.byteOffset s.focus.toNat }

end Query

structure Found where
  entries : List Entry := []
  enclosing? : Option Site := none

variable (source : Text) (q : Query)

/-- The entry of a site that the selection meets and that declares something. -/
def entry? (s : Site) : Option Entry :=
  if s.node.meets q.start q.stop then
    (declarationLabel? source s).map fun label =>
      let row := s.node.row source
      { path := q.path, lines := lineText row row, label := some label }
  else none

/-- The narrower of the sites that hold the focus; the earlier of equally narrow ones. -/
def narrower (best? : Option Site) (s : Site) : Option Site :=
  if s.node.holds q.focus then
    match best? with
    | some best => if s.node.width < best.node.width then some s else best?
    | none => some s
  else best?

def visit (f : Found) (s : Site) : Found :=
  { entries := match entry? source q s with
      | some e => Entry.addUnique f.entries e
      | none => f.entries
    enclosing? := narrower q f.enclosing? s }

/-- Visits the sites on a stack, the top first. The children of a visited site go on the stack in
reverse, so that the first of them is on top. -/
def walkFrom (f : Found) : (stack : List Site) → Found
  | [] => f
  | s :: stack => walkFrom (visit source q f s) (s.children ++ stack)
termination_by stack => sizeOfSites stack
decreasing_by
  have := s.size_children_lt
  rw [sizeOfSites_append, sizeOfSites]
  omega

/-- Walks over a tree. Trees nest deep, so the stack is explicit. -/
def walk (root : Node) : Found := walkFrom source q {} [Site.root root]

/-- The label of the nearest site, from the given one outward, that is a member expression or
declares something. -/
def enclosingLabel? : (outward : List Site) → Option Text
  | [] => none
  | s :: r =>
    if s.kind = "member_expression" then some (s.node.text source)
    else
      match declarationLabel? source s with
      | some label => some label
      | none => enclosingLabel? r

inductive Answer where
  | declarations (entries : List Entry)
  /-- Nothing is declared; the narrowest node at the focus, and the label around it. -/
  | enclosing (site : Site) (label : Option Text)
  | nothing

def answer (root : Node) : Answer :=
  let found := walk source q root
  if found.entries.isEmpty then
    match found.enclosing? with
    | some s => .enclosing s (enclosingLabel? source s.outward)
    | none => .nothing
  else .declarations found.entries

namespace Answer

/-- The entries of an answer; `lines` are those of the selection. -/
def entries (path lines : Text) : Answer → List Entry
  | declarations es => es
  | enclosing _ label => [{ path := path, lines := lines, label := label }]
  | nothing => []

end Answer
end CodeReference.Syntax
