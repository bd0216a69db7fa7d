import CodeReference.Text.Utf8

/-!
Syntax trees: named nodes with byte spans. A node knows the field it fills in its parent, and its
named children in source order; spans are taken as given.
-/
namespace CodeReference.Syntax

structure Node where
  kind : String
  first : Nat
  last : Nat
  field : Option String
  children : List Node
deriving Repr, Inhabited

namespace Node

def width (n : Node) : Int := n.last - n.first

/-- Whether the closed span holds a byte offset. -/
def holds (n : Node) (offset : Nat) : Bool := n.first ≤ offset && offset ≤ n.last

/-- Whether the closed span meets the closed interval from `a` to `b`. -/
def meets (n : Node) (a b : Nat) : Bool := n.first ≤ b && a ≤ n.last

/-- The first child that fills a field. -/
def child? (n : Node) (field : String) : Option Node :=
  n.children.find? fun c => c.field == some field

def text (source : Text) (n : Node) : Text := source.byteSlice n.first n.last

def row (source : Text) (n : Node) : Nat := source.rowAtByte n.first

end Node

mutual

def Node.size : Node → Nat
  | ⟨_, _, _, _, children⟩ => 1 + sizeOfTrees children

def sizeOfTrees : List Node → Nat
  | [] => 0
  | c :: cs => c.size + sizeOfTrees cs

end
end CodeReference.Syntax
