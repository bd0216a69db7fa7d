import Mathlib
import CodeReference.Proofs.Reference
import CodeReference.Proofs.Syntax.Enclosing
import CodeReference.Proofs.Text.Encoding

/-!
The order of what is reported for a script. In a tree whose spans are nested and follow each other,
the preorder goes forward in the source, so declarations are reported line by line.
-/
namespace CodeReference.Syntax

/-! ## Trees in source order -/

/-- Spans as a source has them: each goes forward, those of children lie within that of their
parent, and no child begins before the one in front of it ends. -/
structure Node.Ordered (root : Node) : Prop where
  forward : ∀ s ∈ root.preorder, s.node.first ≤ s.node.last
  nested : root.Nested
  siblings : ∀ s ∈ root.preorder, s.node.children.Pairwise fun c d => c.last ≤ d.first

instance (root : Node) : Decidable root.Ordered :=
  decidable_of_iff
    ((∀ s ∈ root.preorder, s.node.first ≤ s.node.last) ∧ root.Nested ∧
      ∀ s ∈ root.preorder, s.node.children.Pairwise fun c d => c.last ≤ d.first)
    ⟨fun ⟨forward, nested, siblings⟩ => ⟨forward, nested, siblings⟩,
      fun h => ⟨h.forward, h.nested, h.siblings⟩⟩

variable {root : Node} {s x : Site}

theorem map_node_childSites (above : List (Node × Bool)) (fields : List String) (cs : List Node) :
    (childSites above fields cs).map Site.node = cs := by
  induction cs generalizing fields with
  | nil => rfl
  | cons c cs ih => rw [childSites, List.map_cons, ih]

/-- The spans in the tree under a site lie within that of the site. -/
theorem Node.Nested.of_mem_subtree (h : root.Nested) (hs : s ∈ root.preorder) (hx : x ∈ s.subtree) :
    s.node.first ≤ x.node.first ∧ x.node.last ≤ s.node.last := by
  refine subtree_induction s (P := fun x => s.node.first ≤ x.node.first ∧
    x.node.last ≤ s.node.last) ⟨le_rfl, le_rfl⟩ ?_ x hx
  intro x hx ih c hc _
  have hxRoot : x ∈ root.preorder := Site.subtree_subset (Site.root root) hs hx
  obtain ⟨hfirst, hlast⟩ := h x hxRoot c.node (of_mem_childSites hc).2
  exact ⟨ih.1.trans hfirst, hlast.trans ih.2⟩

theorem Node.Ordered.pairwise_children (h : root.Ordered) (hs : s ∈ root.preorder) :
    s.children.Pairwise fun c d => c.node.last ≤ d.node.first := by
  have hnodes := h.siblings s hs
  rw [← map_node_childSites s.path [] s.node.children, List.pairwise_map] at hnodes
  exact hnodes

/-- The sites of a tree, in preorder, begin one after the other. -/
theorem Node.Ordered.pairwise_subtree (h : root.Ordered) (hs : s ∈ root.preorder) :
    s.subtree.Pairwise fun x y => x.node.first ≤ y.node.first := by
  induction hn : s.node.size using Nat.strong_induction_on generalizing s with
  | h n ih =>
      subst hn
      have hchild : ∀ c ∈ s.children, c ∈ root.preorder := fun c hc =>
        Site.subtree_subset (Site.root root) hs
          (Site.subtree_subset_of_mem_children hc c.mem_subtree_self)
      rw [s.subtree_eq, List.pairwise_cons, List.pairwise_flatMap]
      refine ⟨?_, ?_, ?_⟩
      · intro x hx
        have hx : x ∈ s.subtree := by
          rw [s.subtree_eq]
          exact List.mem_cons_of_mem s hx
        exact (h.nested.of_mem_subtree hs hx).1
      · intro c hc
        exact ih _ (Site.size_lt_of_mem_children hc) (hchild c hc) rfl
      · refine (h.pairwise_children hs).imp_of_mem ?_
        intro c d hc hd hcd x hx y hy
        have hxRoot : x ∈ root.preorder := Site.subtree_subset (Site.root root) (hchild c hc) hx
        -- What is under `c` ends with `c`, and what is under `d` begins with `d`.
        calc x.node.first ≤ x.node.last := h.forward x hxRoot
          _ ≤ c.node.last := (h.nested.of_mem_subtree (hchild c hc) hx).2
          _ ≤ d.node.first := hcd
          _ ≤ y.node.first := (h.nested.of_mem_subtree (hchild d hd) hy).1

theorem Node.Ordered.pairwise_preorder (h : root.Ordered) :
    root.preorder.Pairwise fun x y => x.node.first ≤ y.node.first :=
  h.pairwise_subtree (Site.mem_subtree_self (Site.root root))

/-! ## Lines in order -/

/-- Entries that go down the lines of a document, no two of them with the same lines and label. -/
structure InLineOrder (es : List Entry) : Prop where
  ascending : ∃ lines : List Nat,
    List.Forall₂ (fun e line => ∃ last, e.Denotes line last) es lines ∧ lines.Pairwise (· ≤ ·)
  distinct : es.Pairwise fun e f => (e.lines, e.label) ≠ (f.lines, f.label)

theorem inLineOrder_nil : InLineOrder [] := ⟨⟨[], .nil, .nil⟩, .nil⟩

theorem inLineOrder_singleton {e : Entry} {first last : Nat} (h : e.Denotes first last) :
    InLineOrder [e] :=
  ⟨⟨[first], .cons ⟨last, h⟩ .nil, List.pairwise_singleton _ _⟩, List.pairwise_singleton _ _⟩

theorem pairwise_reported (h : root.Ordered) (source : Text) (q : Query) :
    (root.preorder.filterMap (reported? source q)).Pairwise fun a b => a.1 ≤ b.1 := by
  rw [List.pairwise_filterMap]
  refine h.pairwise_preorder.imp ?_
  intro x y hxy a ha b hb
  obtain ⟨-, -, -, hrow⟩ := reported?_eq_some_iff.1 ha
  obtain ⟨-, -, -, hrow'⟩ := reported?_eq_some_iff.1 hb
  rw [hrow, hrow']
  exact Nat.succ_le_succ (source.rowAtByte_mono hxy)

theorem inLineOrder_walk (h : root.Ordered) (source : Text) (q : Query) :
    InLineOrder (walk source q root).entries where
  ascending := by
    refine ⟨((root.preorder.filterMap (reported? source q)).eraseDups).map Prod.fst, ?_, ?_⟩
    · rw [entries_walk, List.forall₂_map_left_iff, List.forall₂_map_right_iff, List.forall₂_same]
      intro place _
      exact ⟨place.1, entryAt_denotes q.path place⟩
    · rw [List.pairwise_map]
      exact (pairwise_reported h source q).sublist (eraseDups_sublist _)
  distinct := (areDeclarations_walk source q root).distinct

end CodeReference.Syntax

namespace CodeReference.Resolver
open Syntax

/-- What is found in a tree in source order goes down the lines of the script, and no line has the
same label twice. -/
theorem inLineOrder_treeFindings {d : Document} {sel : Selection} {s : Span} {root : Node}
    (hspan : sel.span d.text = .ok s) (h : root.Ordered) :
    InLineOrder (treeFindings (.ok root) d s).entries := by
  rcases treeFindings_entries_ok root d s with heq | heq | ⟨label, heq⟩
  · rw [heq]
    exact inLineOrder_nil
  · rw [heq]
    exact inLineOrder_walk h d.text (Query.ofSpan d.path d.text s)
  · rw [heq]
    obtain ⟨-, first, last, -, -, -, hdenotes⟩ := pointsInto_of_span hspan label
    exact inLineOrder_singleton hdenotes

def repeatedScript : Document :=
  ⟨"a.ts".toList, "const o = { f() {}, f() {} }\nfunction g() {}\n".toList, none⟩

def repeatedTree : Node :=
  ⟨"program", 0, 45, none, [
    ⟨"lexical_declaration", 0, 28, none, [
      ⟨"variable_declarator", 6, 28, none, [
        ⟨"identifier", 6, 7, some "name", []⟩,
        ⟨"object", 10, 28, some "value", [
          ⟨"method_definition", 12, 18, none, [
            ⟨"property_identifier", 12, 13, some "name", []⟩,
            ⟨"formal_parameters", 13, 15, some "parameters", []⟩,
            ⟨"statement_block", 16, 18, some "body", []⟩]⟩,
          ⟨"method_definition", 20, 26, none, [
            ⟨"property_identifier", 20, 21, some "name", []⟩,
            ⟨"formal_parameters", 21, 23, some "parameters", []⟩,
            ⟨"statement_block", 24, 26, some "body", []⟩]⟩]⟩]⟩]⟩,
    ⟨"function_declaration", 29, 44, none, [
      ⟨"identifier", 38, 39, some "name", []⟩,
      ⟨"formal_parameters", 39, 41, some "parameters", []⟩,
      ⟨"statement_block", 42, 44, some "body", []⟩]⟩]⟩

/-- The second method is on the line of the first one and has its label, so it is left out. -/
theorem inLineOrder_treeFindings_repeated :
    (treeFindings (.ok repeatedTree) repeatedScript
      ⟨0, 44, 0, 1, repeatedScript.text.take 44⟩).entries =
        [entryAt "a.ts".toList (1, "o.f".toList), entryAt "a.ts".toList (2, ['g'])] ∧
      InLineOrder [entryAt "a.ts".toList (1, "o.f".toList), entryAt "a.ts".toList (2, ['g'])] := by
  have hspan : Selection.span repeatedScript.text ⟨⟨1, 15⟩, ⟨0, 0⟩⟩ =
      .ok ⟨0, 44, 0, 1, repeatedScript.text.take 44⟩ := by decide +kernel
  have heq : (treeFindings (.ok repeatedTree) repeatedScript
      ⟨0, 44, 0, 1, repeatedScript.text.take 44⟩).entries =
        [entryAt "a.ts".toList (1, "o.f".toList), entryAt "a.ts".toList (2, ['g'])] := by
    decide +kernel
  exact ⟨heq, heq ▸ inLineOrder_treeFindings hspan (by decide +kernel)⟩

end CodeReference.Resolver
