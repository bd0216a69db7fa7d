import Mathlib
import CodeReference.Grammar.Program
import CodeReference.Proofs.Entry.Format
import CodeReference.Proofs.Markup.Locator
import CodeReference.Proofs.Outline.Names
import CodeReference.Proofs.Reference
import CodeReference.Proofs.Syntax.Naming

/-!
The lines of output. Each reference is on a line of its own as long as no label contains a line
break, and only a name in the tree of a script can bring one into a label.
-/
namespace CodeReference
open Syntax

variable {readTree : TreeReader} {settings : Settings} {d : Document} {sel : Selection} {s : Span}
  {e : Entry} {f : Findings}

/-! ## Labels without trees -/

namespace Resolver

theorem lineFeed_not_mem_outlineFindings {tabWidth : Int}
    (he : e ∈ (outlineFindings tabWidth d s).entries) : '\n' ∉ e.labelText := by
  unfold outlineFindings at he
  dsimp only at he
  split at he
  · obtain ⟨b, hb, rfl⟩ := List.mem_map.1 he
    exact (Outline.isDotted_of_mem_blocks (List.mem_of_mem_filter hb)).lineFeed_not_mem
  · split at he
    · rename_i name hname
      rw [List.mem_singleton.1 he]
      exact (Outline.isDotted_of_selectedName? hname).lineFeed_not_mem
    · rw [List.mem_singleton.1 he]
      cases hfound : (Outline.enclosing? (Outline.blocks tabWidth d.text) s.startLine .defBlock).or
          (Outline.enclosing? (Outline.blocks tabWidth d.text) s.startLine .classBlock) with
      | none => exact List.not_mem_nil
      | some b =>
          have hb : Outline.IsDotted b.label := (Option.or_eq_some_iff.1 hfound).elim
            Outline.isDotted_of_enclosing? fun h => Outline.isDotted_of_enclosing? h.2
          exact hb.lineFeed_not_mem

theorem lineFeed_not_mem_markup (hf : markup.findings readTree settings d s = .ok f)
    (he : e ∈ f.entries) : '\n' ∉ e.labelText := by
  cases hf
  rw [List.mem_singleton.1 he]
  cases htag : Markup.enclosingTag? settings.snippetLength d.text s.focus with
  | none => exact List.not_mem_nil
  | some name => exact (Markup.isName_of_enclosingTag? htag).lineFeed_not_mem

/-! ## Labels from trees -/

theorem spelled_of_mem_treeFindings {tree : Except Text Node}
    (he : e ∈ (treeFindings tree d s).entries) :
    ∃ root, tree.toOption = some root ∧ Spelled d.text root e.labelText := by
  cases tree with
  | error message => cases he
  | ok root => exact ⟨root, rfl, spelled_of_mem_answer he⟩

/-- Among what the built-in strategies find, only a label from a tree can contain a line break. -/
theorem spelled_of_lineFeed_mem {strategy : Strategy}
    (hstrategy : strategy ∈ [.ofOutline, .ofTypedTree, .ofScriptTree, .ofMarkup])
    (hf : strategy.resolver.findings readTree settings d s = .ok f) (he : e ∈ f.entries)
    (hbreak : '\n' ∈ e.labelText) :
    ∃ root, strategy.resolver.tree? readTree d = some root ∧ Spelled d.text root e.labelText := by
  by_cases hreads : strategy.resolver.readsTree = true
  · obtain ⟨tree, htree, rfl⟩ := exists_tree_of_readsTree hreads hf
    exact htree ▸ spelled_of_mem_treeFindings he
  · simp only [List.mem_cons, List.not_mem_nil, or_false] at hstrategy
    rcases hstrategy with rfl | rfl | rfl | rfl
    · cases hf
      exact absurd hbreak (lineFeed_not_mem_outlineFindings he)
    · exact absurd rfl hreads
    · exact absurd rfl hreads
    · exact absurd hbreak (lineFeed_not_mem_markup hf he)

end Resolver

/-! ## Output -/

/-- The tree in which references for a document are looked for, if there is one. -/
def Document.tree? (readTree : TreeReader) (settings : Settings) (d : Document) : Option Node := do
  let strategy ← Registry.standard.get? d.extension (some settings)
  strategy.resolver.tree? readTree d

theorem spelled_of_mem_strategyFindings
    (hf : strategyFindings readTree .standard settings d s = .ok f) (he : e ∈ f.entries)
    (hbreak : '\n' ∈ e.labelText) :
    ∃ root, d.tree? readTree settings = some root ∧ Spelled d.text root e.labelText := by
  cases hget : Registry.standard.get? d.extension (some settings) with
  | none =>
      rw [strategyFindings_of_none hget] at hf
      cases hf
      cases he
  | some strategy =>
      obtain ⟨g, hg, hentries⟩ := exists_findings_of_strategyFindings hget hf
      obtain ⟨root, htree, hspelled⟩ := Resolver.spelled_of_lineFeed_mem
        (Registry.of_get?_standard hget) hg (hentries ▸ he) hbreak
      exact ⟨root, by rw [Document.tree?, hget]; exact htree, hspelled⟩

/-- A line break in a label stands in a node that gives a name, in the tree of the document. -/
theorem exists_site_of_lineFeed_mem
    (hf : strategyFindings readTree .standard settings d s = .ok f)
    (he : e ∈ (f.orLines d s).entries) (hbreak : '\n' ∈ e.labelText) :
    ∃ root, d.tree? readTree settings = some root ∧
      ∃ a ∈ root.preorder, a.givesName = true ∧ '\n' ∈ a.node.text d.text := by
  rw [Findings.entries_orLines] at he
  split at he
  · rw [List.mem_singleton.1 he] at hbreak
    cases hbreak
  · obtain ⟨root, htree, hspelled⟩ := spelled_of_mem_strategyFindings hf he hbreak
    exact ⟨root, htree, (hspelled '\n' hbreak).resolve_left (by decide)⟩

theorem Entry.PointsInto.lineFeed_mem_render (h : e.PointsInto d) (hpath : '\n' ∉ d.path) :
    '\n' ∈ e.render ↔ '\n' ∈ e.labelText := by
  obtain ⟨heq, first, last, -, -, -, hdenotes⟩ := h
  refine Entry.lineFeed_mem_render (heq ▸ hpath) ?_
  rw [hdenotes]
  split
  · exact Text.lineFeed_not_mem_ofInt first
  · simp [Text.lineFeed_not_mem_ofInt]

theorem referencesText_of_references {registry : Registry} {es : List Entry}
    (h : references readTree registry settings d sel = .ok es) :
    referencesText readTree registry settings d sel = .ok (Entry.format es) := by
  rw [referencesText, h]
  rfl

/-- The lines of the output are the rendered entries, each once and in order, if and only if no
label contains a line break; each line then begins with the path. Where a label contains one, the
document was read into a tree, and a node that gives a name in it contains one. -/
theorem splitOn_referencesText {es : List Entry} (hpath : '\n' ∉ d.path)
    (hes : references readTree .standard settings d sel = .ok es) :
    ∃ text, referencesText readTree .standard settings d sel = .ok text ∧
      (Text.splitOn '\n' text = (es.map Entry.render).eraseDups ↔ ∀ e ∈ es, '\n' ∉ e.labelText) ∧
      ((∀ e ∈ es, '\n' ∉ e.labelText) →
        ∀ line ∈ Text.splitOn '\n' text, d.path ++ [':'] <+: line) ∧
      ∀ e ∈ es, '\n' ∈ e.labelText → ∃ root, d.tree? readTree settings = some root ∧
        ∃ a ∈ root.preorder, a.givesName = true ∧ '\n' ∈ a.node.text d.text := by
  have htext := referencesText_of_references hes
  obtain ⟨s, f, hspan, hf, rfl⟩ := exists_findings_of_references hes
  have hinto : ∀ e ∈ (f.orLines d s).entries, e.PointsInto d := pointsInto_orLines hspan hf
  have hiff : Text.splitOn '\n' (Entry.format (f.orLines d s).entries) =
        ((f.orLines d s).entries.map Entry.render).eraseDups ↔
      ∀ e ∈ (f.orLines d s).entries, '\n' ∉ e.labelText := by
    rw [Entry.splitOn_format (Findings.orLines_ne_nil _)]
    exact forall₂_congr fun e he => not_congr ((hinto e he).lineFeed_mem_render hpath)
  refine ⟨_, htext, hiff, fun h line hline => ?_, fun e he => exists_site_of_lineFeed_mem hf he⟩
  rw [hiff.2 h, List.mem_eraseDups] at hline
  obtain ⟨e, he, rfl⟩ := List.mem_map.1 hline
  exact (hinto e he).1 ▸ e.path_isPrefix_render

def sampleOutline : Document := ⟨"a.py".toList, "def f():\n  pass\ndef g():\n  pass\n".toList, none⟩

theorem splitOn_referencesText_sampleOutline :
    ∃ text,
      referencesText Grammar.readProgram .standard {} sampleOutline ⟨⟨0, 0⟩, ⟨2, 1⟩⟩ = .ok text ∧
      Text.splitOn '\n' text = ["a.py:1-3 f".toList, "a.py:1-3 g".toList] := by
  have hes : references Grammar.readProgram .standard {} sampleOutline ⟨⟨0, 0⟩, ⟨2, 1⟩⟩ =
      .ok [⟨"a.py".toList, "1-3".toList, some ['f']⟩,
        ⟨"a.py".toList, "1-3".toList, some ['g']⟩] := by
    decide +kernel
  obtain ⟨text, htext, hlines, -⟩ := splitOn_referencesText (by decide) hes
  exact ⟨text, htext, (hlines.2 (by decide)).trans (by decide)⟩

/-- A chain with its dot on the second line. -/
def brokenChain : Document := ⟨"a.ts".toList, "foo\n  .bar;\n".toList, none⟩

/-- The one reference to the chain takes two lines, the second without the path: its label is the
chain as it is written. -/
theorem splitOn_referencesText_brokenChain :
    ∃ es text, '\n' ∉ brokenChain.path ∧
      references Grammar.readProgram .standard {} brokenChain (.cursor ⟨0, 0⟩) = .ok es ∧
      referencesText Grammar.readProgram .standard {} brokenChain (.cursor ⟨0, 0⟩) = .ok text ∧
      Text.splitOn '\n' text = ["a.ts:1 foo".toList, "  .bar".toList] ∧
      Text.splitOn '\n' text ≠ (es.map Entry.render).eraseDups ∧
      ∃ line ∈ Text.splitOn '\n' text, ¬ brokenChain.path ++ [':'] <+: line := by
  have hes : references Grammar.readProgram .standard {} brokenChain (.cursor ⟨0, 0⟩) =
      .ok [⟨"a.ts".toList, ['1'], some "foo\n  .bar".toList⟩] := by
    decide +kernel
  exact ⟨_, _, by decide, hes, referencesText_of_references hes, by decide, by decide,
    "  .bar".toList, by decide, by decide⟩

end CodeReference
