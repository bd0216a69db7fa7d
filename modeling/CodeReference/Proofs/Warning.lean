import Mathlib
import CodeReference.CommandLine.Run
import CodeReference.Proofs.Output

/-!
What a program says without being asked. Of the notes taken while references are looked for, only that
a script could not be read into a tree is more than a detail. So a run without debugging prints its
references and nothing else, unless there is no tree for its script.
-/
namespace CodeReference

variable {readTree : TreeReader} {registry : Registry} {settings : Settings} {strategy : Strategy}
  {d : Document} {sel : Selection} {s : Span} {r : Resolver} {f : Findings}

/-- Whether something was noted that is written also without debugging. -/
def Findings.Warns (f : Findings) : Prop := ∃ event ∈ f.events, event.level ≠ .debug

/-! ## Findings -/

namespace Resolver

theorem not_warns_outlineFindings (tabWidth : Int) (d : Document) (s : Span) :
    ¬ (outlineFindings tabWidth d s).Warns := by
  rintro ⟨event, hevent, hlevel⟩
  unfold outlineFindings at hevent
  dsimp only at hevent
  split at hevent
  · cases hevent
  · split at hevent
    · cases hevent
    · rw [List.mem_singleton.1 hevent] at hlevel
      exact hlevel rfl

theorem warns_treeFindings_iff (tree : Except Text Syntax.Node) (d : Document) (s : Span) :
    (treeFindings tree d s).Warns ↔ tree.toOption = none := by
  cases tree with
  | error message => simp [Findings.Warns, treeFindings, Except.toOption]
  | ok root =>
      refine iff_of_false ?_ (Option.some_ne_none root)
      rintro ⟨event, hevent, hlevel⟩
      simp only [treeFindings] at hevent
      split at hevent
      · rw [List.mem_singleton.1 hevent] at hlevel
        exact hlevel rfl
      · cases hevent

theorem warns_findings_iff (hf : r.findings readTree settings d s = .ok f) :
    f.Warns ↔ r.readsTree = true ∧ r.tree? readTree d = none := by
  by_cases hreads : r.readsTree = true
  · obtain ⟨tree, htree, rfl⟩ := exists_tree_of_readsTree hreads hf
    rw [warns_treeFindings_iff, htree, and_iff_right hreads]
  · refine iff_of_false ?_ fun h => hreads h.1
    cases r with
    | outline =>
        cases hf
        exact not_warns_outlineFindings settings.tabWidth d s
    | typedTree | scriptTree => exact absurd rfl hreads
    | markup | fixed =>
        cases hf
        simp [Findings.Warns]

end Resolver

theorem warns_strategyFindings_iff
    (hget : registry.get? d.extension (some settings) = some strategy)
    (hf : strategyFindings readTree registry settings d s = .ok f) :
    f.Warns ↔ strategy.resolver.readsTree = true ∧ strategy.resolver.tree? readTree d = none := by
  obtain ⟨g, hg, -⟩ := exists_findings_of_strategyFindings hget hf
  rw [strategyFindings, hget] at hf
  dsimp only at hf
  rw [hg] at hf
  cases hf
  rw [← Resolver.warns_findings_iff hg]
  simp [Findings.Warns]

theorem Findings.warns_orLines_iff : (f.orLines d s).Warns ↔ f.Warns := by
  unfold orLines
  split
  · simp [Warns, or_and_right, exists_or]
  · rfl

/-- There is a warning if and only if a script cannot be read into a tree. -/
theorem warns_findings_standard_iff (hf : findings readTree .standard settings d sel = .ok f) :
    f.Warns ↔ d.IsScript settings ∧ d.tree? readTree settings = none := by
  obtain ⟨s, g, -, hg, rfl⟩ := exists_strategyFindings_of_findings hf
  rw [Findings.warns_orLines_iff]
  cases hget : Registry.standard.get? d.extension (some settings) with
  | none =>
      rw [strategyFindings_of_none hget] at hg
      cases hg
      simp [Findings.Warns, Document.IsScript, hget]
  | some strategy =>
      have hlanguage := Strategy.readsTree_iff (Registry.of_get?_standard hget)
      simp [warns_strategyFindings_iff hget hg, Document.IsScript, Document.tree?, hget, hlanguage]

/-! ## Runs -/

namespace CommandLine

variable {events : List Event} {file : FoundPath} {text : Text}

theorem Logging.written_eq_nil_iff :
    (({} : Logging).setUp false).written events = [] ↔ ∀ event ∈ events, event.level = .debug := by
  rw [Logging.written, List.flatMap_eq_nil_iff]
  refine forall₂_congr fun event _ => ?_
  cases hlevel : event.level <;> simp [Logging.setUp, Level.number]

/-- Without debugging, a run that prints references writes to its error output if and only if the
file is a script that cannot be read into a tree. -/
theorem err_runRefs_ne_nil_iff (surroundings : Surroundings) (v : Values)
    (htext : Text.decode file.place.bytes = .ok text)
    (hd : d = { path := v.relativePath surroundings file, source := text })
    (hf : findings readTree .standard settings d v.selection = .ok f) :
    (Command.runRefs readTree surroundings settings (({} : Logging).setUp false) v file).err ≠ [] ↔
      d.IsScript settings ∧ d.tree? readTree settings = none := by
  subst hd
  have hdetails : ∀ done : Event, done.level = .debug →
      ((∀ event ∈ f.events ++ [done], event.level = .debug) ↔ ¬ f.Warns) := by
    intro done hdone
    simp [Findings.Warns, or_imp, forall_and, hdone]
  rw [← warns_findings_standard_iff hf, Command.runRefs, withDocument, htext]
  dsimp only
  rw [hf]
  dsimp only
  rw [Ne, Logging.written_eq_nil_iff, hdetails _ rfl, not_not]

end CommandLine
end CodeReference
