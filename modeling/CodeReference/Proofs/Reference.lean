import Mathlib
import CodeReference.Proofs.Registry
import CodeReference.Proofs.Selection
import CodeReference.Proofs.Syntax.Walk
import CodeReference.Proofs.Text.Bytes
import CodeReference.Proofs.Text.Source
import CodeReference.Reference

/-!
What references are given for a selection. A position beyond the last line is refused, and so is a
script with a surrogate in it. Else there is an entry, and every entry points to lines of the document,
whatever a parser gives.
-/
namespace CodeReference
open Syntax

/-! ## Entries and their lines -/

/-- Whether an entry names the lines `first` to `last`, counted from one. -/
def Entry.Denotes (e : Entry) (first last : Nat) : Prop :=
  e.lines =
    if first = last then Text.ofInt first else Text.ofInt first ++ ['-'] ++ Text.ofInt last

/-- Whether an entry points to lines of a document. -/
def Entry.PointsInto (d : Document) (e : Entry) : Prop :=
  e.path = d.path ∧ ∃ first last, 1 ≤ first ∧ first ≤ last ∧ last ≤ d.text.lineCount ∧
    e.Denotes first last

/-- Entries that stand for declarations: each on one line and with a label, no two of them alike. -/
structure AreDeclarations (es : List Entry) : Prop where
  label : ∀ e ∈ es, ∃ label, e.label = some label ∧ label ≠ []
  line : ∀ e ∈ es, ∃ line, e.Denotes line line
  distinct : es.Pairwise fun e f => (e.lines, e.label) ≠ (f.lines, f.label)

theorem Entry.denotes_of_lineText {e : Entry} {first last : Nat}
    (h : e.lines = lineText first last) : e.Denotes (first + 1) (last + 1) := by
  rw [Entry.Denotes, h, lineText]
  simp

variable {d : Document} {sel : Selection} {s : Span}

theorem lineText_of_span (h : sel.span d.text = .ok s) :
    s.lineText = lineText sel.lineRange.1 sel.lineRange.2 := by
  obtain ⟨hfirst, hlast⟩ := Selection.lines_of_span h
  rw [Span.lineText, hfirst, hlast]

/-- An entry for the selected lines points into the document. -/
theorem pointsInto_of_span (h : sel.span d.text = .ok s) (label : Option Text) :
    Entry.PointsInto d ⟨d.path, s.lineText, label⟩ := by
  obtain ⟨hanchor, hactive⟩ := Selection.lt_of_span h
  exact ⟨rfl, sel.lineRange.1 + 1, sel.lineRange.2 + 1, Nat.le_add_left _ _,
    Nat.succ_le_succ sel.lineRange_le, Selection.lineRange_lt hanchor hactive,
    Entry.denotes_of_lineText (lineText_of_span h)⟩

/-! ## Declarations in a tree -/

section
variable {source : Text} {q : Query} {root : Node}

theorem exists_place_of_mem_walk {e : Entry} (h : e ∈ (walk source q root).entries) :
    ∃ place : Nat × Text, e = entryAt q.path place ∧ 1 ≤ place.1 ∧
      place.1 ≤ source.lineCount ∧ place.2 ≠ [] := by
  obtain ⟨a, -, place, ha, rfl⟩ := (mem_entries_walk_iff source q).1 h
  obtain ⟨-, -, hlabel, hrow⟩ := reported?_eq_some_iff.1 ha
  have hlt : a.node.row source < source.lineCount := Text.rowAtByte_lt_lineCount source a.node.first
  exact ⟨place, rfl, by omega, by omega, hlabel⟩

theorem entryAt_denotes (path : Text) (place : Nat × Text) :
    (entryAt path place).Denotes place.1 place.1 := by
  rw [Entry.Denotes, if_pos rfl, entryAt]

theorem areDeclarations_walk (source : Text) (q : Query) (root : Node) :
    AreDeclarations (walk source q root).entries where
  label e he := by
    obtain ⟨place, rfl, -, -, hlabel⟩ := exists_place_of_mem_walk he
    exact ⟨place.2, rfl, hlabel⟩
  line e he := by
    obtain ⟨place, rfl, -⟩ := exists_place_of_mem_walk he
    exact ⟨place.1, entryAt_denotes q.path place⟩
  distinct := by
    rw [entries_walk, List.pairwise_map]
    refine (nodup_eraseDups _).imp fun {a b} hne heq => hne ?_
    simpa [entryAt, Text.ofInt_inj, Prod.ext_iff] using heq

end

/-! ## What the strategies find -/

namespace Resolver

variable {readTree : TreeReader} {settings : Settings} {dialect : Grammar.Dialect} {r : Resolver}
  {f : Findings}

/-- Whether a resolver looks into the tree of a script. -/
def readsTree : Resolver → Bool
  | typedTree => true
  | scriptTree => true
  | _ => false

/-- The tree of a document, in the grammar that a resolver takes for it. -/
def tree? (readTree : TreeReader) (d : Document) : Resolver → Option Node
  | typedTree => (readTree (typedDialect d.extension) d.text).toOption
  | scriptTree => (readTree .script d.text).toOption
  | _ => none

/-- A script is read from its characters, if it is read at all. -/
theorem scriptFindings_eq (readTree : TreeReader) (dialect : Grammar.Dialect) (d : Document)
    (s : Span) : scriptFindings readTree dialect d s =
      d.source.toText.map fun _ => treeFindings (readTree dialect d.text) d s := by
  unfold scriptFindings
  cases htext : d.source.toText with
  | error e => rfl
  | ok t =>
      have ht : d.text = t := by
        rw [Document.text, Source.toText_eq_ok_iff.1 htext, Source.text_ofText]
      rw [ht]
      rfl

theorem scriptFindings_of_isText (h : d.source.IsText) :
    scriptFindings readTree dialect d s =
      .ok (treeFindings (readTree dialect d.text) d s) := by
  rw [scriptFindings_eq, Source.toText_of_isText h]
  rfl

theorem eq_treeFindings_of_scriptFindings (h : scriptFindings readTree dialect d s = .ok f) :
    f = treeFindings (readTree dialect d.text) d s := by
  rw [scriptFindings_eq] at h
  cases htext : d.source.toText with
  | error e => rw [htext] at h; cases h
  | ok t => rw [htext] at h; cases h; rfl

theorem exists_isFirst_of_scriptFindings (h : ¬ d.source.IsText) :
    ∃ e, scriptFindings readTree dialect d s = .error e ∧ e.IsFirst d.source := by
  obtain ⟨e, htext, hfirst⟩ := Source.exists_isFirst_of_not_isText h
  exact ⟨e, by rw [scriptFindings_eq, htext]; rfl, hfirst⟩

/-- Only a script that is no text is refused. -/
theorem exists_findings (readTree : TreeReader) (settings : Settings) (s : Span)
    (h : r.readsTree = true → d.source.IsText) :
    ∃ f, r.findings readTree settings d s = .ok f := by
  cases r with
  | typedTree | scriptTree => exact ⟨_, scriptFindings_of_isText (h rfl)⟩
  | outline | markup | fixed => exact ⟨_, rfl⟩

theorem exists_isFirst_of_readsTree (hreads : r.readsTree = true) (h : ¬ d.source.IsText) :
    ∃ e, r.findings readTree settings d s = .error e ∧ e.IsFirst d.source := by
  cases r with
  | typedTree | scriptTree => exact exists_isFirst_of_scriptFindings h
  | outline | markup | fixed => cases hreads

theorem exists_tree_of_readsTree (hreads : r.readsTree = true)
    (hf : r.findings readTree settings d s = .ok f) :
    ∃ tree : Except Text Node, tree.toOption = r.tree? readTree d ∧ f = treeFindings tree d s := by
  cases r with
  | typedTree | scriptTree => exact ⟨_, rfl, eq_treeFindings_of_scriptFindings hf⟩
  | outline | markup | fixed => cases hreads

theorem treeFindings_entries_ok (root : Node) (d : Document) (s : Span) :
    (treeFindings (.ok root) d s).entries = [] ∨
      (treeFindings (.ok root) d s).entries =
        (walk d.text (Query.ofSpan d.path d.text s) root).entries ∨
      ∃ label, (treeFindings (.ok root) d s).entries = [⟨d.path, s.lineText, label⟩] := by
  simp only [treeFindings, answer]
  split
  · split
    · exact .inr (.inr ⟨_, rfl⟩)
    · exact .inl rfl
  · exact .inr (.inl rfl)

theorem treeFindings_entries (tree : Except Text Node) (d : Document) (s : Span) :
    (treeFindings tree d s).entries = [] ∨
      (∃ root, (treeFindings tree d s).entries =
        (walk d.text (Query.ofSpan d.path d.text s) root).entries) ∨
      ∃ label, (treeFindings tree d s).entries = [⟨d.path, s.lineText, label⟩] := by
  cases tree with
  | error message => exact .inl rfl
  | ok root => exact (treeFindings_entries_ok root d s).imp_right (.imp_left (⟨root, ·⟩))

theorem pointsInto_treeFindings (h : sel.span d.text = .ok s) (tree : Except Text Node) :
    ∀ e ∈ (treeFindings tree d s).entries, e.PointsInto d := by
  intro e he
  rcases treeFindings_entries tree d s with heq | ⟨root, heq⟩ | ⟨label, heq⟩
  · rw [heq] at he
    cases he
  · rw [heq] at he
    obtain ⟨place, rfl, hfirst, hlast, -⟩ := exists_place_of_mem_walk he
    exact ⟨rfl, place.1, place.1, hfirst, le_rfl, hlast, entryAt_denotes d.path place⟩
  · rw [heq, List.mem_singleton] at he
    exact he ▸ pointsInto_of_span h label

theorem pointsInto_outlineFindings (h : sel.span d.text = .ok s) (tabWidth : Int) :
    ∀ e ∈ (outlineFindings tabWidth d s).entries, e.PointsInto d := by
  intro e he
  unfold outlineFindings at he
  dsimp only at he
  split at he
  · obtain ⟨b, -, rfl⟩ := List.mem_map.1 he
    exact pointsInto_of_span h (some b.label)
  · split at he
    · rw [List.mem_singleton] at he
      exact he ▸ pointsInto_of_span h _
    · rw [List.mem_singleton] at he
      exact he ▸ pointsInto_of_span h _

/-- Whatever a strategy finds lies in the document. -/
theorem pointsInto_findings (h : sel.span d.text = .ok s)
    (hf : r.findings readTree settings d s = .ok f) : ∀ e ∈ f.entries, e.PointsInto d := by
  cases r with
  | outline =>
      cases hf
      exact pointsInto_outlineFindings h settings.tabWidth
  | typedTree | scriptTree =>
      rw [eq_treeFindings_of_scriptFindings hf]
      exact pointsInto_treeFindings h _
  | markup =>
      cases hf
      intro e he
      rw [List.mem_singleton.1 he]
      exact pointsInto_of_span h _
  | fixed labels =>
      cases hf
      intro e he
      obtain ⟨label, -, rfl⟩ := List.mem_map.1 he
      exact pointsInto_of_span h (some label)

end Resolver

/-! ## References -/

section
variable {readTree : TreeReader} {registry : Registry} {settings : Settings} {strategy : Strategy}
  {f g : Findings} {es : List Entry}

theorem strategyFindings_of_none (h : registry.get? d.extension (some settings) = none) :
    strategyFindings readTree registry settings d s = .ok {} := by
  rw [strategyFindings, h]

section
variable (hget : registry.get? d.extension (some settings) = some strategy)
include hget

theorem exists_strategyFindings (hg : strategy.resolver.findings readTree settings d s = .ok g) :
    ∃ f, strategyFindings readTree registry settings d s = .ok f ∧ f.entries = g.entries := by
  rw [strategyFindings, hget]
  dsimp only
  rw [hg]
  exact ⟨_, rfl, rfl⟩

theorem strategyFindings_of_error {e : Source.EncodeError}
    (he : strategy.resolver.findings readTree settings d s = .error e) :
    strategyFindings readTree registry settings d s = .error e := by
  rw [strategyFindings, hget]
  dsimp only
  rw [he]
  rfl

theorem exists_findings_of_strategyFindings
    (hf : strategyFindings readTree registry settings d s = .ok f) :
    ∃ g, strategy.resolver.findings readTree settings d s = .ok g ∧ f.entries = g.entries := by
  cases hfound : strategy.resolver.findings readTree settings d s with
  | error e =>
      rw [strategyFindings_of_error hget hfound] at hf
      cases hf
  | ok g =>
      obtain ⟨f', hf', hentries⟩ := exists_strategyFindings hget hfound
      rw [hf] at hf'
      cases hf'
      exact ⟨g, rfl, hentries⟩

end

theorem pointsInto_strategyFindings (h : sel.span d.text = .ok s)
    (hf : strategyFindings readTree registry settings d s = .ok f) :
    ∀ e ∈ f.entries, e.PointsInto d := by
  cases hget : registry.get? d.extension (some settings) with
  | none =>
      rw [strategyFindings_of_none hget] at hf
      cases hf
      simp
  | some strategy =>
      obtain ⟨g, hg, hentries⟩ := exists_findings_of_strategyFindings hget hf
      rw [hentries]
      exact Resolver.pointsInto_findings h hg

theorem Findings.entries_orLines (f : Findings) : (f.orLines d s).entries =
    if f.entries = [] then [⟨d.path, s.lineText, none⟩] else f.entries := by
  simp only [orLines, List.isEmpty_iff]
  split <;> rfl

theorem Findings.orLines_ne_nil (f : Findings) : (f.orLines d s).entries ≠ [] := by
  rw [f.entries_orLines]
  split
  · simp
  · assumption

theorem pointsInto_orLines (h : sel.span d.text = .ok s)
    (hf : strategyFindings readTree registry settings d s = .ok f) :
    ∀ e ∈ (f.orLines d s).entries, e.PointsInto d := by
  intro e he
  rw [Findings.entries_orLines] at he
  split at he
  · rw [List.mem_singleton.1 he]
    exact pointsInto_of_span h none
  · exact pointsInto_strategyFindings h hf e he

theorem references_of_selectionError {e : SelectionError} (h : sel.span d.text = .error e) :
    references readTree registry settings d sel = .error (.selection e) := by
  rw [references, findings, h]
  rfl

theorem references_of_encodeError {e : Source.EncodeError} (h : sel.span d.text = .ok s)
    (he : strategyFindings readTree registry settings d s = .error e) :
    references readTree registry settings d sel = .error (.encoding e) := by
  rw [references, findings, h]
  simp only [Except.mapError, bind, Except.bind, he]

theorem references_of_strategyFindings (h : sel.span d.text = .ok s)
    (hf : strategyFindings readTree registry settings d s = .ok f) :
    references readTree registry settings d sel = .ok (f.orLines d s).entries := by
  rw [references, findings, h]
  simp only [Except.mapError, bind, Except.bind, hf, pure, Except.pure]

theorem exists_strategyFindings_of_findings
    (h : findings readTree registry settings d sel = .ok f) :
    ∃ s g, sel.span d.text = .ok s ∧
      strategyFindings readTree registry settings d s = .ok g ∧ f = g.orLines d s := by
  unfold findings at h
  cases hspan : sel.span d.text with
  | error e =>
      rw [hspan] at h
      cases h
  | ok s =>
      rw [hspan] at h
      cases hg : strategyFindings readTree registry settings d s with
      | error e =>
          simp only [Except.mapError, bind, Except.bind, hg] at h
          cases h
      | ok g =>
          simp only [Except.mapError, bind, Except.bind, hg] at h
          cases h
          exact ⟨s, g, rfl, hg, rfl⟩

theorem exists_findings_of_references
    (h : references readTree registry settings d sel = .ok es) :
    ∃ s f, sel.span d.text = .ok s ∧
      strategyFindings readTree registry settings d s = .ok f ∧ es = (f.orLines d s).entries := by
  unfold references at h
  cases hf : findings readTree registry settings d sel with
  | error e =>
      rw [hf] at h
      cases h
  | ok f =>
      rw [hf] at h
      cases h
      obtain ⟨s, g, hspan, hg, rfl⟩ := exists_strategyFindings_of_findings hf
      exact ⟨s, g, hspan, hg, rfl⟩

theorem references_of_nothing_found
    (h : ∀ s, ∃ f, strategyFindings readTree registry settings d s = .ok f ∧ f.entries = []) :
    references readTree registry settings d sel =
      ((sel.span d.text).mapError .selection).map fun s => [⟨d.path, s.lineText, none⟩] := by
  cases hspan : sel.span d.text with
  | error e => exact references_of_selectionError hspan
  | ok s =>
      obtain ⟨f, hf, hnone⟩ := h s
      rw [references_of_strategyFindings hspan hf, Findings.entries_orLines, if_pos hnone]
      rfl

/-- Where a strategy looks into trees, its answer is a list of declarations or one entry for the
selected lines. -/
theorem orLines_strategyFindings_of_readsTree
    (hget : registry.get? d.extension (some settings) = some strategy)
    (htree : strategy.resolver.readsTree = true)
    (hf : strategyFindings readTree registry settings d s = .ok f) :
    AreDeclarations (f.orLines d s).entries ∨
      ∃ label, (f.orLines d s).entries = [⟨d.path, s.lineText, label⟩] := by
  obtain ⟨g, hg, hentries⟩ := exists_findings_of_strategyFindings hget hf
  obtain ⟨tree, -, rfl⟩ := Resolver.exists_tree_of_readsTree htree hg
  rw [Findings.entries_orLines, hentries]
  split
  · exact .inr ⟨none, rfl⟩
  · rename_i hne
    rcases Resolver.treeFindings_entries tree d s with heq | ⟨root, heq⟩ | hlines
    · exact absurd heq hne
    · exact .inl (heq ▸ areDeclarations_walk d.text _ root)
    · exact .inr hlines

end

/-! ## Scripts -/

theorem Strategy.readsTree_iff {strategy : Strategy}
    (h : strategy ∈ [ofOutline, ofTypedTree, ofScriptTree, ofMarkup]) :
    strategy.resolver.readsTree = true ↔
      strategy.language = .typescript ∨ strategy.language = .javascript := by
  simp only [List.mem_cons, List.not_mem_nil, or_false] at h
  rcases h with rfl | rfl | rfl | rfl <;> decide

/-- Whether the strategy for a document is one for scripts. -/
def Document.IsScript (settings : Settings) (d : Document) : Prop :=
  ∃ strategy, Registry.standard.get? d.extension (some settings) = some strategy ∧
    (strategy.language = .typescript ∨ strategy.language = .javascript)

section
variable {readTree : TreeReader} {settings : Settings} {f : Findings}

theorem Document.IsScript.exists_readsTree (h : d.IsScript settings) :
    ∃ strategy, Registry.standard.get? d.extension (some settings) = some strategy ∧
      strategy.resolver.readsTree = true := by
  obtain ⟨strategy, hget, hlanguage⟩ := h
  exact ⟨strategy, hget, (Strategy.readsTree_iff (Registry.of_get?_standard hget)).2 hlanguage⟩

theorem exists_strategyFindings_standard (h : d.IsScript settings → d.source.IsText) :
    ∃ f, strategyFindings readTree .standard settings d s = .ok f := by
  cases hget : Registry.standard.get? d.extension (some settings) with
  | none => exact ⟨{}, strategyFindings_of_none hget⟩
  | some strategy =>
      have hiff := Strategy.readsTree_iff (Registry.of_get?_standard hget)
      obtain ⟨g, hg⟩ := Resolver.exists_findings readTree settings s fun hreads =>
        h ⟨strategy, hget, hiff.1 hreads⟩
      exact (exists_strategyFindings hget hg).imp fun _ hf => hf.1

theorem exists_isFirst_of_isScript (hscript : d.IsScript settings) (h : ¬ d.source.IsText) :
    ∃ e, strategyFindings readTree .standard settings d s = .error e ∧ e.IsFirst d.source := by
  obtain ⟨strategy, hget, hreads⟩ := hscript.exists_readsTree
  obtain ⟨e, he, hfirst⟩ := Resolver.exists_isFirst_of_readsTree hreads h
  exact ⟨e, strategyFindings_of_error hget he, hfirst⟩

theorem exists_references_of_isScript (hspan : sel.span d.text = .ok s)
    (hscript : d.IsScript settings) (h : ¬ d.source.IsText) :
    ∃ e, references readTree .standard settings d sel = .error (.encoding e) ∧
      e.IsFirst d.source := by
  obtain ⟨e, he, hfirst⟩ := exists_isFirst_of_isScript hscript h
  exact ⟨e, references_of_encodeError hspan he, hfirst⟩

theorem exists_references (hspan : sel.span d.text = .ok s)
    (h : d.IsScript settings → d.source.IsText) :
    ∃ es, references readTree .standard settings d sel = .ok es ∧ es ≠ [] ∧
      (∀ e ∈ es, e.PointsInto d) ∧
      (d.IsScript settings → AreDeclarations es ∨
        ∃ e, es = [e] ∧ e.Denotes (sel.lineRange.1 + 1) (sel.lineRange.2 + 1)) := by
  obtain ⟨f, hf⟩ := exists_strategyFindings_standard h
  refine ⟨_, references_of_strategyFindings hspan hf, Findings.orLines_ne_nil f,
    pointsInto_orLines hspan hf, fun hscript => ?_⟩
  obtain ⟨strategy, hget, hreads⟩ := hscript.exists_readsTree
  refine (orLines_strategyFindings_of_readsTree hget hreads hf).imp_right ?_
  rintro ⟨label, heq⟩
  exact ⟨_, heq, Entry.denotes_of_lineText (lineText_of_span hspan)⟩

/-- A script that cannot be read into a tree is treated like a file for which there is no strategy. -/
theorem references_of_tree?_eq_none {strategy : Strategy}
    (hget : Registry.standard.get? d.extension (some settings) = some strategy)
    (hreads : strategy.resolver.readsTree = true) (htext : d.source.IsText)
    (htree : strategy.resolver.tree? readTree d = none) {extension : Text}
    (hnone : Registry.standard.get? (Text.lowercase extension) (some settings) = none) :
    references readTree .standard settings d sel =
      references readTree .standard settings { d with extension? := some extension } sel := by
  rw [references_of_nothing_found fun s => ?_, references_of_nothing_found fun s => ?_]
  · rfl
  · exact ⟨{}, strategyFindings_of_none hnone, rfl⟩
  · obtain ⟨g, hg⟩ := Resolver.exists_findings readTree settings s
      fun _ : strategy.resolver.readsTree = true => htext
    obtain ⟨tree, hfailed, rfl⟩ := Resolver.exists_tree_of_readsTree hreads hg
    obtain ⟨f, hf, hentries⟩ := exists_strategyFindings hget hg
    refine ⟨f, hf, hentries.trans ?_⟩
    cases tree with
    | error message => rfl
    | ok root =>
        rw [htree] at hfailed
        cases hfailed

end

/-! ## Refusals -/

/-- An answer that refuses a line, counted from zero, of a document of `count` lines. -/
def Refuses (answer : Except ReferenceError (List Entry)) (line count : Nat) : Prop :=
  ∃ e, answer = .error (.selection e) ∧ e.message = "line ".toList ++ Text.ofInt (line + 1) ++
    " is past the end of the document (".toList ++ Text.ofInt count ++ " lines)".toList

/-- With the built-in strategies a selection is refused if one of its lines is not there, and in a
script also if that is no text: then its first surrogates are reported. In every other case there are
entries, and they point into the document. For scripts they are declarations or one entry for the
selected lines, and a script that cannot be read into a tree is treated like a file for which there is
no strategy. -/
theorem references_standard (readTree : TreeReader) (settings : Settings) (d : Document)
    (sel : Selection) :
    (d.text.lineCount ≤ sel.anchor.line →
        Refuses (references readTree Registry.standard settings d sel)
          sel.anchor.line d.text.lineCount) ∧
      (sel.anchor.line < d.text.lineCount → d.text.lineCount ≤ sel.active.line →
        Refuses (references readTree Registry.standard settings d sel)
          sel.active.line d.text.lineCount) ∧
      (sel.anchor.line < d.text.lineCount → sel.active.line < d.text.lineCount →
        (d.IsScript settings ∧ ¬ d.source.IsText →
          ∃ e, references readTree Registry.standard settings d sel = .error (.encoding e) ∧
            e.IsFirst d.source) ∧
        (¬ (d.IsScript settings ∧ ¬ d.source.IsText) →
          ∃ es, references readTree Registry.standard settings d sel = .ok es ∧ es ≠ [] ∧
            (∀ e ∈ es, e.PointsInto d) ∧
            (d.IsScript settings → AreDeclarations es ∨
              ∃ e, es = [e] ∧ e.Denotes (sel.lineRange.1 + 1) (sel.lineRange.2 + 1)))) ∧
      ∀ strategy, Registry.standard.get? d.extension (some settings) = some strategy →
        strategy.language = .typescript ∨ strategy.language = .javascript →
        d.source.IsText → strategy.resolver.tree? readTree d = none →
        ∀ extension, Registry.standard.get? (Text.lowercase extension) (some settings) = none →
          references readTree Registry.standard settings d sel =
            references readTree Registry.standard settings { d with extension? := some extension }
              sel := by
  refine ⟨fun hanchor => ?_, fun hanchor hactive => ?_, fun hanchor hactive => ?_, ?_⟩
  · exact ⟨_, references_of_selectionError (Selection.span_of_le_anchor hanchor), rfl⟩
  · exact ⟨_, references_of_selectionError (Selection.span_of_le_active hanchor hactive), rfl⟩
  · have hspan := Selection.span_of_lt hanchor hactive
    exact ⟨fun h => exists_references_of_isScript hspan h.1 h.2, fun h =>
      exists_references hspan fun hscript => not_not.1 fun htext => h ⟨hscript, htext⟩⟩
  · intro strategy hget hlanguage htext htree extension hnone
    have hreads := (Strategy.readsTree_iff (Registry.of_get?_standard hget)).2 hlanguage
    exact references_of_tree?_eq_none hget hreads htext htree hnone

def loneSurrogate : Document := ⟨"a.ts".toList, [.surrogate 0], none⟩

/-- A cursor in the one line of a script is refused if the script is a surrogate. -/
theorem not_references_refused_iff_line : ¬ ∀ (readTree : TreeReader) (settings : Settings)
    (d : Document) (sel : Selection),
    (∃ e, references readTree Registry.standard settings d sel = .error e) ↔
      d.text.lineCount ≤ sel.anchor.line ∨ d.text.lineCount ≤ sel.active.line := by
  intro h
  have hrefused : references (fun _ _ => .error []) Registry.standard {} loneSurrogate
      (.cursor ⟨0, 0⟩) = .error (.encoding ⟨0, 0, 0⟩) := by
    decide +kernel
  have hline := (h (fun _ _ => .error []) {} loneSurrogate (.cursor ⟨0, 0⟩)).1 ⟨_, hrefused⟩
  exact absurd hline (by decide)

end CodeReference
