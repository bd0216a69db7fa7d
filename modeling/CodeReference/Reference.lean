import CodeReference.Grammar.Terminator
import CodeReference.Journal
import CodeReference.Markup.Locator
import CodeReference.Outline.Block
import CodeReference.Outline.SelectedName
import CodeReference.Registry
import CodeReference.Syntax.Walk
import CodeReference.Text.Source

/-!
References for a selection. The extension of a document chooses a strategy, which finds the entries;
where it finds none, one entry without a label stands for the selected lines. A script is read from
its encoding, so it is refused if it has none.
-/
namespace CodeReference

/-- What reads a script into its tree. It may fail, and says why. -/
abbrev TreeReader := Grammar.Dialect → Text → Except Text Syntax.Node

/-- The file of a path: what follows the last slash. -/
def fileName (path : Text) : Text := (path.reverse.takeWhile (· != '/')).reverse

/-- The extension of a path, with its dot. Dots in front of the name start no extension. -/
def extensionOf (path : Text) : Text :=
  let name := (fileName path).dropWhile (· == '.')
  if name.contains '.' then '.' :: (name.reverse.takeWhile (· != '.')).reverse else []

structure Document where
  path : Text
  source : Source
  extension? : Option Text := none

namespace Document

/-- The characters of a document, in which everything but the tree of a script is looked for. -/
def text (d : Document) : Text := d.source.text

def extension (d : Document) : Text := Text.lowercase (d.extension?.getD (extensionOf d.path))

end Document

structure Findings where
  events : List Event := []
  entries : List Entry := []

namespace Resolver

/-- Functions that begin in the selected lines, or else the selected name, or else the function or
class around the first selected line. -/
def outlineFindings (tabWidth : Int) (d : Document) (s : Span) : Findings :=
  let blocks := Outline.blocks tabWidth d.text
  let entry := fun label => ({ path := d.path, lines := s.lineText, label := label } : Entry)
  let starting := blocks.filter fun b =>
    b.kind == .defBlock && s.startLine ≤ b.start && b.start ≤ s.stopLine
  if !starting.isEmpty then { entries := starting.map fun b => entry (some b.label) }
  else
    match Outline.selectedName? s.text with
    | some name => { entries := [entry (some name)] }
    | none =>
      let label := ((Outline.enclosing? blocks s.startLine .defBlock).or
        (Outline.enclosing? blocks s.startLine .classBlock)).map (·.label)
      { events := [⟨.debug, "Python selection resolved by enclosing block".toList,
          [("block".toList, .ofText? label), ("line".toList, .int (s.startLine + 1)),
            ("path".toList, .text d.path)]⟩]
        entries := [entry label] }

/-- Declarations in the tree of a script, or else the name at the selection; nothing without a tree. -/
def treeFindings (tree : Except Text Syntax.Node) (d : Document) (s : Span) : Findings :=
  match tree with
  | .error message =>
    { events := [⟨.warning, "tree-sitter failed to parse source".toList,
        [("error".toList, .text message), ("extension".toList, .text d.extension),
          ("path".toList, .text d.path)]⟩] }
  | .ok root =>
    let answer := Syntax.answer d.text (Syntax.Query.ofSpan d.path d.text s) root
    { events := match answer with
        | .enclosing site label =>
          [⟨.debug, "No declaration intersects selection; using enclosing node".toList,
            [("label".toList, .ofText? label), ("node_type".toList, .text site.kind.toList),
              ("path".toList, .text d.path)]⟩]
        | _ => []
      entries := answer.entries d.path s.lineText }

/-- The grammar for files with an extension that hold type annotations. -/
def typedDialect (extension : Text) : Grammar.Dialect :=
  if extension = ".tsx".toList then .typedElements else .typed

/-- Findings in a script, which has to be encoded before it is read. -/
def scriptFindings (readTree : TreeReader) (dialect : Grammar.Dialect) (d : Document) (s : Span) :
    Except Source.EncodeError Findings := do
  let t ← d.source.toText
  return treeFindings (readTree dialect t) d s

def findings (readTree : TreeReader) (settings : Settings) (d : Document) (s : Span) :
    Resolver → Except Source.EncodeError Findings
  | outline => return outlineFindings settings.tabWidth d s
  | typedTree => scriptFindings readTree (typedDialect d.extension) d s
  | scriptTree => scriptFindings readTree .script d s
  | markup =>
    let tag := Markup.enclosingTag? settings.snippetLength d.text s.focus
    return { entries := [{ path := d.path, lines := s.lineText, label := tag }] }
  | fixed labels =>
    return { entries := labels.map fun l =>
      { path := d.path, lines := s.lineText, label := some l } }

end Resolver

/-- The findings of the strategy for a document; none without a strategy. -/
def strategyFindings (readTree : TreeReader) (registry : Registry) (settings : Settings)
    (d : Document) (s : Span) : Except Source.EncodeError Findings :=
  match registry.get? d.extension (some settings) with
  | none => .ok {}
  | some strategy => do
    let found ← strategy.resolver.findings readTree settings d s
    let begun : Event := ⟨.debug, "Resolving references".toList,
      [("end".toList, .int s.stop), ("path".toList, .text d.path), ("start".toList, .int s.start),
        ("strategy".toList, .text strategy.name)]⟩
    return { found with events := begun :: found.events }

namespace Findings

/-- Findings with an entry for the selected lines, if there is no other. -/
def orLines (f : Findings) (d : Document) (s : Span) : Findings :=
  if f.entries.isEmpty then
    { events := f.events ++ [⟨.debug, "No labelled entries; emitting line reference".toList,
        [("lines".toList, .text s.lineText), ("path".toList, .text d.path)]⟩]
      entries := [{ path := d.path, lines := s.lineText, label := none }] }
  else f

end Findings

/-- Why there are no references. -/
inductive ReferenceError where
  | selection (e : SelectionError)
  | encoding (e : Source.EncodeError)
deriving Repr, DecidableEq

namespace ReferenceError

def message : ReferenceError → Text
  | selection e => e.message
  | encoding e => e.message

end ReferenceError

def findings (readTree : TreeReader) (registry : Registry) (settings : Settings) (d : Document)
    (sel : Selection) : Except ReferenceError Findings := do
  let s ← (sel.span d.text).mapError .selection
  let found ← (strategyFindings readTree registry settings d s).mapError .encoding
  return found.orLines d s

def references (readTree : TreeReader) (registry : Registry) (settings : Settings) (d : Document)
    (sel : Selection) : Except ReferenceError (List Entry) := do
  return (← findings readTree registry settings d sel).entries

def referencesText (readTree : TreeReader) (registry : Registry) (settings : Settings)
    (d : Document) (sel : Selection) : Except ReferenceError Text := do
  return Entry.format (← references readTree registry settings d sel)

end CodeReference
