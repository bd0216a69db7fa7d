import CodeReference.Markup.Segment

/-!
Tokens written again, one construct per line, indented by how deep it is nested. An element that
holds nothing but one line of text stays on one line.
-/
namespace CodeReference.Markup

/-- What a level of nesting is indented by, and how long a raw text may be to stay in its line. -/
structure Style where
  indent : Text := "  ".toList
  inlineLimit : Int := 60
deriving Repr, DecidableEq

/-- Line breaks as character references. -/
def escapeBreaks (t : Text) : Text :=
  t.flatMap fun c =>
    if c = '\n' then "&#10;".toList else if c = '\r' then "&#13;".toList else [c]

def openTag (name attributes : Text) (selfClosing : Bool) : Text :=
  let slash := if selfClosing then [' ', '/'] else []
  if attributes.isEmpty then ['<'] ++ name ++ slash ++ ['>']
  else ['<'] ++ name ++ [' '] ++ attributes ++ slash ++ ['>']

def closeTag (name : Text) : Text := ['<', '/'] ++ name ++ ['>']

/-- Whether the text of an element keeps its line breaks, by the names of the open elements. -/
def keepsBreaks (openNames : List Text) : Bool := openNames.any preservingElements.contains

/-- Text as it is written: trimmed, with its line breaks escaped unless they are kept. -/
def writtenText (keep : Bool) (content : Text) : Text :=
  let t := Text.trim content
  if keep then t else escapeBreaks t

def dropBlankMargin (ls : List Text) : List Text :=
  ((ls.dropWhile Text.isBlankLine).reverse.dropWhile Text.isBlankLine).reverse

def leadingBlanks (l : Text) : Nat := (l.takeWhile Text.isBlank).length

/-- The least number of blanks in front of any line that is not blank. -/
def commonIndent (ls : List Text) : Nat :=
  ((ls.filter fun l => !Text.isBlankLine l).map leadingBlanks).min?.getD 0

/-- How deep a token is nested, and the names of the open elements, the innermost first. -/
structure Nesting where
  depth : Nat := 0
  openNames : List Text := []
deriving Repr, DecidableEq

namespace Nesting

def enter (n : Nesting) (name : Text) : Nesting := ⟨n.depth + 1, name :: n.openNames⟩

/-- Leaves the innermost element; where none is open nothing changes. -/
def leave (n : Nesting) : Nesting := ⟨n.depth - 1, n.openNames.tail⟩

end Nesting

namespace Style

def indentation (s : Style) (depth : Nat) : Text := Text.times depth s.indent

def line (s : Style) (depth : Nat) (t : Text) : Text := s.indentation depth ++ t

/-- The lines of a raw text element. Its content loses the indentation that its lines share and is
indented one level deeper than its tags. -/
def rawTextLines (s : Style) (depth : Nat) (name attributes content : Text) : List Text :=
  let opening := openTag name attributes false
  let closing := closeTag name
  let body := dropBlankMargin (Text.splitOn '\n' content)
  let block :=
    let common := commonIndent body
    let inner := body.map fun l =>
      if Text.isBlankLine l then []
      else s.line (depth + 1) (Text.dropEndWhile (· == '\r') (l.drop common))
    [s.line depth opening] ++ inner ++ [s.line depth closing]
  match body with
  | [] => [s.line depth (opening ++ closing)]
  | [single] =>
    let t := Text.trim single
    if t.length < s.inlineLimit then [s.line depth (opening ++ t ++ closing)] else block
  | _ => block

/-- The text of an element that goes on one line with its tags: the element is followed by one text
and its closing tag, and the text as written is one line. -/
def inlineText? (name : Text) (keep : Bool) : (following : List Token) → Option Text
  | .text content :: .endTag closing :: _ =>
    let t := writtenText keep content
    if closing = name ∧ ¬ t.isEmpty ∧ ¬ t.contains '\n' then some t else none
  | _ => none

def token (s : Style) (n : Nesting) : Token → List Text × Nesting
  | .comment content | .doctype content => ([s.line n.depth content], n)
  | .rawText name attributes content => (s.rawTextLines n.depth name attributes content, n)
  | .startTag name attributes selfClosing =>
    ([s.line n.depth (openTag name attributes selfClosing)],
      if selfClosing then n else n.enter name)
  | .endTag name => ([s.line n.leave.depth (closeTag name)], n.leave)
  | .text content =>
    let t := writtenText (keepsBreaks n.openNames) content
    (if t.isEmpty then [] else [s.line n.depth t], n)

/-- The line of an element that stays on one line, if the tokens begin with one. -/
def inlineElement? (s : Style) (n : Nesting) (t : Token) (following : List Token) : Option Text :=
  match t with
  | .startTag name attributes false =>
    (inlineText? name (keepsBreaks (name :: n.openNames)) following).map fun text =>
      s.line n.depth (openTag name attributes false ++ text ++ closeTag name)
  | _ => none

/-- The lines of tokens from a nesting on, and the nesting after them. -/
def layout (s : Style) : Nesting → List Token → List Text × Nesting
  | n, [] => ([], n)
  | n, t :: ts =>
    match s.inlineElement? n t ts with
    | some l =>
      let (ls, n') := layout s n (ts.drop 2)
      (l :: ls, n')
    | none =>
      let (ls, n') := s.token n t
      let (ls', n'') := layout s n' ts
      (ls ++ ls', n'')
termination_by _ ts => ts.length

def render (s : Style) (ts : List Token) : Text := Text.join ['\n'] (s.layout {} ts).1

def format (s : Style) (markup : Text) : Text := s.render (tokens markup)

end Style
end CodeReference.Markup
