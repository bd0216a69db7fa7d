import CodeReference.Text.Lines

/-!
Positions and selections in a document, and the span of text that a selection stands for. Lines,
characters and offsets count from zero.
-/
namespace CodeReference

structure Position where
  line : Nat
  character : Nat
deriving Repr, DecidableEq

namespace Position

def before (p q : Position) : Bool :=
  p.line < q.line || (p.line == q.line && p.character < q.character)

def notAfter (p q : Position) : Bool := p.before q || p == q

end Position

inductive PlaceError where
  | lineOutOfRange (line count : Nat)
  | negativeOffset
deriving Repr, DecidableEq

namespace PlaceError

def message : PlaceError → Text
  | lineOutOfRange line count =>
    "line ".toList ++ Text.ofInt (line + 1) ++ " is past the end of the document (".toList ++
      Text.ofInt count ++ " lines)".toList
  | negativeOffset => "offset must not be negative".toList

end PlaceError

namespace Text

/-- The offset of a position. Characters past the end of the line count as its end. -/
def offsetAt (t : Text) (p : Position) : Except PlaceError Nat :=
  if t.lineCount ≤ p.line then .error (.lineOutOfRange p.line t.lineCount)
  else .ok (t.lineStart p.line + min p.character (t.lineLength p.line))

/-- The position of an offset. Offsets past the end count as the end. -/
def positionAt (t : Text) (offset : Int) : Except PlaceError Position :=
  if offset < 0 then .error .negativeOffset
  else
    let o := min offset.toNat t.length
    .ok ⟨t.lineAt o, o - t.lineStart (t.lineAt o)⟩

end Text

/-- The two ends of a drag: where it began and where it is now. -/
structure Selection where
  anchor : Position
  active : Position
deriving Repr, DecidableEq

namespace Selection

def cursor (p : Position) : Selection := ⟨p, p⟩

def isEmpty (s : Selection) : Bool := s.anchor == s.active

def start (s : Selection) : Position := if s.anchor.notAfter s.active then s.anchor else s.active

def stop (s : Selection) : Position := if s.anchor.notAfter s.active then s.active else s.anchor

/-- The first and the last line selected. A line in which the selection ends before the first
character is not counted, unless it is the only one. -/
def lineRange (s : Selection) : Nat × Nat :=
  if s.isEmpty then (s.active.line, s.active.line)
  else
    let first := s.start.line
    let last := s.stop.line
    if s.stop.character = 0 ∧ first < last then (first, last - 1) else (first, last)

end Selection

inductive SpanError where
  | startAfterStop
  | startLineAfterStopLine
deriving Repr, DecidableEq

/-- Selected text: its offsets, its lines and its characters. -/
structure Span where
  start : Int
  stop : Int
  startLine : Int
  stopLine : Int
  text : Text
deriving Repr, DecidableEq

namespace SpanError

def message : SpanError → Text
  | startAfterStop => "selection start must not exceed selection end".toList
  | startLineAfterStopLine => "selection start_line must not exceed end_line".toList

end SpanError

namespace Span

def make (start stop startLine stopLine : Int) (text : Text) : Except SpanError Span :=
  if stop < start then .error .startAfterStop
  else if stopLine < startLine then .error .startLineAfterStopLine
  else .ok ⟨start, stop, startLine, stopLine, text⟩

/-- The place that stands for the whole span. -/
def focus (s : Span) : Int := s.start

end Span

inductive SelectionError where
  | place (e : PlaceError)
  | span (e : SpanError)
deriving Repr, DecidableEq

namespace SelectionError

def message : SelectionError → Text
  | place e => e.message
  | span e => e.message

end SelectionError

namespace Selection

def span (t : Text) (s : Selection) : Except SelectionError Span := do
  let anchor ← (t.offsetAt s.anchor).mapError .place
  let active ← (t.offsetAt s.active).mapError .place
  let start := min anchor active
  let stop := max anchor active
  let (first, last) := s.lineRange
  let text := if s.isEmpty then [] else (t.take stop).drop start
  (Span.make start stop first last text).mapError .span

end Selection

/-- Lines `first` to `last` as they are written in references, counted from one. -/
def lineText (first last : Int) : Text :=
  if first = last then Text.ofInt (first + 1)
  else Text.ofInt (first + 1) ++ ['-'] ++ Text.ofInt (last + 1)

namespace Span

def lineText (s : Span) : Text := CodeReference.lineText s.startLine s.stopLine

end Span

end CodeReference
