import CodeReference.Markup.Layout
import CodeReference.Selection

/-!
Laying out a part of a document: the selected text, or a range of lines.
-/
namespace CodeReference.Markup

structure Replacement where
  start : Nat
  stop : Nat
  text : Text
deriving Repr, DecidableEq

namespace Replacement

def apply (r : Replacement) (document : Text) : Text :=
  document.take r.start ++ r.text ++ document.drop r.stop

end Replacement

namespace Style

def replace (s : Style) (document : Text) (start stop : Nat) : Replacement :=
  ⟨start, stop, s.format ((document.take stop).drop start)⟩

/-- Lays out the selected part of a document, or all of it if nothing is selected. -/
def formatSelection (s : Style) (document : Text) (sel : Selection) :
    Except PlaceError Replacement := do
  if sel.isEmpty then return s.replace document 0 document.length
  let start ← document.offsetAt sel.start
  let stop ← document.offsetAt sel.stop
  return s.replace document start stop

end Style

inductive LinesError where
  | reversed
  | place (e : PlaceError)
deriving Repr, DecidableEq

/-- The offsets of lines `first?` to `last?`, counted from one. A range without an end reaches to
the last line, and one that ends behind the document ends with it. -/
def lineOffsets (document : Text) (first? last? : Option Nat) : Except LinesError (Nat × Nat) := do
  let first := first?.getD 1 - 1
  let last := last?.getD document.lineCount - 1
  if last < first then throw .reversed
  let last := min last (document.lineCount - 1)
  let start ← (document.offsetAt ⟨first, 0⟩).mapError .place
  let stop ← (document.offsetAt ⟨last, document.lineLength last⟩).mapError .place
  return (start, stop)

namespace Style

def formatLines (s : Style) (document : Text) (first? last? : Option Nat) :
    Except LinesError Replacement := do
  let (start, stop) ← lineOffsets document first? last?
  return s.replace document start stop

end Style
end CodeReference.Markup
