import CodeReference.Selection

/-!
Reference entries: a path, the lines it points to and perhaps a label. A missing label and an empty
one are the same when entries are written or compared.
-/
namespace CodeReference

structure Entry where
  path : Text
  lines : Text
  label : Option Text
deriving Repr, DecidableEq

namespace Entry

def labelText (e : Entry) : Text := e.label.getD []

/-- One line of output: `path:lines`, and the label after a space. -/
def render (e : Entry) : Text :=
  e.path ++ [':'] ++ e.lines ++ (if e.labelText.isEmpty then [] else ' ' :: e.labelText)

/-- Whether two entries point to the same place under the same label. -/
def same (e f : Entry) : Bool :=
  e.path == f.path && e.lines == f.lines && e.labelText == f.labelText

/-- Adds an entry at the end, unless the same one is there already. -/
def addUnique (es : List Entry) (e : Entry) : List Entry :=
  if es.any (same · e) then es else es ++ [e]

def firstOccurrences {α : Type} [BEq α] (xs : List α) : List α :=
  xs.foldl (fun seen x => if seen.contains x then seen else seen ++ [x]) []

/-- The entries as lines of text, each line once. -/
def format (es : List Entry) : Text := Text.join ['\n'] (firstOccurrences (es.map render))

def lineReference (path : Text) (s : Selection) : Text :=
  let (first, last) := s.lineRange
  path ++ [':'] ++ lineText first last

end Entry
end CodeReference
