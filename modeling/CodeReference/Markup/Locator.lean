import CodeReference.Markup.Token

/-!
The opening tag before a place in markup. Tags are not balanced: the nearest opening tag counts,
whether or not it is closed again before the place.
-/
namespace CodeReference.Markup

/-- The name of the opening tag at the front of a text. Blanks may stand before the name. -/
def openingTagName? (t : Text) : Option Text := do
  let r ← Text.dropPrefix? ['<'] t
  let (name, _) ← tagName? (r.dropWhile Text.isAsciiBlank)
  return name

def tagAt? (snippetLength : Int) (t : Text) (offset : Nat) : Option Text :=
  if t[offset]? = some '<' then
    openingTagName? (Text.slice t offset (offset + snippetLength))
  else none

/-- The name of the last opening tag that starts at `offset` or before it. -/
def lastTag? (snippetLength : Int) (t : Text) : (offset : Nat) → Option Text
  | 0 => tagAt? snippetLength t 0
  | offset + 1 =>
    match tagAt? snippetLength t (offset + 1) with
    | some name => some name
    | none => lastTag? snippetLength t offset

/-- The name of the opening tag nearest to an offset, looking back. -/
def enclosingTag? (snippetLength : Int) (t : Text) (offset : Int) : Option Text :=
  if offset ≤ 0 then none else lastTag? snippetLength t (min offset.toNat t.length)

end CodeReference.Markup
