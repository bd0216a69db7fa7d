import CodeReference.Outline.Header

/-!
Selections that are names themselves: a chain of names with dots, the header of a class, or one
name. Line continuations and blanks around dots do not matter.
-/
namespace CodeReference.Outline

/-- Removes backslashes that continue a line, with all blanks that follow them. Blanks are removed
while `joining`. -/
def joinContinued : (joining : Bool) → Text → Text
  | _, [] => []
  | joining, c :: t =>
    if joining && Text.isBlank c then joinContinued true t
    else if c == '\\' && (t.takeWhile Text.isBlank).contains '\n' then joinContinued true t
    else c :: joinContinued false t

/-- Removes the blanks around dots. -/
def closeDots : (afterDot : Bool) → Text → Text
  | _, [] => []
  | afterDot, c :: t =>
    if Text.isBlank c then
      if afterDot || Text.startsWith (t.dropWhile Text.isBlank) ['.'] then closeDots afterDot t
      else c :: closeDots false t
    else c :: closeDots (c == '.') t

/-- A selection without continuations, blanks around dots, and blanks at its ends. -/
def normalize (t : Text) : Text := Text.trim (closeDots false (joinContinued false t))

/-- Whether a text is one or more names with single dots between them. -/
def isNameChain : (startsName : Bool) → Text → Bool
  | startsName, [] => !startsName
  | true, c :: t => isNameStart c && isNameChain false t
  | false, c :: t => if c = '.' then isNameChain true t else isNameChar c && isNameChain false t

def selectedName? (selection : Text) : Option Text :=
  let trimmed := Text.trim selection
  if trimmed.isEmpty then none
  else
    let t := normalize trimmed
    if isNameChain true t then some t else className? t

end CodeReference.Outline
