import CodeReference.Text.Blank

/-!
Header lines of classes and functions, and names. Names are ASCII letters, digits and underscores,
and a digit does not come first.
-/
namespace CodeReference.Outline

def isNameStart (c : Char) : Bool := c.isAlpha || c == '_'

def isNameChar (c : Char) : Bool := c.isAlphanum || c == '_'

def name? (t : Text) : Option (Text × Text) :=
  match t with
  | c :: _ => if isNameStart c then some (t.takeWhile isNameChar, t.dropWhile isNameChar) else none
  | [] => none

def nameAfter? (keyword t : Text) : Option (Text × Text) :=
  match Text.dropPrefix? keyword t with
  | some (c :: r) => if Text.isAsciiBlank c then name? (r.dropWhile Text.isAsciiBlank) else none
  | _ => none

def className? (t : Text) : Option Text := (nameAfter? "class".toList t).map (·.1)

/-- The name of a function whose header a text begins with; a parenthesis must follow it. -/
def functionName? (t : Text) : Option Text :=
  match nameAfter? "def".toList t with
  | some (name, r) =>
    if Text.startsWith (r.dropWhile Text.isAsciiBlank) ['('] then some name else none
  | none => none

end CodeReference.Outline
