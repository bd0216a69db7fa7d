import CodeReference.Text.Blank

/-!
Tokens of markup, and the elements that are treated apart: void elements have no content, the
content of raw text elements is not markup, and some elements keep their blanks.
-/
namespace CodeReference.Markup

inductive Token where
  /-- An opening tag, its name in lower case and its attributes with single spaces. -/
  | startTag (name attributes : Text) (selfClosing : Bool)
  | endTag (name : Text)
  | text (content : Text)
  /-- A comment with its delimiters. -/
  | comment (content : Text)
  /-- A declaration with its delimiters. -/
  | doctype (content : Text)
  | rawText (name attributes content : Text)
deriving Repr, DecidableEq

def voidElements : List Text :=
  ["area", "base", "br", "col", "embed", "hr", "img", "input", "link", "meta", "param", "source",
    "track", "wbr"].map (·.toList)

def rawTextElements : List Text := ["style", "script"].map (·.toList)

def preservingElements : List Text := ["pre", "code", "textarea"].map (·.toList)

def isVoid (name : Text) : Bool := voidElements.contains name

def isRawText (name : Text) : Bool := rawTextElements.contains name

def isNameStart (c : Char) : Bool := c.isAlpha

def isNameChar (c : Char) : Bool := c.isAlphanum || c == '_' || c == ':' || c == '-'

def tagName? (t : Text) : Option (Text × Text) :=
  match t with
  | c :: _ => if isNameStart c then some (t.takeWhile isNameChar, t.dropWhile isNameChar) else none
  | [] => none

/-- Each run of blanks as one space. -/
def collapseBlanks : (inRun : Bool) → Text → Text
  | _, [] => []
  | inRun, c :: t =>
    if Text.isBlank c then
      if inRun then collapseBlanks true t else ' ' :: collapseBlanks true t
    else c :: collapseBlanks false t

/-- Attributes with single spaces between their parts and none at the ends. -/
def normalizeAttributes (t : Text) : Text := Text.trim (collapseBlanks false t)

end CodeReference.Markup
