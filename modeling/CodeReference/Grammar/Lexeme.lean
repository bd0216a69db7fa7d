import CodeReference.Text.Blank

/-!
Lexemes of the script languages. A lexeme looks at the characters ahead and tells how many of them
it takes, if it is there at all. Comments are lexemes too; blanks between lexemes belong to none.
-/
namespace CodeReference.Grammar

/-- How many characters a lexeme takes from the front of a text. -/
abbrev Lexeme := Text → Option Nat

/-- Blanks between tokens: the usual ones and some that have no width. -/
def isSpace (c : Char) : Bool :=
  Text.isBlank c || c == '\uFEFF' || c == '\u2060' || c == '\u200B'

def isDigit (c : Char) : Bool := '0' ≤ c && c ≤ '9'

def isHexDigit (c : Char) : Bool :=
  isDigit c || ('a' ≤ c && c ≤ 'f') || ('A' ≤ c && c ≤ 'F')

/-- Marks that end a name: all of ASCII's but `$` and `_`. -/
def isMark (c : Char) : Bool := ":;\x60\"'@#.,|^&<=>+-*/\\%?!~()[]\x7b\x7d".toList.contains c

def isNameChar (c : Char) : Bool := !(c.toNat < 0x20 || isSpace c || isMark c)

def isNameStart (c : Char) : Bool := isNameChar c && !isDigit c

namespace Lexeme

def exactly (p : Text) : Lexeme := fun t => if t.startsWith p then some p.length else none

def run (p : Char → Bool) : Lexeme := fun t =>
  match (t.takeWhile p).length with
  | 0 => none
  | n => some n

/-- The characters of a name; a backslash brings a Unicode escape in. -/
def nameLength : Text → Nat
  | '\\' :: 'u' :: '\x7b' :: r =>
    let digits := (r.takeWhile isHexDigit).length
    if Text.startsWith (r.drop digits) ['\x7d'] && digits > 0 then digits + 4 else 0
  | '\\' :: 'u' :: _ :: _ :: _ :: _ :: r => 6 + nameLength r
  | c :: r => if isNameChar c then nameLength r + 1 else 0
  | [] => 0

def name : Lexeme := fun t =>
  match t with
  | c :: _ =>
    if isNameStart c || c == '\\' then
      match nameLength t with
      | 0 => none
      | n => some n
    else none
  | [] => none

def reserved : List Text :=
  ["break", "case", "catch", "class", "const", "continue", "debugger", "default", "delete", "do",
    "else", "export", "extends", "finally", "for", "function", "if", "import", "in", "instanceof",
    "new", "return", "super", "switch", "this", "throw", "try", "typeof", "var", "void", "while",
    "with", "null", "true", "false", "enum"].map (·.toList)

/-- A name that is not a reserved word. -/
def identifier : Lexeme := fun t =>
  (name t).filter fun n => !reserved.contains (t.take n)

def word (w : Text) : Lexeme := fun t =>
  (name t).filter fun n => t.take n == w

def privateName : Lexeme
  | '#' :: t => (name t).map (· + 1)
  | _ => none

/-- Operators of two or more characters, longest first. -/
def longOperators : List Text :=
  [">>>=", "...", "===", "!==", "**=", "<<=", ">>=", ">>>", "&&=", "||=", "??=", "=>", "==", "!=",
    "<=", ">=", "&&", "||", "??", "?.", "++", "--", "+=", "-=", "*=", "/=", "%=", "&=", "|=", "^=",
    "<<", ">>", "**"].map (·.toList)

def operatorAt (t : Text) : Text :=
  (longOperators.find? fun p => t.startsWith p).getD (t.take 1)

/-- This operator, and no longer one. -/
def operator (p : Text) : Lexeme := fun t =>
  if operatorAt t == p then some p.length else none

/-- `?.` unless a digit makes it a conditional with a decimal. -/
def optionalChain : Lexeme
  | '?' :: '.' :: c :: _ => if isDigit c then none else some 2
  | ['?', '.'] => some 2
  | _ => none

def conditionalMark : Lexeme
  | '?' :: '?' :: _ => none
  | '?' :: '.' :: c :: _ => if isDigit c then some 1 else none
  | '?' :: _ => some 1
  | _ => none

def digitsLength (p : Char → Bool) (t : Text) : Nat := (t.takeWhile fun c => p c || c == '_').length

/-- The length of an exponent part, zero if there is none. -/
def exponentLength : Text → Nat
  | e :: r =>
    if e == 'e' || e == 'E' then
      let sign := match r with
        | '+' :: _ | '-' :: _ => 1
        | _ => 0
      match digitsLength isDigit (r.drop sign) with
      | 0 => 0
      | n => 1 + sign + n
    else 0
  | [] => 0

/-- One for the mark of a big integer. -/
def bigMark : Text → Nat
  | 'n' :: _ => 1
  | _ => 0

def radixNumber (p : Char → Bool) (r : Text) : Option Nat :=
  match digitsLength p r with
  | 0 => none
  | n => some (2 + n + bigMark (r.drop n))

def number : Lexeme := fun t =>
  match t with
  | '0' :: 'x' :: r | '0' :: 'X' :: r => radixNumber isHexDigit r
  | '0' :: 'b' :: r | '0' :: 'B' :: r | '0' :: 'o' :: r | '0' :: 'O' :: r => radixNumber isDigit r
  | '.' :: r =>
    match digitsLength isDigit r with
    | 0 => none
    | n => some (1 + n + exponentLength (r.drop n))
  | c :: _ =>
    if isDigit c then
      let n := digitsLength isDigit t
      let r := t.drop n
      match r with
      | '.' :: r' =>
        let m := digitsLength isDigit r'
        some (n + 1 + m + exponentLength (r'.drop m))
      | _ => some (n + exponentLength r + bigMark r)
    else none
  | [] => none

def comment : Lexeme
  | '/' :: '/' :: r =>
    some (2 + (r.takeWhile fun c => c != '\n' && c != '\r' && c != '\u2028' && c != '\u2029').length)
  | '/' :: '*' :: r => (Text.through? ['*', '/'] r).map fun (body, _) => 2 + body.length
  | _ => none

theorem comment_pos {t : Text} {n : Nat} (h : comment t = some n) : 0 < n ∧ t ≠ [] := by
  unfold comment at h
  split at h
  · simp only [Option.some.injEq] at h
    exact ⟨by omega, by simp⟩
  · simp only [Option.map_eq_some_iff] at h
    obtain ⟨_, _, h⟩ := h
    exact ⟨by omega, by simp⟩
  · simp at h

/-- An escape inside a string or template, its backslash included. -/
def escape : Lexeme
  | '\\' :: 'x' :: _ :: _ :: _ => some 4
  | '\\' :: 'u' :: '\x7b' :: r => some (4 + (r.takeWhile isHexDigit).length)
  | '\\' :: 'u' :: _ :: _ :: _ :: _ :: _ => some 6
  | '\\' :: '\r' :: '\n' :: _ => some 3
  | '\\' :: c :: r =>
    if '0' ≤ c && c ≤ '7' then
      some (2 + ((r.take 2).takeWhile fun d => '0' ≤ d && d ≤ '7').length)
    else some 2
  | _ => none

def stringPart (quote : Char) : Lexeme :=
  run fun c => c != quote && c != '\\' && c != '\n' && c != '\r'

def templateLength : Text → Nat
  | '\x60' :: _ => 0
  | '\\' :: _ => 0
  | '$' :: '\x7b' :: _ => 0
  | _ :: r => templateLength r + 1
  | [] => 0

def templatePart : Lexeme := fun t =>
  match templateLength t with
  | 0 => none
  | n => some n

/-- The pattern of a regular expression, up to the slash that closes it outside classes. -/
def patternLength (inClass : Bool) : Text → Nat
  | '\\' :: _ :: r => patternLength inClass r + 2
  | '[' :: r => patternLength true r + 1
  | ']' :: r => patternLength false r + 1
  | '/' :: r => if inClass then patternLength inClass r + 1 else 0
  | '\n' :: _ => 0
  | _ :: r => patternLength inClass r + 1
  | [] => 0

def pattern : Lexeme := fun t =>
  match patternLength false t with
  | 0 => none
  | n => some n

def patternFlags : Lexeme := run fun c => 'a' ≤ c && c ≤ 'z'

/-- A name in an element, which may hold hyphens. -/
def elementName : Lexeme := fun t =>
  match t with
  | c :: _ => if isNameStart c then run (fun d => isNameChar d || d == '-') t else none
  | [] => none

def characterReference : Lexeme
  | '&' :: '#' :: r =>
    let hex := match r with
      | 'x' :: _ | 'X' :: _ => 1
      | _ => 0
    let digits := ((r.drop hex).takeWhile (if hex = 1 then isHexDigit else isDigit)).length
    if digits > 0 && Text.startsWith (r.drop (hex + digits)) [';'] then some (3 + hex + digits) else none
  | '&' :: r =>
    let letters := (r.takeWhile Char.isAlpha).length
    if 0 < letters && letters ≤ 30 && Text.startsWith (r.drop letters) [';'] then some (2 + letters)
    else none
  | _ => none

/-- Whether text between elements is more than line breaks and the blanks that follow them. -/
def hasContent (atBreak : Bool) : Text → Bool
  | [] => false
  | '\n' :: r => hasContent true r
  | c :: r => !(atBreak && isSpace c) || hasContent atBreak r

def elementText : Lexeme := fun t =>
  let body := t.takeWhile fun c => !("<>\x7b\x7d&".toList.contains c)
  if hasContent false body then some body.length else none

def attributeLength (quote : Char) : Text → Nat
  | '&' :: c :: r =>
    if c == '#' || c.isAlpha then 0
    else if c == quote then 1
    else attributeLength quote (c :: r) + 1
  | c :: r => if c == quote then 0 else attributeLength quote r + 1
  | [] => 0

def attributePart (quote : Char) : Lexeme := fun t =>
  match attributeLength quote t with
  | 0 => none
  | n => some n

/-- The first line of a script that names its interpreter. -/
def interpreterLine : Lexeme
  | '#' :: '!' :: r => some (2 + (r.takeWhile fun c => c != '\n').length)
  | _ => none

end Lexeme
end CodeReference.Grammar
