import CodeReference.Grammar.Lexeme

/-!
Where a line break ends a statement that has no semicolon. The decision looks at the text after the
last token: at the end of the text and before a closing brace the statement ends; a line break ends
it unless what follows the blanks and comments after the break can only continue an expression.
-/
namespace CodeReference.Grammar

/-- The two families of rules: plain scripts, and scripts with type annotations. -/
inductive Dialect where
  | script | typed | typedElements
deriving Repr, DecidableEq

namespace Dialect

def hasTypes : Dialect → Bool
  | script => false
  | _ => true

def hasElements : Dialect → Bool
  | typed => false
  | _ => true

end Dialect

def skipComments (t : Text) : Text :=
  let u := t.dropWhile isSpace
  match _h : Lexeme.comment u with
  | some n => skipComments (u.drop n)
  | none => u
termination_by t.length
decreasing_by
  obtain ⟨hpos, hne⟩ := Lexeme.comment_pos _h
  have hlen := List.length_pos_iff.2 hne
  have hle : u.length ≤ t.length := (List.dropWhile_suffix isSpace).length_le
  simp only [u, List.length_drop] at hlen hle ⊢
  omega

def startsRelation (t : Text) : Bool :=
  (Lexeme.word "in".toList t).isSome || (Lexeme.word "instanceof".toList t).isSome

/-- Whether what stands after a line break begins something new. `inExpression` tells that the
token before the break ends an expression and not a type. -/
def beginsAnew (d : Dialect) (inExpression signature : Bool) (t : Text) : Bool :=
  match t with
  | [] => true
  | '.' :: c :: _ => isDigit c && !d.hasTypes
  | '+' :: c :: _ => c == '+'
  | '-' :: c :: _ => c == '-'
  | '!' :: c :: _ => c != '='
  | '\x7b' :: _ => !(signature && d.hasTypes)
  | c :: _ =>
    if c == '(' || c == '[' then d.hasTypes && !inExpression
    else !("\x60,.:;*%><=?^|&/+-".toList.contains c) && !startsRelation t

/-- The text without the blanks in front that are no line breaks. -/
def skipInLine (t : Text) : Text :=
  t.dropWhile fun c => isSpace c && c != '\n' && c != '\u2028' && c != '\u2029'

def atBreak (t : Text) : Bool :=
  match t with
  | c :: _ => c == '\n' || c == '\u2028' || c == '\u2029'
  | [] => false

def breakEnds (d : Dialect) (inExpression signature : Bool) (t : Text) : Bool :=
  atBreak t && beginsAnew d inExpression signature (skipComments (t.drop 1))

/-- Whether the text before the next token ends a statement here. In a typed dialect a comment on
the same line never does; in a script it does if a closing brace follows the comments. -/
def endsHere (d : Dialect) (inExpression signature : Bool) (t : Text) : Bool :=
  let u := skipInLine t
  match u with
  | [] => true
  | '\x7d' :: r =>
    !(d.hasTypes && !inExpression && Text.startsWith (r.dropWhile isSpace) [':'])
  | '/' :: _ =>
    match d.hasTypes, Lexeme.comment u with
    | true, _ => false
    | false, none => false
    | false, some n =>
      if u.startsWith ['/', '*'] then
        let v := skipInLine (u.drop n)
        v.isEmpty || v.startsWith ['\x7d'] || breakEnds d inExpression signature v
      else
        let v := skipComments u
        v.startsWith ['\x7d'] || !inExpression && !v.startsWith [','] && !v.startsWith ['=']
  | _ => breakEnds d inExpression signature u

end CodeReference.Grammar
