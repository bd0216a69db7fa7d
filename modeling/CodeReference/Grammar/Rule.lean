import CodeReference.Grammar.Terminator
import CodeReference.Syntax.Node

/-!
Grammar rules as data, and how a rule reads a text. Rules are parsing expressions: choices are
ordered and nothing is taken back once a rule has been read to its end. What is read leaves nodes
behind, and the comments between tokens become nodes of whatever is being read.
-/
namespace CodeReference.Grammar

open Syntax

/-- A parsing expression over the names `σ` of other rules. -/
inductive Rule (σ : Type) where
  /-- The empty text. -/
  | nothing
  /-- A lexeme after blanks and comments; it leaves no node. -/
  | token (l : Lexeme)
  /-- A lexeme right here; it leaves no node. -/
  | adjacent (l : Lexeme)
  /-- A lexeme after blanks and comments, as a node without children. -/
  | leaf (kind : String) (l : Lexeme)
  /-- A lexeme right here, as a node without children. -/
  | adjacentLeaf (kind : String) (l : Lexeme)
  | seq (a b : Rule σ)
  | choice (a b : Rule σ)
  /-- As often as it can be read, perhaps never. -/
  | many (a : Rule σ)
  /-- One node over all that is read. -/
  | node (kind : String) (a : Rule σ)
  /-- The nodes that are read fill a field of their parent. -/
  | field (name : String) (a : Rule σ)
  /-- What is read stands apart from the nodes before it, for `extend` to build on. -/
  | apart (a : Rule σ)
  /-- One node over the single node read before, which fills `role`, and all that is read now. Only
  nodes of the kinds `bases` are extended, or any if the list is empty. -/
  | extend (kind : String) (bases : List String) (role : Option String) (a : Rule σ)
  | named (s : σ)
  /-- The rule can be read from here; nothing is taken. -/
  | ahead (a : Rule σ)
  /-- The rule cannot be read from here; nothing is taken. -/
  | absent (a : Rule σ)
  /-- Inside brackets line breaks end nothing; inside braces they do. -/
  | within (brackets : Bool) (a : Rule σ)
  | only (p : Dialect → Bool) (a : Rule σ)
  /-- A statement ends here without a semicolon. -/
  | lineEnd (inExpression signature : Bool)
  /-- No statement ends here. -/
  | goesOn (inExpression : Bool)

structure Reading where
  rest : Text
  /-- The byte offset of `rest`. -/
  pos : Nat
  /-- The byte offset after the last token or comment that was taken. -/
  stop : Nat
  /-- The nodes read so far, the last one first. -/
  nodes : List Node
  inBrackets : Bool

namespace Reading

def start (t : Text) : Reading :=
  { rest := t, pos := 0, stop := 0, nodes := [], inBrackets := false }

def skipSpace (s : Reading) : Reading :=
  let blanks := s.rest.takeWhile isSpace
  { s with rest := s.rest.drop blanks.length, pos := s.pos + Text.byteWidth blanks }

def advance (s : Reading) (n : Nat) : Reading :=
  let stop := s.pos + Text.byteWidth (s.rest.take n)
  { s with rest := s.rest.drop n, pos := stop, stop := stop }

def leaf (s : Reading) (kind : String) (n : Nat) : Reading :=
  let t := s.advance n
  { t with nodes := ⟨kind, s.pos, t.stop, none, []⟩ :: s.nodes }

def comment? (s : Reading) : Option Reading :=
  let s := s.skipSpace
  (Lexeme.comment s.rest).map (s.leaf "comment")

theorem length_skipSpace_le (s : Reading) : s.skipSpace.rest.length ≤ s.rest.length := by
  simp [skipSpace]

theorem length_comment?_lt {s t : Reading} (h : s.comment? = some t) :
    t.rest.length < s.rest.length := by
  simp only [comment?, Option.map_eq_some_iff] at h
  obtain ⟨n, hn, rfl⟩ := h
  obtain ⟨hpos, hne⟩ := Lexeme.comment_pos hn
  have hlen := List.length_pos_iff.2 hne
  have := s.length_skipSpace_le
  simp only [leaf, advance, List.length_drop]
  omega

/-- Goes over blanks and comments; the comments become nodes. -/
def skip (s : Reading) : Reading :=
  match _h : s.comment? with
  | some t => skip t
  | none => s.skipSpace
termination_by s.rest.length
decreasing_by exact length_comment?_lt _h

/-- Ends a statement without a semicolon. Comments before the place where it ends belong to it. -/
def lineEnd (d : Dialect) (inExpression signature : Bool) (s : Reading) : Option Reading :=
  if endsHere d inExpression signature s.rest then some s
  else
    match _h : s.comment? with
    | some t => lineEnd d inExpression signature t
    | none => none
termination_by s.rest.length
decreasing_by exact length_comment?_lt _h

end Reading

/-- The node fills a field, unless it is a comment or fills one already. -/
def fill (name : String) (n : Node) : Node :=
  if n.kind == "comment" || n.field.isSome then n else { n with field := some name }

namespace Rule

variable {σ : Type}

/-- Reads a rule. `fuel` bounds how deep rules are read inside rules. -/
def read (d : Dialect) (rules : σ → Rule σ) : (fuel : Nat) → Rule σ → Reading → Option Reading
  | 0, _, _ => none
  | fuel + 1, r, s =>
    match r with
    | nothing => some s
    | token l => let s := s.skip; (l s.rest).map s.advance
    | adjacent l => (l s.rest).map s.advance
    | leaf kind l => let s := s.skip; (l s.rest).map (s.leaf kind)
    | adjacentLeaf kind l => (l s.rest).map (s.leaf kind)
    | seq a b =>
      match read d rules fuel a s with
      | some t => read d rules fuel b t
      | none => none
    | choice a b =>
      match read d rules fuel a s with
      | some t => some t
      | none => read d rules fuel b s
    | many a =>
      match read d rules fuel a s with
      | some t => if s.pos < t.pos then read d rules fuel (many a) t else some s
      | none => some s
    | node kind a =>
      let s := s.skip
      (read d rules fuel a { s with nodes := [] }).map fun t =>
        { t with nodes := ⟨kind, s.pos, t.stop, none, t.nodes.reverse⟩ :: s.nodes }
    | field name a =>
      (read d rules fuel a { s with nodes := [] }).map fun t =>
        { t with nodes := t.nodes.map (fill name) ++ s.nodes }
    | apart a =>
      let s := s.skip
      (read d rules fuel a { s with nodes := [] }).map fun t =>
        { t with nodes := t.nodes ++ s.nodes }
    | extend kind bases role a =>
      match s.nodes with
      | [base] =>
        if bases.isEmpty || bases.contains base.kind then
          let child := match role with
            | some name => fill name base
            | none => base
          (read d rules fuel a { s with nodes := [child] }).map fun t =>
            { t with nodes := [⟨kind, base.first, t.stop, none, t.nodes.reverse⟩] }
        else none
      | _ => none
    | named n => read d rules fuel (rules n) s
    | ahead a => (read d rules fuel a s).map fun _ => s
    | absent a =>
      match read d rules fuel a s with
      | some _ => none
      | none => some s
    | within brackets a =>
      (read d rules fuel a { s with inBrackets := brackets }).map fun t =>
        { t with inBrackets := s.inBrackets }
    | only p a => if p d then read d rules fuel a s else none
    | lineEnd inExpression signature => s.lineEnd d inExpression signature
    | goesOn inExpression =>
      if s.inBrackets || !endsHere d inExpression false s.rest then some s else none

/-! Shorthands in which the rules of a language are written. -/

def all : List (Rule σ) → Rule σ
  | [] => nothing
  | [a] => a
  | a :: as => seq a (all as)

/-- The first of several rules that can be read; of none, none. -/
def any : List (Rule σ) → Rule σ
  | [] => absent nothing
  | [a] => a
  | a :: as => choice a (any as)

def opt (a : Rule σ) : Rule σ := choice a nothing

/-- A keyword, or punctuation that is not part of a longer operator. -/
def op (s : String) : Rule σ :=
  let t := s.toList
  if t.all isNameChar then token (Lexeme.word t) else token (Lexeme.operator t)

def punct (s : String) : Rule σ := token (Lexeme.exactly s.toList)

def wordLeaf (kind : String) (s : String) : Rule σ := leaf kind (Lexeme.word s.toList)

def commaList1 (a : Rule σ) : Rule σ := seq a (many (seq (punct ",") a))

def commaList (a : Rule σ) : Rule σ := opt (commaList1 a)

/-- Items with commas between them, any of which may be left out. -/
def sparseList (a : Rule σ) : Rule σ := seq (opt a) (many (seq (punct ",") (opt a)))

def parens (a : Rule σ) : Rule σ := within true (all [punct "(", a, punct ")"])

def squares (a : Rule σ) : Rule σ := within true (all [punct "[", a, punct "]"])

/-- Braces around items that line breaks do not end. -/
def curlies (a : Rule σ) : Rule σ := within true (all [punct "\x7b", a, punct "\x7d"])

/-- Braces around statements or members. -/
def block (a : Rule σ) : Rule σ := within false (all [punct "\x7b", a, punct "\x7d"])

def grow (base : Rule σ) (steps : List (Rule σ)) : Rule σ := apart (seq base (many (any steps)))

def typed (a : Rule σ) : Rule σ := only Dialect.hasTypes a

def untyped (a : Rule σ) : Rule σ := only (fun d => !d.hasTypes) a

/-- A semicolon, or the end of a line after an expression. -/
def terminator : Rule σ := choice (punct ";") (lineEnd true false)

/-- A semicolon, or the end of a line after a type or a keyword. -/
def looseTerminator : Rule σ := choice (punct ";") (lineEnd false false)

end Rule
end CodeReference.Grammar
