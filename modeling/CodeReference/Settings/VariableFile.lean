import CodeReference.Settings.Environment
import CodeReference.Text.Blank

/-!
Files of variables, one `NAME=value` to a line. Values may stand in quotes, and then span lines; a
name in braces after a dollar sign stands for the value of that variable. Lines that cannot be read
are passed over.
-/
namespace CodeReference.Settings.VariableFile

def isBreak (c : Char) : Bool := c == '\n' || c == '\r'

/-- A blank that does not end a line. -/
def isGap (c : Char) : Bool := Text.isBlank c && !isBreak c

def skipGap (t : Text) : Text := t.dropWhile isGap

def skipExport (t : Text) : Text :=
  match Text.dropPrefix? "export".toList t with
  | some (c :: r) => if isGap c then skipGap r else t
  | _ => t

def name? (t : Text) : Option (Text × Text) :=
  match t with
  | '\'' :: r =>
    match r.takeWhile (· != '\''), r.dropWhile (· != '\'') with
    | [], _ => none
    | name, _ :: r => some (name, r)
    | _, [] => none
  | _ =>
    let isNameChar := fun c => c != '=' && c != '#' && !Text.isBlank c
    match t.takeWhile isNameChar with
    | [] => none
    | name => some (name, t.dropWhile isNameChar)

/-- The text up to the first quote that no backslash precedes, and the rest. -/
def untilQuote? (quote : Char) : (escaped : Bool) → Text → Option (Text × Text)
  | _, [] => none
  | escaped, c :: t =>
    if c = quote ∧ !escaped then some ([], t)
    else (untilQuote? quote (c == '\\') t).map fun (s, r) => (c :: s, r)

def untilLastQuote? (quote : Char) (t : Text) : Option (Text × Text) :=
  match t.reverse.dropWhile (· != quote) with
  | [] => none
  | _ :: front => some (front.reverse, t.drop (front.length + 1))

/-- The contents of quotes after the opening one. Where each further quote follows a backslash, the
last one closes. -/
def quotedBody? (quote : Char) (t : Text) : Option (Text × Text) :=
  (untilQuote? quote false t).or (untilLastQuote? quote t)

def unescape (escapes : List (Char × Char)) : Text → Text
  | '\\' :: c :: t =>
    match escapes.lookup c with
    | some d => d :: unescape escapes t
    | none => '\\' :: unescape escapes (c :: t)
  | c :: t => c :: unescape escapes t
  | [] => []
termination_by t => t.length

def singleQuoteEscapes : List (Char × Char) := [('\\', '\\'), ('\'', '\'')]

def doubleQuoteEscapes : List (Char × Char) :=
  [('\\', '\\'), ('\'', '\''), ('"', '"'), ('a', '\x07'), ('b', '\x08'), ('f', '\x0c'), ('n', '\n'),
    ('r', '\r'), ('t', '\t'), ('v', '\x0b')]

/-- A value without quotes up to a comment, which starts after a blank. -/
def dropComment : Text → Text
  | [] => []
  | c :: t =>
    if Text.isBlank c && Text.startsWith (t.dropWhile Text.isBlank) ['#'] then []
    else c :: dropComment t

def value? (t : Text) : Option (Text × Text) :=
  match t with
  | '\'' :: r => (quotedBody? '\'' r).map fun (s, r) => (unescape singleQuoteEscapes s, r)
  | '"' :: r => (quotedBody? '"' r).map fun (s, r) => (unescape doubleQuoteEscapes s, r)
  | _ =>
    let line := t.takeWhile fun c => !isBreak c
    some (Text.trimEnd (dropComment line), t.dropWhile fun c => !isBreak c)

def skipComment (t : Text) : Text :=
  match skipGap t with
  | '#' :: r => r.dropWhile fun c => !isBreak c
  | _ => t

/-- What follows the end of a line, if nothing but a gap stands before it. -/
def endOfLine? (t : Text) : Option Text :=
  match skipGap t with
  | [] => some []
  | '\r' :: '\n' :: r => some r
  | c :: r => if isBreak c then some r else none

/-- How much of a statement could be read, and what it says: a variable, a comment or nothing. -/
structure Statement where
  assigned? : Option (Text × Option Text)
  rest : Text

def Statement.failed (t : Text) : Statement :=
  match t.dropWhile fun c => !isBreak c with
  | _ :: r => ⟨none, r⟩
  | [] => ⟨none, []⟩

def Statement.finish (v : Option (Text × Option Text)) (t : Text) : Statement :=
  let t := skipComment t
  match endOfLine? t with
  | some r => ⟨v, r⟩
  | none => Statement.failed t

/-- Reads the statement at the front of a text that does not begin with a blank. -/
def statement (t : Text) : Statement :=
  let t := skipExport t
  match t with
  | '#' :: _ => Statement.finish none t
  | _ =>
    match name? t with
    | none => Statement.failed t
    | some (name, r) =>
      match skipGap r with
      | '=' :: r =>
        let r := skipGap r
        match value? r with
        | some (v, r) => Statement.finish (some (name, some v)) r
        | none => Statement.failed r
      | r => Statement.finish (some (name, none)) r

/-- The variables of a file, before names in their values are replaced. `fuel` bounds the number of
statements. -/
def statements : (fuel : Nat) → Text → List (Text × Option Text)
  | 0, _ => []
  | fuel + 1, t =>
    match Text.trimStart t with
    | [] => []
    | u =>
      let s := statement u
      s.assigned?.toList ++ statements fuel s.rest

/-- The name and the default in braces at the front of a text, and what follows the braces. -/
def reference? (t : Text) : Option (Text × Text × Text) :=
  let isNameChar := fun c => c != '\x7d' && c != ':'
  let name := t.takeWhile isNameChar
  match t.dropWhile isNameChar with
  | '\x7d' :: r => some (name, [], r)
  | ':' :: '-' :: r =>
    match r.dropWhile (· != '\x7d') with
    | _ :: rest => some (name, r.takeWhile (· != '\x7d'), rest)
    | [] => none
  | _ => none

/-- Replaces names in braces after a dollar sign by values. A variable that is not known has the
default given with it, one without a value the empty text. -/
def expand (vs : Variables) : (fuel : Nat) → Text → Text
  | 0, t => t
  | fuel + 1, t =>
    match t with
    | '$' :: '\x7b' :: r =>
      match reference? r with
      | some (name, default, rest) =>
        (match vs.lookup name with
          | some v => v.getD []
          | none => default) ++ expand vs fuel rest
      | none => '$' :: expand vs fuel ('\x7b' :: r)
    | c :: r => c :: expand vs fuel r
    | [] => []

def unifyBreaks : Text → Text
  | '\r' :: '\n' :: t => '\n' :: unifyBreaks t
  | '\r' :: t => '\n' :: unifyBreaks t
  | c :: t => c :: unifyBreaks t
  | [] => []

/-- The variables of a file. Values may refer to variables of the environment and to those given
before in the file, which come first. -/
def read (environment : List (Text × Text)) (t : Text) : Variables :=
  let t := unifyBreaks t
  let known : Variables := environment.foldl (fun vs (name, v) => vs.set name (some v)) []
  (statements (t.length + 1) t).foldl (fun (vs : Variables) (name, v) =>
    let all := vs.foldl (fun ws (n, w) => Variables.set ws n w) known
    Variables.set vs name (v.map fun v => expand all (v.length + 1) v)) []

end CodeReference.Settings.VariableFile
