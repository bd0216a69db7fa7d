import CodeReference.Data.Json

/-!
Reading TOML 1.0. Tables and keys may be defined once only, and what is written inline cannot be
extended later; which keys are closed in this way is kept in marks beside the data.
-/
namespace CodeReference.Data.Toml

/-! ## Lexical parts -/

def isBlank (c : Char) : Bool := c == ' ' || c == '\t'

def skip (t : Text) : Text := t.dropWhile isBlank

def isControl (c : Char) : Bool := c.toNat < 0x20 || c.toNat == 0x7F

/-- A control character that no comment and no string may hold. -/
def isIllegal (c : Char) : Bool := isControl c && c != '\t'

def isDigit (c : Char) : Bool := '0' ≤ c && c ≤ '9'

def isBareKeyChar (c : Char) : Bool := c.isAlphanum || c == '-' || c == '_'

def skipComment? (t : Text) : Option Text :=
  match t with
  | '#' :: r =>
    let body := r.takeWhile (· != '\n')
    if body.any isIllegal then none else some (r.drop body.length)
  | _ => some t

/-- What follows blanks, line breaks and comments. -/
def skipLines? : (fuel : Nat) → Text → Option Text
  | 0, t => some t
  | fuel + 1, t =>
    let u := t.dropWhile fun c => isBlank c || c == '\n'
    match u with
    | '#' :: _ => (skipComment? u).bind (skipLines? fuel)
    | _ => some u

def hexChar? (count : Nat) (t : Text) : Option (Char × Text) := do
  let digits := t.take count
  if digits.length ≠ count then none
  else
    let n ← Json.hexNumber? digits
    if n < 0xD800 ∨ (0xDFFF < n ∧ n < 0x110000) then return (Char.ofNat n, t.drop count) else none

def simpleEscape? (c : Char) : Option Char :=
  [('b', '\x08'), ('t', '\t'), ('n', '\n'), ('f', '\x0c'), ('r', '\r'), ('"', '"'),
    ('\\', '\\')].lookup c

/-- What follows a backslash at the end of a line: the blanks and line breaks up to the next other
character are left out. -/
def joinLine? (t : Text) : Option Text :=
  match skip t with
  | [] => some []
  | '\n' :: r => some (r.dropWhile fun c => isBlank c || c == '\n')
  | _ => none

/-- The characters of a basic string after its opening quotes, and what follows its closing ones. -/
def basicBody : (fuel : Nat) → (multiline : Bool) → Text → Option (Text × Text)
  | 0, _, _ => none
  | fuel + 1, multiline, t =>
    let next (c : Char) (r : Text) : Option (Text × Text) :=
      (basicBody fuel multiline r).map fun (s, r) => (c :: s, r)
    match t with
    | [] => none
    | '"' :: r =>
      if !multiline then some ([], r)
      else
        match r with
        | '"' :: '"' :: r' => some ([], r')
        | _ => next '"' r
    | '\\' :: 'u' :: r => (hexChar? 4 r).bind fun (c, r) => next c r
    | '\\' :: 'U' :: r => (hexChar? 8 r).bind fun (c, r) => next c r
    | '\\' :: e :: r =>
      if multiline && (isBlank e || e == '\n') then
        (joinLine? (e :: r)).bind (basicBody fuel multiline)
      else (simpleEscape? e).bind fun c => next c r
    | c :: r => if isIllegal c && !(multiline && c == '\n') then none else next c r

/-- Up to two quotes more at the end of a string with three of them. -/
def extraQuotes (quote : Char) (s r : Text) : Text × Text :=
  let extra := (r.take 2).takeWhile (· == quote)
  (s ++ extra, r.drop extra.length)

/-- A literal string on one line, after its quote. -/
def literal? (t : Text) : Option (Text × Text) :=
  let body := t.takeWhile (· != '\'')
  match t.drop body.length with
  | _ :: r => if body.any isIllegal then none else some (body, r)
  | [] => none

def dropBreak (t : Text) : Text :=
  match t with
  | '\n' :: r => r
  | _ => t

def string? (t : Text) : Option (Text × Text) :=
  match t with
  | '"' :: '"' :: '"' :: r =>
    let r := dropBreak r
    (basicBody r.length.succ true r).map fun (s, r) => extraQuotes '"' s r
  | '\'' :: '\'' :: '\'' :: r =>
    (Text.through? ['\'', '\'', '\''] (dropBreak r)).bind fun (s, r) =>
      let body := s.take (s.length - 3)
      if body.any fun c => isIllegal c && c != '\n' then none else some (extraQuotes '\'' body r)
  | '"' :: r => basicBody r.length.succ false r
  | '\'' :: r => literal? r
  | _ => none

def keyPart? (t : Text) : Option (Text × Text) :=
  match t with
  | '\'' :: r => literal? r
  | '"' :: r => basicBody r.length.succ false r
  | _ =>
    match t.takeWhile isBareKeyChar with
    | [] => none
    | k => some (k, t.drop k.length)

/-- A dotted key, and what follows it and the blanks behind it. -/
def key? : (fuel : Nat) → Text → Option (List Text × Text)
  | 0, _ => none
  | fuel + 1, t => do
    let (k, r) ← keyPart? t
    match skip r with
    | '.' :: r =>
      let (ks, r) ← key? fuel (skip r)
      return (k :: ks, r)
    | r => return ([k], r)

/-! ## Numbers and moments -/

/-- Digits with single underscores between them. -/
def digits (p : Char → Bool) (t : Text) : Text × Text :=
  let rec go : Text → Text × Text
    | [] => ([], [])
    | '_' :: c :: r =>
      if p c then
        let (ds, r') := go r
        (c :: ds, r')
      else ([], '_' :: c :: r)
    | c :: r =>
      if p c then
        let (ds, r') := go r
        (c :: ds, r')
      else ([], c :: r)
  match t with
  | c :: r => if p c then let (ds, r') := go r; (c :: ds, r') else ([], t)
  | [] => ([], t)

def radixNumber? (p : Char → Bool) (radix : Nat) (t : Text) : Option (Value × Text) :=
  match digits p t with
  | ([], _) => none
  | (ds, r) =>
    let n := ds.foldl (fun n c => n * radix + (Json.hexValue? c).getD 0) 0
    some (.int n, r)

def fraction (t : Text) : Text × Text :=
  match t with
  | '.' :: r =>
    match digits isDigit r with
    | ([], _) => ([], t)
    | found => found
  | _ => ([], t)

def exponent? (t : Text) : Option (Int × Text) :=
  match t with
  | e :: r =>
    if e == 'e' || e == 'E' then
      let (negative, r) := match r with
        | '-' :: r => (true, r)
        | '+' :: r => (false, r)
        | _ => (false, r)
      match digits isDigit r with
      | ([], _) => none
      | (ds, r) =>
        let n : Int := Json.natOf ds
        some (if negative then -n else n, r)
    else none
  | [] => none

def decimal? (t : Text) : Option (Value × Text) :=
  let (negative, r) := match t with
    | '-' :: r => (true, r)
    | '+' :: r => (false, r)
    | _ => (false, t)
  let whole? := match r with
    | '0' :: r => some (['0'], r)
    | _ =>
      match digits isDigit r with
      | ([], _) => none
      | found => some found
  whole?.map fun (whole, r) =>
    let (frac, r) := fraction r
    match exponent? r with
    | some (e, r) =>
      (.real (Json.decimal negative (Json.natOf (whole ++ frac)) (e - frac.length)), r)
    | none =>
      if frac.isEmpty then
        let n : Int := Json.natOf whole
        (.int (if negative then -n else n), r)
      else (.real (Json.decimal negative (Json.natOf (whole ++ frac)) (-frac.length)), r)

def number? (t : Text) : Option (Value × Text) :=
  let special := match t with
    | '0' :: 'x' :: r => radixNumber? (fun c => (Json.hexValue? c).isSome) 16 r
    | '0' :: 'o' :: r => radixNumber? (fun c => '0' ≤ c && c ≤ '7') 8 r
    | '0' :: 'b' :: r => radixNumber? (fun c => c == '0' || c == '1') 2 r
    | _ => none
  match special with
  | some found => some found
  | none => decimal? t

def float? (t : Text) : Option (Value × Text) :=
  let words : List (String × Float) :=
    [("inf", 1.0 / 0.0), ("nan", 0.0 / 0.0), ("+inf", 1.0 / 0.0), ("-inf", -1.0 / 0.0),
      ("+nan", 0.0 / 0.0), ("-nan", 0.0 / 0.0)]
  words.findSome? fun (w, x) => (Text.dropPrefix? w.toList t).map fun r => (.real x, r)

def pair? (lo hi : Nat) (t : Text) : Option (Nat × Text) :=
  match t with
  | a :: b :: r =>
    if isDigit a && isDigit b then
      let n := Json.natOf [a, b]
      if lo ≤ n ∧ n ≤ hi then some (n, r) else none
    else none
  | _ => none

def mark? (p : Char → Bool) (t : Text) : Option Text :=
  match t with
  | c :: r => if p c then some r else none
  | [] => none

/-- A time of day; its seconds may have a fraction. -/
def time? (t : Text) : Option Text := do
  let (_, r) ← pair? 0 23 t
  let r ← mark? (· == ':') r
  let (_, r) ← pair? 0 59 r
  let r ← mark? (· == ':') r
  let (_, r) ← pair? 0 59 r
  match r with
  | '.' :: f =>
    match f.takeWhile isDigit with
    | [] => return r
    | ds => return f.drop ds.length
  | _ => return r

def skipZone (t : Text) : Text :=
  match t with
  | 'Z' :: r => r
  | _ =>
    let zone := do
      let r ← mark? (fun c => c == '+' || c == '-') t
      let (_, r) ← pair? 0 23 r
      let r ← mark? (· == ':') r
      let (_, r) ← pair? 0 59 r
      return r
    zone.getD t

def daysIn (year month : Nat) : Nat :=
  if month = 2 then
    if year % 4 = 0 ∧ (year % 100 ≠ 0 ∨ year % 400 = 0) then 29 else 28
  else if [4, 6, 9, 11].contains month then 30
  else 31

/-- What follows a date with or without a time; the inner option is empty for a date that no
calendar has. -/
def date? (t : Text) : Option (Option Text) := do
  let digits := t.take 4
  if digits.length ≠ 4 ∨ !digits.all isDigit then none
  else
    let year := Json.natOf digits
    let r ← mark? (· == '-') (t.drop 4)
    let (month, r) ← pair? 1 12 r
    let r ← mark? (· == '-') r
    let (day, r) ← pair? 1 31 r
    let r' := do
      let u ← mark? (fun c => c == 'T' || c == 't' || c == ' ') r
      let u ← time? u
      return skipZone u
    return if 1 ≤ year ∧ day ≤ daysIn year month then some (r'.getD r) else none

/-! ## Values -/

/-- Marks on keys. A frozen key was written inline; a declared one has its table. -/
inductive Mark where
  | frozen
  | declared
deriving DecidableEq

/-- Which keys are marked. A deep mark holds for all keys below. -/
structure Marks where
  entries : List (List Text × Mark × Bool) := []
  pending : List (List Text × Mark) := []

namespace Marks

def has (m : Marks) (key : List Text) (mark : Mark) : Bool :=
  m.entries.any fun (path, k, deep) =>
    k == mark && (path == key || (deep && path.isPrefixOf key)) && !key.isEmpty

def add (m : Marks) (key : List Text) (mark : Mark) (deep : Bool) : Marks :=
  { m with entries := (key, mark, deep) :: m.entries }

def clear (m : Marks) (key : List Text) : Marks :=
  { m with entries := m.entries.filter fun (path, _, _) => !key.isPrefixOf path }

/-- Adds a mark that takes effect with the next table header. -/
def defer (m : Marks) (key : List Text) (mark : Mark) : Marks :=
  { m with pending := (key, mark) :: m.pending }

def settle (m : Marks) : Marks :=
  { entries := m.pending.map (fun (key, mark) => (key, mark, false)) ++ m.entries, pending := [] }

end Marks

/-- Changes the table behind a key, which is made if it is not there. A list stands for its last
item where `throughLists` holds. -/
def change? (throughLists : Bool) (f : Table → Option Table) : List Text → Table → Option Table
  | [], t => f t
  | k :: ks, t =>
    match (Table.get? t k).getD (.table []) with
    | .table inner => (change? throughLists f ks inner).map fun u => Table.set t k (.table u)
    | .list vs =>
      if throughLists then
        match vs.getLast? with
        | some (.table inner) =>
          (change? throughLists f ks inner).map fun u =>
            Table.set t k (.list (vs.dropLast ++ [.table u]))
        | _ => none
      else none
    | _ => none

def insertNew? (key : Text) (v : Value) (t : Table) : Option Table :=
  if t.contains key then none else some (t.set key v)

def isContainer : Value → Bool
  | .table _ | .list _ => true
  | _ => false

mutual

def value? : (fuel : Nat) → Text → Option (Value × Text)
  | 0, _ => none
  | fuel + 1, t =>
    match t with
    | '"' :: _ | '\'' :: _ => (string? t).map fun (s, r) => (.text s, r)
    | '[' :: r =>
      (skipLines? r.length r).bind fun r =>
        match r with
        | ']' :: r => some (.list [], r)
        | _ => (items? fuel r).map fun (vs, r) => (.list vs, r)
    | '\x7b' :: r =>
      match skip r with
      | '\x7d' :: r => some (.table [], r)
      | r => (inlineTable? fuel [] {} r).map fun (ms, r) => (.table ms, r)
    | _ =>
      let word := match Text.dropPrefix? "true".toList t, Text.dropPrefix? "false".toList t with
        | some r, _ => some (Value.bool true, r)
        | _, some r => some (Value.bool false, r)
        | _, _ => none
      match word with
      | some found => some found
      | none =>
        match date? t with
        | some rest => rest.map fun r => (.moment, r)
        | none =>
          match time? t with
          | some r => some (.moment, r)
          | none =>
            match number? t with
            | some found => some found
            | none => float? t

def items? : (fuel : Nat) → Text → Option (List Value × Text)
  | 0, _ => none
  | fuel + 1, t => do
    let (v, r) ← value? fuel t
    let r ← skipLines? r.length r
    match r with
    | ']' :: r => return ([v], r)
    | ',' :: r =>
      let r ← skipLines? r.length r
      match r with
      | ']' :: r => return ([v], r)
      | _ =>
        let (vs, r) ← items? fuel r
        return (v :: vs, r)
    | _ => none

def pairOf? : (fuel : Nat) → Text → Option (List Text × Value × Text)
  | 0, _ => none
  | fuel + 1, t => do
    let (k, r) ← key? t.length t
    match r with
    | '=' :: r =>
      let (v, r) ← value? fuel (skip r)
      return (k, v, r)
    | _ => none

def inlineTable? : (fuel : Nat) → Table → Marks → Text → Option (Table × Text)
  | 0, _, _, _ => none
  | fuel + 1, table, marks, t => do
    let (k, v, r) ← pairOf? fuel t
    if marks.has k .frozen then none
    else
      let table ← change? false (insertNew? (k.getLastD []) v) k.dropLast table
      match skip r with
      | '\x7d' :: r => return (table, r)
      | ',' :: r =>
        let marks := if isContainer v then marks.add k .frozen true else marks
        inlineTable? fuel table marks (skip r)
      | _ => none

end

/-! ## Documents -/

/-- What has been read of a document: its data, the marks, and the header in force. -/
structure Document where
  data : Table := []
  marks : Marks := {}
  header : List Text := []

namespace Document

def openTable? (d : Document) (key : List Text) : Option Document := do
  let marks := d.marks.settle
  if marks.has key .declared || marks.has key .frozen then none
  else
    let data ← change? true some key d.data
    return { data := data, marks := marks.add key .declared false, header := key }

def openItem? (d : Document) (key : List Text) : Option Document := do
  let marks := d.marks.settle
  if marks.has key .frozen then none
  else
    let last := key.getLastD []
    let append (t : Table) : Option Table :=
      match t.get? last with
      | some (.list vs) => some (t.set last (.list (vs ++ [.table []])))
      | some _ => none
      | none => some (t.set last (.list [.table []]))
    let data ← change? true append key.dropLast d.data
    return { data := data, marks := (marks.clear key).add key .declared false, header := key }

def addPair? (d : Document) (key : List Text) (v : Value) : Option Document := do
  let containers := (List.range (key.length - 1)).map fun i => d.header ++ key.take (i + 1)
  if containers.any fun c => d.marks.has c .declared then none
  else
    let marks := containers.foldl (fun m c => m.defer c .declared) d.marks
    let parent := d.header ++ key.dropLast
    if marks.has parent .frozen then none
    else
      let data ← change? true (insertNew? (key.getLastD []) v) parent d.data
      let marks := if isContainer v then marks.add (d.header ++ key) .frozen true else marks
      return { d with data := data, marks := marks }

end Document

/-- Reads one statement and what follows it on its line, up to the line break. -/
def statement? (d : Document) (t : Text) : Option (Document × Text) :=
  match t with
  | '[' :: '[' :: r => do
    let (k, r) ← key? (r.length + 1) (skip r)
    let d ← d.openItem? k
    match r with
    | ']' :: ']' :: r => return (d, r)
    | _ => none
  | '[' :: r => do
    let (k, r) ← key? (r.length + 1) (skip r)
    let d ← d.openTable? k
    match r with
    | ']' :: r => return (d, r)
    | _ => none
  | '#' :: _ => some (d, t)
  | _ => do
    let (k, v, r) ← pairOf? (t.length + 2) t
    let d ← d.addPair? k v
    return (d, r)

def statements? : (fuel : Nat) → Document → Text → Option Table
  | 0, d, t => if t.isEmpty then some d.data else none
  | fuel + 1, d, t =>
    match skip t with
    | [] => some d.data
    | '\n' :: r => statements? fuel d r
    | u => do
      let (d, r) ← statement? d u
      let r ← skipComment? (skip r)
      match r with
      | [] => return d.data
      | '\n' :: r => statements? fuel d r
      | _ => none

def unifyBreaks : Text → Text
  | '\r' :: '\n' :: t => '\n' :: unifyBreaks t
  | c :: t => c :: unifyBreaks t
  | [] => []

def read? (t : Text) : Option Table :=
  let t := unifyBreaks t
  statements? (t.length + 1) {} t

end CodeReference.Data.Toml
