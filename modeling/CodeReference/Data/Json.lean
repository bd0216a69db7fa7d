import CodeReference.Data.Value
import CodeReference.Text.Integer
import CodeReference.Text.Source

/-!
Reading JSON. Besides the standard, the words `NaN`, `Infinity` and `-Infinity` are numbers; of a key
that is given twice the later value counts.
-/
namespace CodeReference.Data.Json

def isSpace (c : Char) : Bool := c == ' ' || c == '\t' || c == '\n' || c == '\r'

def skip (t : Text) : Text := t.dropWhile isSpace

def isDigit (c : Char) : Bool := '0' ≤ c && c ≤ '9'

def hexValue? (c : Char) : Option Nat :=
  if '0' ≤ c ∧ c ≤ '9' then some (c.toNat - 48)
  else if 'a' ≤ c ∧ c ≤ 'f' then some (c.toNat - 87)
  else if 'A' ≤ c ∧ c ≤ 'F' then some (c.toNat - 55)
  else none

def hexNumber? (t : Text) : Option Nat :=
  t.foldl (fun n? c => do return (← n?) * 16 + (← hexValue? c)) (some 0)

/-- The four hexadecimal digits of an escape, and the rest. -/
def unit? (t : Text) : Option (Nat × Text) :=
  if (t.take 4).length = 4 then (hexNumber? (t.take 4)).map fun n => (n, t.drop 4) else none

def simpleEscape? (c : Char) : Option Char :=
  [('"', '"'), ('\\', '\\'), ('/', '/'), ('b', '\x08'), ('f', '\x0c'), ('n', '\n'), ('r', '\r'),
    ('t', '\t')].lookup c

/-- The code points of a string after its opening quote, and what follows its closing quote. -/
def stringBody : (fuel : Nat) → Text → Option (Source × Text)
  | 0, _ => none
  | fuel + 1, t =>
    match t with
    | '"' :: r => some ([], r)
    | '\\' :: 'u' :: r => do
      let (n, r) ← unit? r
      let (c, r) := match r with
        | '\\' :: 'u' :: r' =>
          match unit? r' with
          | some (m, r'') =>
            if 0xD800 ≤ n ∧ n < 0xDC00 ∧ 0xDC00 ≤ m ∧ m < 0xE000 then
              (CodePoint.ofNat (0x10000 + (n - 0xD800) * 0x400 + (m - 0xDC00)), r'')
            else (CodePoint.ofNat n, r)
          | none => (CodePoint.ofNat n, r)
        | _ => (CodePoint.ofNat n, r)
      let (s, r) ← stringBody fuel r
      return (c :: s, r)
    | '\\' :: e :: r => do
      let c ← simpleEscape? e
      let (s, r) ← stringBody fuel r
      return (.char c :: s, r)
    | c :: r =>
      if c.toNat < 0x20 then none
      else do
        let (s, r) ← stringBody fuel r
        return (.char c :: s, r)
    | [] => none

def natOf (digits : Text) : Nat := digits.foldl (fun n c => n * 10 + (c.toNat - 48)) 0

def fraction (t : Text) : Text × Text :=
  match t with
  | '.' :: r =>
    match r.takeWhile isDigit with
    | [] => ([], t)
    | ds => (ds, r.dropWhile isDigit)
  | _ => ([], t)

def exponent? (t : Text) : Option (Int × Text) :=
  match t with
  | e :: r =>
    if e == 'e' || e == 'E' then
      let (negative, r) := match r with
        | '-' :: r => (true, r)
        | '+' :: r => (false, r)
        | _ => (false, r)
      match r.takeWhile isDigit with
      | [] => none
      | ds =>
        let n : Int := natOf ds
        some (if negative then -n else n, r.dropWhile isDigit)
    else none
  | [] => none

/-- The double nearest to `mantissa * 10 ^ exponent`. -/
def decimal (negative : Bool) (mantissa : Nat) (exponent : Int) : Float :=
  let x :=
    if exponent < 0 then Float.ofScientific mantissa true exponent.natAbs
    else Float.ofScientific mantissa false exponent.natAbs
  if negative then -x else x

def number? (t : Text) : Option (Value × Text) :=
  let (negative, r) := match t with
    | '-' :: r => (true, r)
    | _ => (false, t)
  let whole? := match r with
    | '0' :: r => some (['0'], r)
    | _ =>
      match r.takeWhile isDigit with
      | [] => none
      | ds => some (ds, r.dropWhile isDigit)
  whole?.map fun (whole, r) =>
    let (frac, r) := fraction r
    match exponent? r with
    | some (e, r) =>
      (.real (decimal negative (natOf (whole ++ frac)) (e - frac.length)), r)
    | none =>
      if frac.isEmpty then
        let n : Int := natOf whole
        (.int (if negative then -n else n), r)
      else (.real (decimal negative (natOf (whole ++ frac)) (-frac.length)), r)

def words : List (Text × Value) :=
  [("null".toList, .null), ("true".toList, .bool true), ("false".toList, .bool false),
    ("NaN".toList, .real (0.0 / 0.0)), ("Infinity".toList, .real (1.0 / 0.0)),
    ("-Infinity".toList, .real (-1.0 / 0.0))]

def word? (t : Text) : Option (Value × Text) :=
  words.findSome? fun (w, v) => (Text.dropPrefix? w t).map fun r => (v, r)

mutual

/-- A value at the front of a text, and the rest. `fuel` bounds the values and characters read. -/
def value? : (fuel : Nat) → Text → Option (Value × Text)
  | 0, _ => none
  | fuel + 1, t =>
    match t with
    | '"' :: r => (stringBody r.length.succ r).map fun (s, r) => (.text s.text, r)
    | '[' :: r =>
      match skip r with
      | ']' :: r => some (.list [], r)
      | r => (items? fuel r).map fun (vs, r) => (.list vs, r)
    | '\x7b' :: r =>
      match skip r with
      | '\x7d' :: r => some (.table [], r)
      | r => (members? fuel r).map fun (ms, r) => (.table (Table.ofList ms), r)
    | _ =>
      match word? t with
      | some found => some found
      | none => number? t

def items? : (fuel : Nat) → Text → Option (List Value × Text)
  | 0, _ => none
  | fuel + 1, t => do
    let (v, r) ← value? fuel (skip t)
    match skip r with
    | ',' :: r =>
      let (vs, r) ← items? fuel r
      return (v :: vs, r)
    | ']' :: r => return ([v], r)
    | _ => none

def members? : (fuel : Nat) → Text → Option (List (Text × Value) × Text)
  | 0, _ => none
  | fuel + 1, t =>
    match skip t with
    | '"' :: r => do
      let (key, r) ← stringBody r.length.succ r
      match skip r with
      | ':' :: r =>
        let (v, r) ← value? fuel (skip r)
        match skip r with
        | ',' :: r =>
          let (ms, r) ← members? fuel r
          return ((key.text, v) :: ms, r)
        | '\x7d' :: r => return ([(key.text, v)], r)
        | _ => none
      | _ => none
    | _ => none

end

def read? (t : Text) : Option Value :=
  match value? (2 * t.length + 2) (skip t) with
  | some (v, r) => if (skip r).isEmpty then some v else none
  | none => none

end CodeReference.Data.Json
