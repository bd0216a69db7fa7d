import CodeReference.Data.Value
import CodeReference.Text.Integer
import CodeReference.Selection

/-!
Checking values: each reader gives what a value stands for, or all the faults found in it with the
place of each. Checks that stand side by side are all made, and their faults listed in order.
-/
namespace CodeReference.Data

inductive FaultKind where
  | missing
  | notInteger
  /-- A text that writes no integer. -/
  | unreadableInteger
  | integerTooLarge
  | fraction
  | notFinite
  | belowLeast
  | notText
  /-- Not a table, where a table with known members is asked for. -/
  | notModel
  /-- Not a table, where one with any keys is asked for. -/
  | notTable
  | unknownName
  | unknownMember
  | bounds (e : SpanError)
deriving Repr, DecidableEq

/-- A fault, and the keys that lead to the faulty part of a value. -/
structure Fault where
  path : List Text
  kind : FaultKind
deriving Repr, DecidableEq

namespace Fault

/-- The keys that lead to the faulty part, with dots between them. -/
def place (f : Fault) : Text := Text.join ['.'] f.path

end Fault

inductive Checked (α : Type) where
  | valid (a : α)
  | faulty (faults : List Fault)

namespace Checked

def fault {α : Type} (kind : FaultKind) : Checked α := faulty [⟨[], kind⟩]

def faults {α : Type} : Checked α → List Fault
  | valid _ => []
  | faulty fs => fs

def map {α β : Type} (f : α → β) : Checked α → Checked β
  | valid a => valid (f a)
  | faulty fs => faulty fs

/-- Makes both checks, and applies what the first gives to what the second gives. -/
def seq {α β : Type} (f : Checked (α → β)) (x : Unit → Checked α) : Checked β :=
  match f, x () with
  | valid f, valid a => valid (f a)
  | valid _, faulty fs => faulty fs
  | faulty fs, valid _ => faulty fs
  | faulty fs, faulty gs => faulty (fs ++ gs)

instance : Applicative Checked where
  pure := valid
  map := map
  seq := seq

@[simp] theorem faults_seq {α β : Type} (f : Checked (α → β)) (x : Unit → Checked α) :
    (seq f x).faults = f.faults ++ (x ()).faults := by
  cases f <;> cases hx : x () <;> simp [seq, faults, hx]

def andThen {α β : Type} (x : Checked α) (f : α → Checked β) : Checked β :=
  match x with
  | valid a => f a
  | faulty fs => faulty fs

def under {α : Type} (key : Text) : Checked α → Checked α
  | valid a => valid a
  | faulty fs => faulty (fs.map fun f => { f with path := key :: f.path })

def toExcept {α : Type} : Checked α → Except (List Fault) α
  | valid a => .ok a
  | faulty fs => .error fs

def traverse {α β : Type} (check : α → Checked β) : List α → Checked (List β)
  | [] => valid []
  | a :: as => List.cons <$> check a <*> traverse check as

end Checked

namespace Check

/-- Digits without the zeros and underscores in front of them; a zero stays where nothing else
stands before a point or the end. -/
def dropLeadingZeros? (t : Text) : Option Text :=
  match t with
  | '0' :: _ =>
    let zeros := t.takeWhile fun c => c == '0' || c == '_'
    let rest := t.drop zeros.length
    match rest with
    | [] => some (zeros.drop (zeros.length - 1))
    | '.' :: _ => some (zeros.drop (zeros.length - 1) ++ rest)
    | c :: _ => if '1' ≤ c ∧ c ≤ '9' then some rest else none
  | c :: _ => if '1' ≤ c ∧ c ≤ '9' then some t else none
  | [] => none

/-- The part before a point that only zeros follow, or all of a text without a point. -/
def dropZeroFraction? (t : Text) : Option Text :=
  match t.dropWhile (· != '.') with
  | '.' :: zeros => if zeros.all (· == '0') then some (t.takeWhile (· != '.')) else none
  | _ => some t

def magnitude? (t : Text) : Option Nat := do
  let digits ← dropLeadingZeros? t
  let whole ← dropZeroFraction? digits
  Text.digitsFrom? Text.asciiDigit? true 0 whole

/-- The blanks around numbers in text: those that Unicode counts as white space. -/
def isMargin (c : Char) : Bool := Text.isBlank c && !('\x1c' ≤ c && c ≤ '\x1f')

/-- The integer that a text writes, with one sign at most; a fraction of zeros counts as none. -/
def integerText? (t : Text) : Option Int :=
  let t := Text.dropEndWhile isMargin (t.dropWhile isMargin)
  match t with
  | '-' :: r => (magnitude? r).map fun n => -(n : Int)
  | '+' :: r => (magnitude? r).map Int.ofNat
  | _ => (magnitude? t).map Int.ofNat

/-- The integers that a double may stand for lie within this bound. -/
def realBound : Float := 9223372036854775808.0

def int : Value → Checked Int
  | .int i => pure i
  | .bool b => pure (if b then 1 else 0)
  | .real x =>
    if x.isNaN || x.isInf then .fault .notFinite
    else if x.floor != x then .fault .fraction
    else if -realBound < x && x < realBound then pure x.toInt64.toInt
    else .fault .integerTooLarge
  | .text t =>
    if Text.maxDigits < t.length then .fault .integerTooLarge
    else
      match integerText? t with
      | some i => pure i
      | none => .fault .unreadableInteger
  | _ => .fault .notInteger

def nat (v : Value) : Checked Nat :=
  (int v).andThen fun i => if i < 0 then .fault .belowLeast else pure i.toNat

def text : Value → Checked Text
  | .text t => pure t
  | _ => .fault .notText

def text? : Value → Checked (Option Text)
  | .null => pure none
  | v => some <$> text v

/-- One of the names that `ofName?` knows. -/
def name {α : Type} (ofName? : Text → Option α) : Value → Checked α
  | .text t =>
    match ofName? t with
    | some a => pure a
    | none => .fault .unknownName
  | _ => .fault .unknownName

/-- A table with known members. -/
def model {α : Type} (members : Table → Checked α) : Value → Checked α
  | .table t => members t
  | _ => .fault .notModel

/-- A table with any keys, whose values are checked alike. -/
def entries {α : Type} (check : Value → Checked α) : Value → Checked (List (Text × α))
  | .table t => Checked.traverse (fun (k, v) => (k, ·) <$> (check v).under k) t
  | _ => .fault .notTable

def required {α : Type} (t : Table) (key : Text) (check : Value → Checked α) : Checked α :=
  match t.get? key with
  | some v => (check v).under key
  | none => (Checked.fault .missing).under key

def optional {α : Type} (t : Table) (key : Text) (default : α) (check : Value → Checked α) :
    Checked α :=
  match t.get? key with
  | some v => (check v).under key
  | none => pure default

/-- Faults for the members with other keys than the given ones. -/
def noOthers (t : Table) (keys : List Text) : Checked Unit :=
  match t.filter fun m => !keys.contains m.1 with
  | [] => pure ()
  | others => .faulty (others.map fun m => ⟨[m.1], .unknownMember⟩)

end Check
end CodeReference.Data
