import CodeReference.Text.Quoted

/-!
What a program notes down while it works: events with named details. An event is written as one
line, its details in the order of their names.
-/
namespace CodeReference

inductive Level where
  | debug | info | warning
deriving Repr, DecidableEq

namespace Level

def number : Level → Nat
  | debug => 10
  | info => 20
  | warning => 30

def name : Level → Text
  | debug => "debug".toList
  | info => "info".toList
  | warning => "warning".toList

end Level

inductive Detail where
  | text (t : Text)
  | int (i : Int)
  | none
deriving Repr, DecidableEq

namespace Detail

def ofText? : Option Text → Detail
  | some t => text t
  | .none => none

def needsQuotes (c : Char) : Bool :=
  c == ' ' || c == '\t' || c == '=' || c == '\r' || c == '\n' || c == '"' || c == '\''

def written : Detail → Text
  | text t => if t.any needsQuotes then Text.quoted t else t
  | int i => Text.ofInt i
  | none => "None".toList

end Detail

/-- An event, with its details in the order of their names. -/
structure Event where
  level : Level
  title : Text
  details : List (Text × Detail)
deriving Repr, DecidableEq

namespace Event

def levelWidth : Nat := 9

def titleWidth : Nat := 30

def padded (width : Nat) (t : Text) : Text := t ++ Text.times (width - t.length) [' ']

def line (e : Event) : Text :=
  ['['] ++ padded levelWidth e.level.name ++ [']', ' '] ++ padded titleWidth e.title ++ [' '] ++
    Text.join [' '] (e.details.map fun (name, d) => name ++ ['='] ++ d.written)

end Event
end CodeReference
