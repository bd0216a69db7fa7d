import CodeReference.CommandLine.Arguments
import CodeReference.CommandLine.Help
import CodeReference.CommandLine.Surroundings
import CodeReference.Markup.Range
import CodeReference.Reference
import CodeReference.Text.Integer
import CodeReference.Text.Quoted

/-!
The values of parameters. Parameters are checked in the order in which they were given, operands
after options, and then those that were not given; the first fault counts.
-/
namespace CodeReference.CommandLine

namespace Parameter

def title : Parameter → Text
  | help => "'--help' / '-h'".toList
  | debug => "'--debug'".toList
  | config => "'--config'".toList
  | file => "'FILE'".toList
  | line => "'--line' / '-l'".toList
  | column => "'--column' / '-c'".toList
  | startLine => "'--start-line'".toList
  | endLine => "'--end-line'".toList
  | endColumn => "'--end-column'".toList
  | root => "'--root'".toList
  | inPlace => "'--in-place'".toList

end Parameter

inductive PathKind where
  | file | directory
deriving Repr, DecidableEq

namespace PathKind

def name : PathKind → Text
  | file => "File".toList
  | directory => "Directory".toList

end PathKind

inductive ValueError where
  | notInteger (t : Text)
  | tooSmall (i : Int)
  | absent (kind : PathKind) (path : Text)
  | isFile (path : Text)
  | isDirectory (path : Text)
deriving Repr, DecidableEq

namespace ValueError

def message : ValueError → Text
  | notInteger t => Text.quoted t ++ " is not a valid integer range.".toList
  | tooSmall i => Text.ofInt i ++ " is not in the range x>=1.".toList
  | absent kind path =>
    kind.name ++ [' '] ++ Text.quoted path ++ " does not exist.".toList
  | isFile path => "Directory ".toList ++ Text.quoted path ++ " is a file.".toList
  | isDirectory path => "File ".toList ++ Text.quoted path ++ " is a directory.".toList

end ValueError

inductive UsageError where
  | argument (e : ArgumentError)
  | missingOption (p : Parameter)
  | missingOperand (p : Parameter)
  | missingCommand
  | noSuchCommand (name : Text)
  | extraOperands (operands : List Text)
  | value (p : Parameter) (e : ValueError)
  | reference (e : ReferenceError)
  | lines (e : Markup.LinesError)
deriving Repr, DecidableEq

namespace UsageError

def message : UsageError → Text
  | argument (.noSuchOption name) => "No such option ".toList ++ Text.quoted name ++ ['.']
  | argument (.valueMissing name) =>
    "Option ".toList ++ Text.quoted name ++ " requires an argument.".toList
  | argument (.valueNotTaken name) =>
    "Option ".toList ++ Text.quoted name ++ " does not take a value.".toList
  | missingOption p => "Missing option ".toList ++ p.title ++ ['.']
  | missingOperand p => "Missing argument ".toList ++ p.title ++ ['.']
  | missingCommand => "Missing command.".toList
  | noSuchCommand name => "No such command ".toList ++ Text.quoted name ++ ['.']
  | extraOperands [t] => "Got unexpected extra argument (".toList ++ t ++ [')']
  | extraOperands ts =>
    "Got unexpected extra arguments (".toList ++ Text.join [' '] ts ++ [')']
  | value p e => "Invalid value for ".toList ++ p.title ++ ": ".toList ++ e.message
  | reference e => "Invalid value: ".toList ++ e.message
  | lines .reversed => "Invalid value: --start-line must not exceed --end-line".toList
  | lines (.place e) => "Invalid value: ".toList ++ e.message

def showsUsage : UsageError → Bool
  | argument (.valueMissing _) | argument (.valueNotTaken _) => false
  | _ => true

def written (s : Scope) (e : UsageError) : Text :=
  (if e.showsUsage then
    s.usage ++ "Try '".toList ++ s.call ++ " --help' for help.\n\n".toList
  else []) ++ "Error: ".toList ++ e.message ++ ['\n']

end UsageError

/-- A path as it was given, and where it leads. -/
structure FoundPath where
  path : Text
  place : Place
deriving Repr, DecidableEq

/-- The values of all parameters. Lines and columns count from one. -/
structure Values where
  help : Bool := false
  debug : Bool := false
  config? : Option FoundPath := none
  file? : Option FoundPath := none
  line? : Option Nat := none
  column : Nat := 1
  startLine? : Option Nat := none
  endLine? : Option Nat := none
  endColumn? : Option Nat := none
  root? : Option FoundPath := none
  inPlace : Bool := false
deriving Repr

namespace Values

def count (t : Text) : Except ValueError Nat :=
  match Text.toInt? t with
  | none => .error (.notInteger t)
  | some i => if i < 1 then .error (.tooSmall i) else .ok i.toNat

def find (s : Surroundings) (kind : PathKind) (path : Text) : Except ValueError FoundPath :=
  match s.find? path, kind with
  | none, kind => .error (.absent kind path)
  | some ⟨_, .directory⟩, .file => .error (.isDirectory path)
  | some ⟨_, .file _⟩, .directory => .error (.isFile path)
  | some place, _ => .ok ⟨path, place⟩

def set (s : Surroundings) (v : Values) (p : Parameter) (t : Text) : Except ValueError Values :=
  match p with
  | .config => do return { v with config? := some (← find s .file t) }
  | .file => do return { v with file? := some (← find s .file t) }
  | .root => do return { v with root? := some (← find s .directory t) }
  | .line => do return { v with line? := some (← count t) }
  | .column => do return { v with column := ← count t }
  | .startLine => do return { v with startLine? := some (← count t) }
  | .endLine => do return { v with endLine? := some (← count t) }
  | .endColumn => do return { v with endColumn? := some (← count t) }
  | .help | .debug | .inPlace => .ok v

def setFlag (v : Values) (p : Parameter) (b : Bool) : Values :=
  match p with
  | .help => { v with help := b }
  | .debug => { v with debug := b }
  | .inPlace => { v with inPlace := b }
  | _ => v

/-- What is wrong if a parameter was not given. -/
def missing? : Parameter → Option UsageError
  | .line => some (.missingOption .line)
  | .file => some (.missingOperand .file)
  | _ => none

/-- Takes what a parameter was given, if it was given something. -/
def take (s : Surroundings) (a : Arguments) (v : Values) (p : Parameter) :
    Except UsageError Values :=
  let given := match p, a.operands with
    | .file, operand :: _ => some (Given.text operand)
    | _, _ => a.get? p
  match given with
  | some (.text t) => (v.set s p t).mapError (.value p)
  | some (.flag b) => .ok (v.setFlag p b)
  | none =>
    match missing? p with
    | some e => .error e
    | none => .ok v

/-- The parameters in the order in which they are checked. -/
def order (a : Arguments) (parameters : List Parameter) : List Parameter :=
  let given := a.options.map (·.1)
  (given ++ (parameters.filter (· == .file)) ++ parameters).eraseDups

/-- Takes the values of all parameters of a command. Where help is asked for, nothing else counts. -/
def read (s : Surroundings) (parameters : List Parameter) (a : Arguments) :
    Except UsageError Values :=
  if a.options.any fun g => g.1 == .help then .ok { help := true }
  else (order a parameters).foldlM (take s a) {}

end Values
end CodeReference.CommandLine
