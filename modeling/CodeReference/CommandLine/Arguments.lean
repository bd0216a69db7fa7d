import CodeReference.Text.Basic

/-!
Arguments cut into options and operands. A long option takes its value from behind an equals sign or
from the next argument; short options may share a dash, and the rest behind one that takes a value is
its value. Two dashes end the options.
-/
namespace CodeReference.CommandLine

inductive Parameter where
  | help | debug | config | file | line | column | startLine | endLine | endColumn | root | inPlace
deriving Repr, DecidableEq

/-- What an option does: it takes a value, or stands for one. -/
inductive Arity where
  | value
  | flag (b : Bool)
deriving Repr, DecidableEq

/-- One way to write an option, with its dashes. -/
structure Spelling where
  name : Text
  parameter : Parameter
  arity : Arity
deriving Repr, DecidableEq

namespace Spelling

def takingValue (name : String) (p : Parameter) : Spelling := ⟨name.toList, p, .value⟩

def flag (name : String) (p : Parameter) (b : Bool) : Spelling := ⟨name.toList, p, .flag b⟩

def isLong (s : Spelling) : Bool := Text.startsWith s.name ['-', '-']

end Spelling

structure Options where
  spellings : List Spelling
  /-- Whether options may stand behind operands. -/
  mixed : Bool

namespace Options

def long? (o : Options) (name : Text) : Option Spelling :=
  o.spellings.find? fun s => s.isLong && s.name == name

def short? (o : Options) (c : Char) : Option Spelling :=
  o.spellings.find? fun s => !s.isLong && s.name == ['-', c]

end Options

inductive Given where
  | text (t : Text)
  | flag (b : Bool)
deriving Repr, DecidableEq

inductive ArgumentError where
  | noSuchOption (name : Text)
  | valueMissing (name : Text)
  | valueNotTaken (name : Text)
deriving Repr, DecidableEq

/-- Options in the order in which they stand, and operands. -/
structure Arguments where
  options : List (Parameter × Given) := []
  operands : List Text := []
deriving Repr, DecidableEq

namespace Arguments

/-- What a parameter was given last. -/
def get? (a : Arguments) (p : Parameter) : Option Given := a.options.reverse.lookup p

/-- The option that takes a value: it, and the arguments after the value. -/
def takeValue (name : Text) (p : Parameter) (rest : List Text) :
    Except ArgumentError ((Parameter × Given) × List Text) :=
  match rest with
  | v :: rest => .ok ((p, .text v), rest)
  | [] => .error (.valueMissing name)

/-- Reads a long option: it, and the arguments after it. -/
def longOption (s : Spelling) (attached : Option Text) (rest : List Text) :
    Except ArgumentError ((Parameter × Given) × List Text) :=
  match s.arity, attached with
  | .value, some v => .ok ((s.parameter, .text v), rest)
  | .value, none => takeValue s.name s.parameter rest
  | .flag b, none => .ok ((s.parameter, .flag b), rest)
  | .flag _, some _ => .error (.valueNotTaken s.name)

/-- Reads short options behind one dash: them, and the arguments after them. -/
def shortOptions (o : Options) (rest : List Text) :
    (letters : Text) → Except ArgumentError (List (Parameter × Given) × List Text)
  | [] => .ok ([], rest)
  | c :: letters =>
    match o.short? c with
    | none => .error (.noSuchOption ['-', c])
    | some s =>
      match s.arity with
      | .flag b => do
        let (found, rest) ← shortOptions o rest letters
        return ((s.parameter, .flag b) :: found, rest)
      | .value =>
        if letters.isEmpty then do
          let (found, rest) ← takeValue s.name s.parameter rest
          return ([found], rest)
        else .ok ([(s.parameter, .text letters)], rest)

/-- Reads an argument that begins with a dash: its options, and the arguments after them. -/
def option (o : Options) (arg : Text) (rest : List Text) :
    Except ArgumentError (List (Parameter × Given) × List Text) :=
  let name := arg.takeWhile (· != '=')
  let attached := match arg.dropWhile (· != '=') with
    | _ :: v => some v
    | [] => none
  match o.long? name with
  | some s => do
    let (found, rest) ← longOption s attached rest
    return ([found], rest)
  | none =>
    if Text.startsWith arg ['-', '-'] then .error (.noSuchOption name)
    else shortOptions o rest (arg.drop 1)

def isOption (arg : Text) : Bool :=
  match arg with
  | '-' :: _ :: _ => true
  | _ => false

/-- Reads arguments behind those that were read already. `fuel` bounds their number. -/
def readFrom (o : Options) : (fuel : Nat) → Arguments → List Text → Except ArgumentError Arguments
  | 0, a, _ => .ok a
  | _, a, [] => .ok a
  | fuel + 1, a, arg :: rest =>
    if arg = ['-', '-'] then .ok { a with operands := a.operands ++ rest }
    else if isOption arg then do
      let (found, rest) ← option o arg rest
      readFrom o fuel { a with options := a.options ++ found } rest
    else if o.mixed then readFrom o fuel { a with operands := a.operands ++ [arg] } rest
    else .ok { a with operands := a.operands ++ arg :: rest }

def read (o : Options) (args : List Text) : Except ArgumentError Arguments :=
  readFrom o args.length {} args

end Arguments
end CodeReference.CommandLine
