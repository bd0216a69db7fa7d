import CodeReference.Data.Toml
import CodeReference.Settings.VariableFile

/-!
Settings from several sources. A source that comes earlier overrides those after it, member by
member: the caller, the environment, a file of variables, a TOML file and a JSON file.
-/
namespace CodeReference.Settings

open Data

/-- Where settings come from. Files are given by their contents. -/
structure Sources where
  members : Table := []
  environment : List (Text × Text) := []
  start : Text := "QUICKREFER_".toList
  variableFile? : Option Text := none
  tomlFile? : Option Text := none
  jsonFile? : Option Text := none

inductive LoadError where
  | toml
  | json
  | jsonNotTable
  | decoding (e : DecodeFailure)
  | faults (fs : List Fault)
deriving Repr, DecidableEq

namespace LoadError

def message : LoadError → Text
  | toml => "the settings file is not TOML".toList
  | json => "the settings file is not JSON".toList
  | jsonNotTable => "the settings file holds no table".toList
  | decoding e => "the variable for ".toList ++ e.field ++ " does not hold JSON".toList
  | faults fs => "faults in settings: ".toList ++ Text.join [',', ' '] (fs.map Fault.place)

end LoadError

/-- The member that stands for a field: one of the same name, or else of the same name in other
letter case. -/
def memberFor? (t : Table) (field : Text) : Option (Text × Value) :=
  match t.get? field with
  | some v => some (field, v)
  | none => t.find? fun m => Text.lowercase m.1 == field

/-- The members of a file: the fields in their order, then all others. -/
def fileMembers (t : Table) : Table :=
  let found := fields.filterMap fun f => (memberFor? t f).map fun (key, v) => (f, key, v)
  found.map (fun (f, _, v) => (f, v)) ++ t.filter fun m => !found.any fun (_, key, _) => key == m.1

def tomlMembers (file? : Option Text) : Except LoadError Table :=
  match file? with
  | none => .ok []
  | some t =>
    match Toml.read? t with
    | some members => .ok (fileMembers members)
    | none => .error .toml

def jsonMembers (file? : Option Text) : Except LoadError Table :=
  match file? with
  | none => .ok []
  | some t =>
    match Json.read? t with
    | some (.table members) => .ok (fileMembers members)
    | some _ => .error .jsonNotTable
    | none => .error .json

/-- Lays sources over one another; the first lies on top. -/
def layered (sources : List Table) : Table := sources.foldl (fun top t => Table.merge t top) []

def Sources.merged (s : Sources) : Except LoadError Table := do
  let toml ← tomlMembers s.tomlFile?
  let json ← jsonMembers s.jsonFile?
  let start := Text.lowercase s.start
  let named := Variables.lowercase (s.environment.map fun (n, v) => (n, some v))
  let environment ← (Environment.read start named).mapError .decoding
  let file := match s.variableFile? with
    | some t => Variables.lowercase (VariableFile.read s.environment t)
    | none => []
  let listed ← (Environment.readAll start file).mapError .decoding
  return layered [s.members, environment, listed, toml, json]

def load (s : Sources) : Except LoadError Settings := do
  (ofTable (← s.merged)).toExcept.mapError .faults

end CodeReference.Settings
