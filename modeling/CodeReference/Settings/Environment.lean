import CodeReference.Data.Json
import CodeReference.Data.Reading
import CodeReference.Text.Lowercase

/-!
Settings in named variables. The name of a variable is a prefix, a field and perhaps, after double
underscores, the members that lead into the field. A variable for a whole field holds JSON. Names are
compared in lower case.
-/
namespace CodeReference.Settings

open Data

/-- Variables in order; a variable may be named without having a value. -/
abbrev Variables := List (Text × Option Text)

namespace Variables

def get? (vs : Variables) (name : Text) : Option Text := (vs.lookup name).join

/-- Gives a variable a value. A variable that is there already keeps its place. -/
def set (vs : Variables) (name : Text) (v : Option Text) : Variables :=
  if vs.any fun m => m.1 == name then vs.map fun m => if m.1 == name then (name, v) else m
  else vs ++ [(name, v)]

/-- The variables under their names in lower case; of equal names the last counts. -/
def lowercase (vs : Variables) : Variables :=
  vs.foldl (fun ws (name, v) => set ws (Text.lowercase name) v) []

end Variables

/-- A variable for a whole field that does not hold JSON. -/
structure DecodeFailure where
  field : Text
deriving Repr, DecidableEq

namespace Environment

def delimiter : Text := "__".toList

def pieces : Text → List Text
  | [] => [[]]
  | '_' :: '_' :: t => [] :: pieces t
  | c :: t =>
    match pieces t with
    | [] => [[c]]
    | p :: ps => (c :: p) :: ps

/-- The member names that the settings know inside a field; `none` if a field has members of any
name. -/
def members? (field : Text) : Option (List Text) :=
  if field = "formatter".toList then some (["indent", "inline_raw_text_limit"].map (·.toList))
  else if field = "locator".toList then some ["snippet_length".toList]
  else if field = "python".toList then some ["tab_width".toList]
  else none

/-- What a variable for a part of a field stands for. In a field with members of any name it may be
JSON. -/
def partValue (field : Text) : Option Text → Value
  | none => .null
  | some v =>
    if (members? field).isNone && !v.isEmpty then (Json.read? v).getD (.text v) else .text v

/-- Puts a value into a table at the end of a path; a path through something else than a table
leaves the table as it is. -/
def put (path : List Text) (v : Value) (t : Table) : Table :=
  match path with
  | [] => t
  | [key] => t.set key v
  | key :: rest =>
    match t.get? key with
    | none => t.set key (.table (put rest v []))
    | some (.table inner) => t.set key (.table (put rest v inner))
    | some _ => t

def parts (start field : Text) (vs : Variables) : Table :=
  vs.foldl (fun t (name, v) =>
    match Text.dropPrefix? (start ++ field ++ delimiter) name with
    | some path => put (pieces path) (partValue field v) t
    | none => t) []

def properNames (field : Text) (t : Table) : Table :=
  match members? field with
  | none => t
  | some names =>
    t.foldl (fun u (key, v) =>
      match names.find? fun n => n == Text.lowercase key with
      | some n => Table.set u n v
      | none => Table.set u key v) []

def fieldValue (start field : Text) (vs : Variables) : Except DecodeFailure (Option Value) :=
  match vs.get? (start ++ field) with
  | none =>
    match parts start field vs with
    | [] => .ok none
    | t => .ok (some (.table (properNames field t)))
  | some written =>
    match Json.read? written with
    | none => .error ⟨field⟩
    | some .null => .ok none
    | some (.table t) =>
      .ok (some (.table (properNames field (Table.merge t (parts start field vs)))))
    | some v => .ok (some v)

/-- The settings that variables hold. Variables that belong to no field are passed over. -/
def read (start : Text) (vs : Variables) : Except DecodeFailure Table :=
  fields.foldlM (fun t field => do
    match ← fieldValue start field vs with
    | some v => return t.set field v
    | none => return t) []

def isUsed (start name : Text) : Bool := fields.any fun f => Text.startsWith name (start ++ f)

/-- The settings that the variables of a file hold. All its variables with a value count; those
that belong to no field are kept under their own names. -/
def readAll (start : Text) (vs : Variables) : Except DecodeFailure Table := do
  let t ← read start vs
  return vs.foldl (fun t (name, v) =>
    match v with
    | none | some [] => t
    | some v =>
      if t.contains name || (!start.isEmpty && fields.contains name) || isUsed start name then t
      else t.set name (.text v)) t

end Environment
end CodeReference.Settings
