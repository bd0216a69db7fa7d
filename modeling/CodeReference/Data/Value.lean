import CodeReference.Text.Basic

/-!
Values of configuration data, as data formats and the surroundings of a program give them. The
members of a table keep the order in which their keys came first; a key that comes again keeps its
place and takes the later value.
-/
namespace CodeReference.Data

inductive Value where
  | null
  | bool (b : Bool)
  | int (i : Int)
  | real (x : Float)
  | text (t : Text)
  | list (vs : List Value)
  | table (members : List (Text × Value))
  /-- A date or a time, of which only the kind matters. -/
  | moment
deriving Inhabited

abbrev Table := List (Text × Value)

namespace Table

def get? (t : Table) (key : Text) : Option Value :=
  (t.find? fun m => m.1 == key).map (·.2)

def contains (t : Table) (key : Text) : Bool := t.any fun m => m.1 == key

def set (t : Table) (key : Text) (v : Value) : Table :=
  if contains t key then t.map fun m => if m.1 == key then (key, v) else m
  else t ++ [(key, v)]

def ofList (ms : List (Text × Value)) : Table := ms.foldl (fun t m => set t m.1 m.2) []

end Table

/-- Lays the members of one table over those of another; tables that meet are merged alike. `fuel`
bounds how deep tables are merged. -/
def mergeTables : (fuel : Nat) → (base top : Table) → Table
  | 0, base, _ => base
  | fuel + 1, base, top =>
    top.foldl (fun t (key, v) =>
      match Table.get? t key, v with
      | some (.table b), .table o => Table.set t key (.table (mergeTables fuel b o))
      | _, _ => Table.set t key v) base

mutual

def Value.depth : Value → Nat
  | .table ms => depthOfMembers ms + 1
  | _ => 0

def depthOfMembers : List (Text × Value) → Nat
  | [] => 0
  | (_, v) :: ms => max v.depth (depthOfMembers ms)

end

def Table.merge (base top : Table) : Table := mergeTables (depthOfMembers top + 1) base top

end CodeReference.Data
