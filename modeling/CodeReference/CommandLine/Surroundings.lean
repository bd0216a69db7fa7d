import CodeReference.Text.Basic

/-!
What a run of the program can see around it: places that paths lead to, and variables. Paths are
written with slashes; a location is the list of names that leads to a place from the top.
-/
namespace CodeReference.CommandLine

abbrev Location := List Text

inductive Item where
  | file (bytes : List UInt8)
  | directory
deriving Repr, DecidableEq

structure Place where
  location : Location
  item : Item
deriving Repr, DecidableEq

structure Surroundings where
  /-- The place a path leads to, if there is one. -/
  find? : Text → Option Place
  environment : List (Text × Text) := []

namespace Path

def isName (t : Text) : Bool := !t.isEmpty && t != ['.']

/-- A path as it is printed: without empty names and names of one dot. -/
def normalize (path : Text) : Text :=
  let slashes := path.takeWhile (· == '/')
  let start := if slashes.length = 2 then slashes else slashes.take 1
  match start ++ Text.join ['/'] ((Text.splitOn '/' path).filter isName) with
  | [] => ['.']
  | t => t

end Path

/-- The path that leads from one location to another one below it. -/
def pathBelow? (location top : Location) : Option Text :=
  if top.isPrefixOf location then
    match location.drop top.length with
    | [] => some ['.']
    | names => some (Text.join ['/'] names)
  else none

structure Directory where
  /-- Where relative paths start. -/
  home : Location := [['h', 'o', 'm', 'e']]
  files : List (Location × List UInt8) := []
  directories : List Location := []

namespace Directory

/-- The location of a path inside the directory, which holds no name of two dots. -/
def locate (d : Directory) (path : Text) : Location :=
  d.home ++ (Text.splitOn '/' path).filter Path.isName

/-- Directories are those that are listed, and all that lead to something. -/
def isDirectory (d : Directory) (l : Location) : Bool :=
  l.isPrefixOf d.home || d.directories.any l.isPrefixOf ||
    d.files.any fun f => l.isPrefixOf f.1.dropLast

def item? (d : Directory) (l : Location) : Option Item :=
  match d.files.lookup l with
  | some bytes => some (.file bytes)
  | none => if d.isDirectory l then some .directory else none

/-- Follows names from a location; every name is looked up in a directory. -/
def follow? (d : Directory) : Location → List Text → Option Location
  | l, [] => some l
  | l, name :: names =>
    if d.item? l = some .directory then
      if !Path.isName name then follow? d l names
      else if name = ['.', '.'] then follow? d l.dropLast names
      else follow? d (l ++ [name]) names
    else none

def find? (d : Directory) (path : Text) : Option Place :=
  if path.isEmpty then none
  else do
    let start := if path.head? = some '/' then [] else d.home
    let l ← d.follow? start (Text.splitOn '/' path)
    return ⟨l, ← d.item? l⟩

def write (d : Directory) (path : Text) (bytes : List UInt8) : Directory :=
  match d.find? path with
  | some place =>
    { d with files := d.files.map fun f => if f.1 == place.location then (f.1, bytes) else f }
  | none => d

end Directory
end CodeReference.CommandLine
