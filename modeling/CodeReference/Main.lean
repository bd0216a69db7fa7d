import CodeReference.CommandLine.Run
import CodeReference.Grammar.Program

/-!
The program: it looks up the places that its arguments may name, runs, and prints what comes out.
-/
namespace CodeReference.CommandLine

/-- Whether a path leads to a directory: then a dot may follow it. -/
def leadsToDirectory (path : String) : IO Bool := do
  try
    let _ ← IO.FS.realPath (path ++ "/.")
    return true
  catch _ => return false

def lookUp (path : Text) : IO (Option Place) := do
  let name := String.ofList path
  try
    let real := toString (← IO.FS.realPath name)
    let location := (Text.splitOn '/' real.toList).filter Path.isName
    if ← leadsToDirectory name then return some ⟨location, .directory⟩
    return some ⟨location, .file (← IO.FS.readBinFile name).toList⟩
  catch _ => return none

/-- The paths that an argument may name: all of it, or what follows its equals sign. -/
def mentionedPaths (arg : Text) : List Text := [arg, (arg.dropWhile (· != '=')).drop 1]

def readEnvironment : IO (List (Text × Text)) := do
  try
    let bytes ← IO.FS.readBinFile "/proc/self/environ"
    match Text.decode bytes.toList with
    | .ok t =>
      return (Text.splitOn '\x00' t).map fun v =>
        (v.takeWhile (· != '='), (v.dropWhile (· != '=')).drop 1)
    | .error _ => return []
  catch _ => return []

def readSurroundings (args : List Text) : IO Surroundings := do
  let paths := ['.'] :: args.flatMap mentionedPaths
  let places ← paths.mapM fun path => do return (path, ← lookUp path)
  return { find? := fun path => (places.lookup path).join, environment := ← readEnvironment }

end CodeReference.CommandLine

open CodeReference CommandLine in
def main (args : List String) : IO UInt32 := do
  let args := args.map (·.toList)
  let outcome := run Grammar.readProgram (← readSurroundings args) {} args
  if let some (path, bytes) := outcome.written? then
    IO.FS.writeBinFile (String.ofList path) ⟨bytes.toArray⟩
  IO.print (String.ofList outcome.out)
  IO.eprint (String.ofList outcome.err)
  if let some crash := outcome.crash? then
    IO.eprintln (String.ofList crash.message)
  return outcome.exit.toUInt32
