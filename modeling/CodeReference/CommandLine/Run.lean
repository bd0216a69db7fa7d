import CodeReference.CommandLine.Logging
import CodeReference.CommandLine.Values
import CodeReference.Reference
import CodeReference.Settings.Layers

/-!
Runs of the program: what it prints, what it writes to a file and how it ends.
-/
namespace CodeReference.CommandLine

/-- What ends a run before its command is carried out. -/
inductive Crash where
  | settings (e : Settings.LoadError)
  | undecodable
deriving Repr, DecidableEq

namespace Crash

def message : Crash → Text
  | settings e => e.message
  | undecodable => "the settings file is not UTF-8".toList

end Crash

structure Outcome where
  exit : Nat := 0
  out : Text := []
  err : Text := []
  crash? : Option Crash := none
  /-- The path of a file, and its new contents. -/
  written? : Option (Text × List UInt8) := none
  logging : Logging
deriving Repr

namespace Outcome

def usage (l : Logging) (s : Scope) (e : UsageError) : Outcome :=
  { exit := 2, err := e.written s, logging := l }

def help (l : Logging) (s : Scope) : Outcome := { out := Help.text s, logging := l }

def crash (l : Logging) (c : Crash) : Outcome := { exit := 1, crash? := some c, logging := l }

end Outcome

namespace Place

def bytes (p : Place) : List UInt8 :=
  match p.item with
  | .file bytes => bytes
  | .directory => []

end Place

namespace Values

def selection (v : Values) : Selection :=
  let line := v.line?.getD 1
  let anchor : Position := ⟨line - 1, v.column - 1⟩
  match v.endLine?, v.endColumn? with
  | none, none => .cursor anchor
  | endLine?, endColumn? => ⟨anchor, ⟨endLine?.getD line - 1, endColumn?.getD 1 - 1⟩⟩

/-- The path of the file as it is printed: from the root to the file, if the file is below the
root, and otherwise as it was given. -/
def relativePath (s : Surroundings) (v : Values) (file : FoundPath) : Text :=
  let root? := (v.root?.map (·.place)).or (s.find? ['.'])
  (root?.bind fun root => pathBelow? file.place.location root.location).getD
    (Path.normalize file.path)

end Values

/-- The number of lines that a text spans, by any of the characters that end lines. -/
def countLines : (open? : Bool) → Text → Nat
  | inLine, [] => if inLine then 1 else 0
  | _, '\r' :: '\n' :: t => 1 + countLines false t
  | _, c :: t =>
    if "\n\r\x0b\x0c\x1c\x1d\x1e\u0085\u2028\u2029".toList.contains c then 1 + countLines false t
    else countLines true t

/-- Reads the document of a run, or ends the run. -/
def withDocument (l : Logging) (file : FoundPath) (k : Text → Outcome) : Outcome :=
  match Text.decode file.place.bytes with
  | .ok t => k t
  | .error e =>
    { exit := 1
      err := "Error: Could not open file ".toList ++
        Text.quoted (Path.normalize file.path) ++ ": ".toList ++
        e.message ++ ['\n']
      logging := l }

namespace Command

def runRefs (readTree : TreeReader) (s : Surroundings) (settings : Settings) (l : Logging)
    (v : Values) (file : FoundPath) : Outcome :=
  withDocument l file fun text =>
    let path := v.relativePath s file
    match findings readTree .standard settings { path := path, source := text } v.selection with
    | .error e => .usage l (some .refs) (.reference e)
    | .ok found =>
      let result := Entry.format found.entries
      let done : Event := ⟨.debug, "References generated".toList,
        [("count".toList, .int (countLines false result)), ("path".toList, .text path)]⟩
      { out := result ++ ['\n'], err := l.written (found.events ++ [done]), logging := l }

def runLine (s : Surroundings) (l : Logging) (v : Values) (file : FoundPath) : Outcome :=
  { out := Entry.lineReference (v.relativePath s file) v.selection ++ ['\n'], logging := l }

/-- The part of a document that is laid out, and what replaces it. -/
def layoutOf (settings : Settings) (v : Values) (text : Text) :
    Except Markup.LinesError Markup.Replacement :=
  match v.startLine?, v.endLine? with
  | none, none => .ok (settings.style.replace text 0 text.length)
  | first?, last? => settings.style.formatLines text first? last?

/-- Lays out the document, and prints it or writes it back. -/
def runFormatHtml (settings : Settings) (l : Logging) (v : Values) (file : FoundPath) : Outcome :=
  withDocument l file fun text =>
    match layoutOf settings v text with
    | .error e => .usage l (some .formatHtml) (.lines e)
    | .ok r =>
      let result := r.apply text
      if v.inPlace then
        { err := "HTML formatted.\n".toList
          written? := some (file.path, Text.encode result)
          logging := l }
      else
        { out := result ++ (if result.getLast? = some '\n' then [] else ['\n']), logging := l }

def run (readTree : TreeReader) (s : Surroundings) (settings : Settings) (l : Logging) (v : Values)
    (file : FoundPath) : Command → Outcome
  | refs => runRefs readTree s settings l v file
  | line => runLine s l v file
  | formatHtml => runFormatHtml settings l v file

def parameters : Command → List Parameter
  | refs | line => [.file, .line, .column, .endLine, .endColumn, .root]
  | formatHtml => [.file, .startLine, .endLine, .inPlace]

end Command

namespace Options

def help : List Spelling := [.flag "-h" .help true, .flag "--help" .help true]

def program : Options where
  spellings :=
    [.flag "--debug" .debug true, .flag "--no-debug" .debug false, .takingValue "--config" .config] ++
      help
  mixed := false

def command : Command → Options
  | .refs | .line =>
    { spellings :=
        [.takingValue "--line" .line, .takingValue "-l" .line, .takingValue "--column" .column,
          .takingValue "-c" .column, .takingValue "--end-line" .endLine,
          .takingValue "--end-column" .endColumn, .takingValue "--root" .root] ++ help
      mixed := true }
  | .formatHtml =>
    { spellings :=
        [.takingValue "--start-line" .startLine, .takingValue "--end-line" .endLine,
          .flag "--in-place" .inPlace true, .flag "--no-in-place" .inPlace false] ++ help
      mixed := true }

end Options

def loadSettings (s : Surroundings) (config? : Option FoundPath) : Except Crash Settings := do
  let toml? ← match config? with
    | none => pure none
    | some file =>
      match Text.decode file.place.bytes with
      | .ok t => pure (some t)
      | .error _ => throw .undecodable
  (Settings.load { environment := s.environment, tomlFile? := toml? }).mapError .settings

def runCommand (readTree : TreeReader) (s : Surroundings) (settings : Settings) (l : Logging)
    (c : Command) (args : List Text) : Outcome :=
  let read := do
    let a ← (Arguments.read (Options.command c) args).mapError UsageError.argument
    let v ← Values.read s c.parameters a
    return (a, v)
  match read with
  | .error e => .usage l (some c) e
  | .ok (a, v) =>
    if v.help then .help l (some c)
    else
      match a.operands.drop 1, v.file? with
      | [], some file => c.run readTree s settings l v file
      | [], none => .usage l (some c) (.missingOperand .file)
      | extra, _ => .usage l (some c) (.extraOperands extra)

def readProgram (s : Surroundings) (args : List Text) : Except UsageError (Arguments × Values) := do
  let a ← (Arguments.read Options.program args).mapError .argument
  let v ← Values.read s [.debug, .config] a
  return (a, v)

/-- Runs a command by its name. A name that is not one may be an option that stands behind two
dashes, and is then read again. -/
def runNamed (readTree : TreeReader) (s : Surroundings) (l : Logging) (v : Values) (name : Text)
    (args : List Text) : Outcome :=
  match Command.ofName? name with
  | some c =>
    let l := l.setUp v.debug
    match loadSettings s v.config? with
    | .ok settings => runCommand readTree s settings l c args
    | .error e => .crash l e
  | none =>
    match readProgram s (name :: args) with
    | .error e => .usage l none e
    | .ok (_, v) => if v.help then .help l none else .usage l none (.noSuchCommand name)

def run (readTree : TreeReader) (s : Surroundings) (l : Logging) (args : List Text) : Outcome :=
  if args.isEmpty then { exit := 2, err := Help.text none, logging := l }
  else
    match readProgram s args with
    | .error e => .usage l none e
    | .ok (a, v) =>
      if v.help then .help l none
      else
        match a.operands with
        | [] => .usage l none .missingCommand
        | name :: args => runNamed readTree s l v name args

end CodeReference.CommandLine
