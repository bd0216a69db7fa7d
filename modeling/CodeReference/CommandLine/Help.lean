import CodeReference.Text.Basic

/-!
The commands of the program, how each is called, and what their help says.
-/
namespace CodeReference.CommandLine

inductive Command where
  | refs | line | formatHtml
deriving Repr, DecidableEq

namespace Command

def name : Command → Text
  | refs => "refs".toList
  | line => "line".toList
  | formatHtml => "format-html".toList

def all : List Command := [refs, line, formatHtml]

def ofName? (t : Text) : Option Command := all.find? fun c => c.name == t

end Command

/-- The program itself, or one of its commands. -/
abbrev Scope := Option Command

namespace Scope

def program : Text := "quickrefer".toList

def call : Scope → Text
  | none => program
  | some c => program ++ [' '] ++ c.name

def usage (s : Scope) : Text :=
  "Usage: ".toList ++ s.call ++
    (match s with
      | none => " [OPTIONS] COMMAND [ARGS]...".toList
      | some _ => " [OPTIONS] FILE".toList) ++ ['\n']

end Scope

namespace Help

def lines (ls : List String) : Text := ls.flatMap fun l => l.toList ++ ['\n']

def program : Text :=
  lines [
    "",
    "  Generate \x60path:line label\x60 code references and format HTML.",
    "",
    "Options:",
    "  --debug / --no-debug  Enable debug logging.",
    "  --config FILE         TOML settings file.",
    "  -h, --help            Show this message and exit.",
    "",
    "Commands:",
    "  format-html  Re-indent FILE, or only the given line range of it.",
    "  line         Print the plain \x60path:line\x60 reference for the selection in...",
    "  refs         Print references for the selection in FILE."]

def position : Text :=
  lines [
    "",
    "Options:",
    "  -l, --line INTEGER RANGE    Cursor / selection start line (1-based).  [x>=1;",
    "                              required]",
    "  -c, --column INTEGER RANGE  Cursor / selection start column (1-based).",
    "                              [default: 1; x>=1]",
    "  --end-line INTEGER RANGE    Selection end line (1-based).  [x>=1]",
    "  --end-column INTEGER RANGE  Selection end column (1-based).  [x>=1]",
    "  --root DIRECTORY            Workspace root the reference path is relative to.",
    "  -h, --help                  Show this message and exit."]

def command : Command → Text
  | .refs => lines ["", "  Print references for the selection in FILE."] ++ position
  | .line =>
    lines ["", "  Print the plain \x60path:line\x60 reference for the selection in FILE."] ++ position
  | .formatHtml =>
    lines [
      "",
      "  Re-indent FILE, or only the given line range of it.",
      "",
      "Options:",
      "  --start-line INTEGER RANGE  First line to format (1-based).  [x>=1]",
      "  --end-line INTEGER RANGE    Last line to format (1-based).  [x>=1]",
      "  --in-place / --no-in-place  Write the result back to FILE instead of printing",
      "                              it.",
      "  -h, --help                  Show this message and exit."]

def text (s : Scope) : Text :=
  s.usage ++
    match s with
    | none => program
    | some c => command c

end Help
end CodeReference.CommandLine
