import CodeReference.Journal

/-!
Where notes go. A program that begins sets the level; if nothing takes the notes yet, it has them
written as error output, and otherwise it leaves them to what takes them.
-/
namespace CodeReference.CommandLine

/-- What takes notes: it writes them, or drops them. -/
inductive HandlerKind where
  | writing | dropping
deriving Repr, DecidableEq

structure Handler where
  kind : HandlerKind
  level : Nat
deriving Repr, DecidableEq

structure Logging where
  level : Nat := 30
  handlers : List Handler := []
deriving Repr, DecidableEq

namespace Logging

def setUp (debug : Bool) (l : Logging) : Logging :=
  let level := (if debug then Level.debug else Level.info).number
  if l.handlers.isEmpty then ⟨level, [⟨.writing, level⟩]⟩
  else ⟨level, l.handlers.map fun h => { h with level := level }⟩

/-- What is written for events: the line of each, by every handler that writes events of its level. -/
def written (l : Logging) (events : List Event) : Text :=
  events.flatMap fun e =>
    if l.level ≤ e.level.number then
      l.handlers.flatMap fun h =>
        if h.kind == .writing && h.level ≤ e.level.number then e.line ++ ['\n'] else []
    else []

end Logging
end CodeReference.CommandLine
