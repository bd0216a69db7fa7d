import CodeReference.Text.Basic

/-!
Lines of a text. A line ends at a line feed only; a carriage return before it belongs to the line
break when the length of the line is measured. Lines are counted from zero.
-/
namespace CodeReference.Text

/-- The offsets after each line feed of a text, counted from `base`. -/
def breaks (base : Nat) : Text → List Nat
  | [] => []
  | c :: t => if c = '\n' then (base + 1) :: breaks (base + 1) t else breaks (base + 1) t

def lineStarts (t : Text) : List Nat := 0 :: breaks 0 t

def lineCount (t : Text) : Nat := (lineStarts t).length

def lineStart (t : Text) (line : Nat) : Nat := (lineStarts t).getD line 0

/-- The offset at which a line's content stops, its line feed left out. -/
def lineStop (t : Text) (line : Nat) : Nat :=
  match (lineStarts t)[line + 1]? with
  | some next => next - 1
  | none => t.length

def lineLength (t : Text) (line : Nat) : Nat :=
  let start := lineStart t line
  let stop := lineStop t line
  if start < stop ∧ t[stop - 1]? = some '\r' then stop - 1 - start else stop - start

/-- The length of a line, where negative numbers count lines from the end. The last line is then
measured up to the start of the first one, so `-1` gives a negative length. -/
def lineLength? (t : Text) (line : Int) : Option Int :=
  let count : Int := lineCount t
  if line = -1 then some (-1 - (lineStart t (lineCount t - 1) : Int))
  else
    let k := if line < 0 then line + count else line
    if 0 ≤ k ∧ k < count then some (lineLength t k.toNat) else none

/-- The last line that starts at or before an offset; offsets past the end count as the end. -/
def lineAt (t : Text) (offset : Nat) : Nat :=
  ((lineStarts t).takeWhile (· ≤ min offset t.length)).length - 1

end CodeReference.Text
