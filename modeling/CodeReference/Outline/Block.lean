import CodeReference.Outline.Header

/-!
Blocks of a text whose structure is its indentation. A class or function header opens a block,
which lasts until the next significant line that is not indented more than the header. Blank lines
and comment lines are not significant.
-/
namespace CodeReference.Outline

inductive BlockKind where
  | classBlock
  | defBlock
deriving Repr, DecidableEq

namespace BlockKind

def name : BlockKind → Text
  | classBlock => "class".toList
  | defBlock => "def".toList

def ofName? (t : Text) : Option BlockKind :=
  if t = "class".toList then some classBlock
  else if t = "def".toList then some defBlock
  else none

end BlockKind

/-- A block: its name, its name with that of the class around it, the indentation of its header,
and its first and last line. -/
structure Block where
  kind : BlockKind
  name : Text
  label : Text
  indent : Int
  start : Int
  stop : Int
deriving Repr, DecidableEq

namespace Block

def contains (b : Block) (line : Int) : Bool := b.start ≤ line && line ≤ b.stop

def width (b : Block) : Int := b.stop - b.start

end Block

/-- The lines of a text, without line feeds and the carriage return before one. -/
def lines (t : Text) : List Text := dropReturns (Text.splitOn '\n' t)
where
  dropReturns : List Text → List Text
    | [] => []
    | [last] => [last]
    | l :: r => (if l.getLast? = some '\r' then l.dropLast else l) :: dropReturns r

/-- The indentation of a line: one for a space, `tabWidth` for a tab. -/
def indentOf (tabWidth : Int) : Text → Int
  | c :: t =>
    if c = ' ' then 1 + indentOf tabWidth t
    else if c = '\t' then tabWidth + indentOf tabWidth t
    else 0
  | [] => 0

def isSignificant (trimmed : Text) : Bool := !trimmed.isEmpty && !trimmed.startsWith ['#']

def header? (trimmed : Text) : Option (BlockKind × Text) :=
  match className? trimmed with
  | some name => some (.classBlock, name)
  | none => (functionName? trimmed).map fun name => (.defBlock, name)

/-- A block during the scan: its last line is not known while it is open. -/
structure Draft where
  kind : BlockKind
  name : Text
  label : Text
  indent : Int
  start : Nat
  stop? : Option Int
deriving Repr, DecidableEq

namespace Draft

def isOpen (d : Draft) : Bool := d.stop?.isNone

/-- The block, which lasts to the last line if it is still open. -/
def finish (lastLine : Int) (d : Draft) : Block :=
  { kind := d.kind, name := d.name, label := d.label, indent := d.indent, start := d.start,
    stop := d.stop?.getD lastLine }

end Draft

/-- Ends open blocks before `line`, from the innermost outward, up to the first that is indented
less than the line. The drafts are given newest first, so the open ones among them are a stack. -/
def closeBefore (line : Nat) (indent : Int) : (drafts : List Draft) → List Draft
  | [] => []
  | d :: ds =>
    if d.isOpen then
      if indent ≤ d.indent then { d with stop? := some (line - 1) } :: closeBefore line indent ds
      else d :: ds
    else d :: closeBefore line indent ds

/-- The innermost open class; the drafts are given newest first. -/
def owner? (drafts : List Draft) : Option Draft :=
  drafts.find? fun d => d.isOpen && d.kind == .classBlock

def qualify (owner : Option Draft) (name : Text) : Text :=
  match owner with
  | some c => c.name ++ ['.'] ++ name
  | none => name

/-- Reads one line: it ends the blocks that do not reach it and opens one if it is a header. The
drafts are kept newest first. -/
def scanLine (tabWidth : Int) (drafts : List Draft) (entry : Text × Nat) : List Draft :=
  let (line, number) := entry
  let trimmed := Text.trim line
  if !isSignificant trimmed then drafts
  else
    let indent := indentOf tabWidth line
    let drafts := closeBefore number indent drafts
    match header? trimmed with
    | none => drafts
    | some (.classBlock, name) => ⟨.classBlock, name, name, indent, number, none⟩ :: drafts
    | some (.defBlock, name) =>
      ⟨.defBlock, name, qualify (owner? drafts) name, indent, number, none⟩ :: drafts

/-- The blocks of a text, in the order of their headers. -/
def blocks (tabWidth : Int) (t : Text) : List Block :=
  let ls := lines t
  (ls.zipIdx.foldl (scanLine tabWidth) []).reverse.map (Draft.finish (ls.length - 1))

/-- The narrowest block of a kind that contains a line; the first of equally narrow ones. -/
def enclosing? (bs : List Block) (line : Int) (kind : BlockKind) : Option Block :=
  bs.foldl (fun best b =>
    if b.kind = kind ∧ b.contains line then
      match best with
      | some c => if b.width < c.width then some b else best
      | none => some b
    else best) none

end CodeReference.Outline
