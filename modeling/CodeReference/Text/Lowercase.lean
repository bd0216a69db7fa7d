import CodeReference.Text.Basic
import CodeReference.Text.Lowercase.Table

/-!
Lower-casing by the rules of Unicode. A capital becomes its small letter; a capital sigma becomes a
final one at the end of a word; a capital I with a dot becomes two characters.
-/
namespace CodeReference.Text

namespace Lowercase

def inRanges (ranges : List (Nat × Nat)) (c : Char) : Bool :=
  ranges.any fun (first, last) => first ≤ c.toNat && c.toNat ≤ last

def isCased (c : Char) : Bool := inRanges cased c

def isIgnorable (c : Char) : Bool := inRanges ignorable c

/-- The small letter of a character, where it is one character. -/
def char (c : Char) : Char :=
  if c.toNat < 0x80 then c.toLower
  else
    match runs.find? fun (first, last, step, _) =>
        first ≤ c.toNat && c.toNat ≤ last && (c.toNat - first) % step = 0 with
    | some (_, _, _, shift) => Char.ofNat (c.toNat + shift).toNat
    | none => c

/-- Whether the next character that case rules look at is cased. -/
def meetsCased (t : Text) : Bool :=
  match t.dropWhile isIgnorable with
  | c :: _ => isCased c
  | [] => false

/-- Lower-cases what follows the characters `before`, the last of which comes first. -/
def after (before : Text) : Text → Text
  | [] => []
  | c :: t =>
    let small :=
      if c = '\u03A3' then
        if meetsCased before && !meetsCased t then ['\u03C2'] else ['\u03C3']
      else if c = '\u0130' then ['i', '\u0307']
      else [char c]
    small ++ after (c :: before) t

end Lowercase

def lowercase (t : Text) : Text := Lowercase.after [] t

end CodeReference.Text
