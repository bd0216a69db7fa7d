import CodeReference.Text.Basic
import CodeReference.Text.Quoted.Table

/-!
A text in quotes, for messages. Single quotes enclose it, or double quotes if it holds a single one
and no double one; the quote in use, backslashes and characters without a visible form are escaped.
-/
namespace CodeReference.Text

namespace Quoted

def hexDigit (n : Nat) : Char := if n < 10 then Char.ofNat (48 + n) else Char.ofNat (87 + n)

def hex : (count n : Nat) → Text
  | 0, _ => []
  | count + 1, n => hex count (n / 16) ++ [hexDigit (n % 16)]

def isVisible (c : Char) : Bool :=
  let n := c.toNat
  (0x20 ≤ n && n < 0x7F) ||
    (0x80 ≤ n && !invisible.any fun (first, last) => first ≤ n && n ≤ last)

def encodeChar (quote c : Char) : Text :=
  let n := c.toNat
  if c = quote ∨ c = '\\' then ['\\', c]
  else if c = '\n' then "\\n".toList
  else if c = '\r' then "\\r".toList
  else if c = '\t' then "\\t".toList
  else if isVisible c then [c]
  else if n < 0x100 then "\\x".toList ++ hex 2 n
  else if n < 0x10000 then "\\u".toList ++ hex 4 n
  else "\\U".toList ++ hex 8 n

end Quoted

def quoted (t : Text) : Text :=
  let quote := if t.contains '\'' && !t.contains '"' then '"' else '\''
  [quote] ++ t.flatMap (Quoted.encodeChar quote) ++ [quote]

end CodeReference.Text
