import CodeReference.Text.Quoted

/-!
Text as it is handed in. It is made of code points and may hold surrogates by themselves. These are no
characters, and a text with one of them has no encoding.
-/
namespace CodeReference

inductive CodePoint where
  | char (c : Char)
  /-- The code point U+D800 plus `n`. -/
  | surrogate (n : Fin 0x800)
deriving Repr, DecidableEq

namespace CodePoint

def ofNat (n : Nat) : CodePoint :=
  if h : 0xD800 ≤ n ∧ n < 0xE000 then surrogate ⟨n - 0xD800, by omega⟩ else char (Char.ofNat n)

def isSurrogate : CodePoint → Bool
  | char _ => false
  | surrogate _ => true

/-- A code point as a character. A surrogate is taken for the replacement character: like that, it is
no blank, ends no line, and is no part of any name or mark that is looked for. -/
def toChar : CodePoint → Char
  | char c => c
  | surrogate _ => '\uFFFD'

end CodePoint

abbrev Source := List CodePoint

namespace Source

def ofText (t : Text) : Source := t.map .char

instance : Coe Text Source := ⟨ofText⟩

/-- The characters of a source, one for each code point. -/
def text (s : Source) : Text := s.map CodePoint.toChar

/-- The surrogates `first` to `last` stand together and cannot be encoded. The first of them is U+D800
plus `surrogate`. -/
structure EncodeError where
  surrogate : Fin 0x800
  first : Nat
  last : Nat
deriving Repr, DecidableEq

namespace EncodeError

def message (e : EncodeError) : Text :=
  "'utf-8' codec can't encode ".toList ++
    (if e.first = e.last then
      "character '\\u".toList ++ Text.Quoted.hex 4 (0xD800 + e.surrogate) ++
        "' in position ".toList ++ Text.ofInt e.first
    else "characters in position ".toList ++ Text.ofInt e.first ++ ['-'] ++ Text.ofInt e.last) ++
    ": surrogates not allowed".toList

end EncodeError

/-- The text that a source is the same as, if all of it are characters. Only then it has an encoding;
otherwise the first surrogates are what is wrong. -/
def toText (s : Source) : Except EncodeError Text := go 0 s
where
  go (pos : Nat) : Source → Except EncodeError Text
    | [] => .ok []
    | .char c :: s => (go (pos + 1) s).map (c :: ·)
    | .surrogate n :: s => .error ⟨n, pos, pos + (s.takeWhile CodePoint.isSurrogate).length⟩

end Source
end CodeReference
