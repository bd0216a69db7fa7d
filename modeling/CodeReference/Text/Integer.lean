import CodeReference.Text.Blank

/-!
Integers in text: a sign, then digits with single underscores between them, blanks around it all.
-/
namespace CodeReference.Text

/-- The zeros of the decimal digits beyond ASCII; nine more digits follow each. -/
def digitZeros : List Nat :=
  [0x660, 0x6F0, 0x7C0, 0x966, 0x9E6, 0xA66, 0xAE6, 0xB66, 0xBE6, 0xC66, 0xCE6, 0xD66, 0xDE6,
   0xE50, 0xED0, 0xF20, 0x1040, 0x1090, 0x17E0, 0x1810, 0x1946, 0x19D0, 0x1A80, 0x1A90, 0x1B50,
   0x1BB0, 0x1C40, 0x1C50, 0xA620, 0xA8D0, 0xA900, 0xA9D0, 0xA9F0, 0xAA50, 0xABF0, 0xFF10,
   0x104A0, 0x10D30, 0x11066, 0x110F0, 0x11136, 0x111D0, 0x112F0, 0x11450, 0x114D0, 0x11650,
   0x116C0, 0x11730, 0x118E0, 0x11950, 0x11C50, 0x11D50, 0x11DA0, 0x16A60, 0x16AC0, 0x16B50,
   0x1D7CE, 0x1D7D8, 0x1D7E2, 0x1D7EC, 0x1D7F6, 0x1E140, 0x1E2F0, 0x1E950, 0x1FBF0]

def asciiDigit? (c : Char) : Option Nat :=
  if '0' ≤ c ∧ c ≤ '9' then some (c.toNat - 48) else none

def digit? (c : Char) : Option Nat :=
  match asciiDigit? c with
  | some d => some d
  | none =>
    (digitZeros.find? fun z => z ≤ c.toNat && c.toNat ≤ z + 9).map fun z => c.toNat - z

/-- Reads digits with single underscores between them; `acc` is the value of those before. Where a
digit is needed, neither an underscore nor the end may stand. -/
def digitsFrom? (digit : Char → Option Nat) : (needsDigit : Bool) → (acc : Nat) → Text → Option Nat
  | needsDigit, acc, [] => if needsDigit then none else some acc
  | needsDigit, acc, c :: t =>
    match digit c with
    | some d => digitsFrom? digit false (acc * 10 + d) t
    | none => if c = '_' ∧ !needsDigit then digitsFrom? digit true acc t else none

def signed? (digit : Char → Option Nat) : Text → Option Int
  | '-' :: t => (digitsFrom? digit true 0 t).map fun n => -(n : Int)
  | '+' :: t => (digitsFrom? digit true 0 t).map Int.ofNat
  | t => (digitsFrom? digit true 0 t).map Int.ofNat

/-- The most digits an integer may be written with. -/
def maxDigits : Nat := 4300

/-- An integer with blanks around it, in digits of any script. -/
def toInt? (t : Text) : Option Int :=
  if (t.countP fun c => (digit? c).isSome) ≤ maxDigits then signed? digit? (trim t) else none

end CodeReference.Text
