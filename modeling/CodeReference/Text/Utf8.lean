import CodeReference.Text.Quoted

/-!
Text as bytes of UTF-8: the width of a text, the byte offset of a character offset, and decoding
with an exact account of the first byte that cannot be read.
-/
namespace CodeReference.Text

def byteWidth : Text → Nat
  | [] => 0
  | c :: t => c.utf8Size + byteWidth t

def byteOffset (t : Text) (offset : Nat) : Nat := byteWidth (t.take offset)

/-- The byte offset of a bound that counts from the end when it is negative. -/
def byteOffsetFrom (t : Text) (offset : Int) : Nat := byteOffset t (clampBound t.length offset)

/-- The characters that start at byte `first` or later and end at byte `last` or before. -/
def byteSlice (t : Text) (first last : Nat) : Text := go 0 t
where
  go (pos : Nat) : Text → Text
    | [] => []
    | c :: r =>
      let next := pos + c.utf8Size
      if last < next then []
      else if first ≤ pos then c :: go next r
      else go next r

def rowAtByte (t : Text) (offset : Nat) : Nat := go 0 t
where
  go (pos : Nat) : Text → Nat
    | [] => 0
    | c :: r =>
      if offset ≤ pos then 0
      else (if c = '\n' then 1 else 0) + go (pos + c.utf8Size) r

def encode (t : Text) : List UInt8 := (String.ofList t).toUTF8.toList

inductive DecodeFault where
  | startByte | continuationByte | endOfData
deriving Repr, DecidableEq

/-- The undecodable bytes `first` to `last`, the first of which is `byte`. -/
structure DecodeError where
  byte : UInt8
  first : Nat
  last : Nat
  fault : DecodeFault
deriving Repr, DecidableEq

namespace DecodeError

def message (e : DecodeError) : Text :=
  "'utf-8' codec can't decode ".toList ++
    (if e.first = e.last then
      "byte 0x".toList ++ Quoted.hex 2 e.byte.toNat ++ " in position ".toList ++ ofInt e.first
    else "bytes in position ".toList ++ ofInt e.first ++ ['-'] ++ ofInt e.last) ++ ": ".toList ++
    match e.fault with
    | .startByte => "invalid start byte".toList
    | .continuationByte => "invalid continuation byte".toList
    | .endOfData => "unexpected end of data".toList

end DecodeError

/-- The bounds that the second byte of a character must keep, after a first byte of two to four
byte characters; they exclude overlong forms, surrogates and numbers beyond U+10FFFF. -/
def secondByteBounds (b : Nat) : Nat × Nat :=
  if b = 0xE0 then (0xA0, 0xBF)
  else if b = 0xED then (0x80, 0x9F)
  else if b = 0xF0 then (0x90, 0xBF)
  else if b = 0xF4 then (0x80, 0x8F)
  else (0x80, 0xBF)

/-- How many bytes follow a first byte, and the bits it brings; `none` if it starts no character. -/
def leadByte? (b : Nat) : Option (Nat × Nat) :=
  if b < 0x80 then some (0, b)
  else if 0xC2 ≤ b ∧ b ≤ 0xDF then some (1, b - 0xC0)
  else if 0xE0 ≤ b ∧ b ≤ 0xEF then some (2, b - 0xE0)
  else if 0xF0 ≤ b ∧ b ≤ 0xF4 then some (3, b - 0xF0)
  else none

/-- Reads `count` further bytes of a character after `read` bytes of it; the first of them keeps
the bounds `lo` and `hi`. -/
def trailing (count read bits lo hi : Nat) :
    (bytes : List UInt8) → Except (DecodeFault × Nat) (Nat × List UInt8)
  | [] => if count = 0 then .ok (bits, []) else .error (.endOfData, read)
  | b :: r =>
    match count with
    | 0 => .ok (bits, b :: r)
    | k + 1 =>
      if lo ≤ b.toNat ∧ b.toNat ≤ hi then
        trailing k (read + 1) (bits * 64 + (b.toNat - 0x80)) 0x80 0xBF r
      else .error (.continuationByte, read)

/-- Decodes bytes from position `pos` on; `fuel` bounds the number of characters. -/
def decodeFrom : (fuel pos : Nat) → List UInt8 → Except DecodeError Text
  | _, _, [] => .ok []
  | 0, _, _ :: _ => .ok []
  | fuel + 1, pos, b :: r =>
    match leadByte? b.toNat with
    | none => .error ⟨b, pos, pos, .startByte⟩
    | some (count, bits) =>
      let (lo, hi) := secondByteBounds b.toNat
      match trailing count 1 bits lo hi r with
      | .error (fault, read) => .error ⟨b, pos, pos + read - 1, fault⟩
      | .ok (n, rest) => (decodeFrom fuel (pos + 1 + count) rest).map (Char.ofNat n :: ·)

def decode (bytes : List UInt8) : Except DecodeError Text := decodeFrom bytes.length 0 bytes

end CodeReference.Text
