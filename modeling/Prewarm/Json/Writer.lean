import Prewarm.Decimal
import Prewarm.Json

/-!
# Writing JSON

A value as a text without blanks. Strings escape the quote, the backslash and the controls, and
nothing else. A number that is not whole is written with the fewest digits that stand for it, and an
exponent.
-/

namespace Prewarm.Json

/-- A digit in base sixteen. -/
def hexDigit (n : Nat) : Char :=
  if n < 10 then Char.ofNat ('0'.toNat + n) else Char.ofNat ('a'.toNat + (n - 10))

/-- A character inside a string. -/
def writeChar (c : Char) : List Char :=
  match c with
  | '"' => ['\\', '"']
  | '\\' => ['\\', '\\']
  | '\n' => ['\\', 'n']
  | '\r' => ['\\', 'r']
  | '\t' => ['\\', 't']
  | '\x08' => ['\\', 'b']
  | '\x0c' => ['\\', 'f']
  | c =>
    if c.toNat < 0x20 then
      ['\\', 'u', '0', '0', hexDigit (c.toNat / 16), hexDigit (c.toNat % 16)]
    else [c]

/-- A text as a string. -/
def writeString (s : String) : List Char :=
  ['"'] ++ s.toList.flatMap writeChar ++ ['"']

/-- A whole number. -/
def writeInt (n : Int) : List Char :=
  if n < 0 then '-' :: Nat.toDigits 10 n.natAbs else Nat.toDigits 10 n.natAbs

/-- A number that is not whole. -/
def writeReal (x : Float) : List Char :=
  let d := Decimal.ofFloat x
  (if x.toBits.toNat < Nat.pow 2 63 then [] else ['-']) ++ Nat.toDigits 10 d.digits ++ ['e'] ++
    writeInt d.exponent

mutual
/-- The text of a value. -/
def write : Json → List Char
  | .null => ['n', 'u', 'l', 'l']
  | .bool true => ['t', 'r', 'u', 'e']
  | .bool false => ['f', 'a', 'l', 's', 'e']
  | .integer n => writeInt n
  | .real x => writeReal x
  | .text t => writeString t
  | .array items => ['['] ++ writeItems items ++ [']']
  | .record fields => ['\x7b'] ++ writeFields fields ++ ['\x7d']

/-- The items of an array, with commas between them. -/
def writeItems : List Json → List Char
  | [] => []
  | [v] => write v
  | v :: vs => write v ++ [','] ++ writeItems vs

/-- The fields of a record, with commas between them. -/
def writeFields : List (String × Json) → List Char
  | [] => []
  | [(k, v)] => writeString k ++ [':'] ++ write v
  | (k, v) :: fs => writeString k ++ [':'] ++ write v ++ [','] ++ writeFields fs
end

/-- A value as a text. -/
def render (j : Json) : String := String.ofList j.write

end Prewarm.Json
