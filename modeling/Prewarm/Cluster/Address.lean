import Prewarm.Bytes
import Prewarm.Text.Split

/-!
# Addresses

Where a request goes: the path and the query that the text of an address writes. A question mark
ends the path, and a number sign ends the address. A character that can stand in neither makes the
whole address void, so that no request is sent to it.
-/

namespace Prewarm.Cluster

/-- Where a request goes. -/
structure Address where
  path : String
  query : List (String × String) := []
  deriving DecidableEq, Repr

namespace Address

/-! ## Queries -/

/-- An octet as a percent sign and two digits in base sixteen. -/
def percent (b : UInt8) : List Char :=
  let digit (n : Nat) : Char := Char.ofNat (if n < 10 then '0'.toNat + n else 'A'.toNat + (n - 10))
  ['%', digit (b.toNat / 16), digit (b.toNat % 16)]

/-- Whether an octet stands for itself in a query. -/
def isPlain (b : UInt8) : Bool :=
  let c := Char.ofNat b.toNat
  c.isAlphanum || c = '*' || c = '-' || c = '.' || c = '_'

/-- A text as a part of a query. -/
def encode (s : String) : List Char :=
  (Bytes.ofString s).flatMap fun b =>
    if b = 0x20 then ['+'] else if isPlain b then [Char.ofNat b.toNat] else percent b

/-- The octets that a part of a query stands for. -/
def decodeOctets : Bytes → Bytes
  | 0x25 :: a :: b :: r =>
    match Bytes.hexValue? a, Bytes.hexValue? b with
    | some m, some n => UInt8.ofNat (16 * m + n) :: decodeOctets r
    | _, _ => 0x25 :: decodeOctets (a :: b :: r)
  | 0x2b :: r => 0x20 :: decodeOctets r
  | b :: r => b :: decodeOctets r
  | [] => []

/-- The text that a part of a query stands for. -/
def decode (s : List Char) : String :=
  (decodeOctets (Bytes.ofString (String.ofList s))).toStringRepaired

/-- Names and values as a query. -/
def writeQuery (q : List (String × String)) : List Char :=
  Text.join ['&'] (q.map (fun (k, v) => encode k ++ ['='] ++ encode v))

/-- The names and values in a query. A name without a value has an empty one. -/
def readQuery (s : List Char) : List (String × String) :=
  ((Text.parts '&' s).filter (· ≠ [])).map fun p =>
    let (k, v) := (Text.cutFirst '=' p).getD (p, [])
    (decode k, decode v)

/-! ## Paths -/

/-- Whether a character can stand in a query. -/
def isQueryChar (c : Char) : Bool :=
  0x21 ≤ c.toNat && c.toNat != 0x7f && c != '"' && c != '#' && c != '<' && c != '>'

/-- Whether a character can stand in a path. -/
def isPathChar (c : Char) : Bool := (isQueryChar c && c != '?' && c.toNat != 0x60) || c = '"'

/-- A character as it is sent in a path. -/
def pathChar (c : Char) : List Char :=
  if c.toNat < 0x80 ∧ c ≠ '"' ∧ c ≠ '\x7b' ∧ c ≠ '\x7d' then [c]
  else (Bytes.ofString (String.singleton c)).flatMap percent

/-- A segment with each percent sign and its digits for a dot replaced by the dot. -/
def plainDots : List Char → List Char
  | '%' :: '2' :: 'e' :: r | '%' :: '2' :: 'E' :: r => '.' :: plainDots r
  | c :: r => c :: plainDots r
  | [] => []

/-- The segments of a path, after others in reverse. A dot stands for the place itself, and two dots
stand for the place above. -/
def resolve (above : List (List Char)) : List (List Char) → List (List Char)
  | [] => above.reverse
  | p :: ps =>
    let ending := if ps.isEmpty then [[]] else []
    match plainDots p with
    | ['.'] => resolve (ending ++ above) ps
    | ['.', '.'] => resolve (ending ++ above.drop 1) ps
    | _ => resolve (p :: above) ps

/-- A path as it is sent. A backslash parts segments as a slash does. -/
def sentPath (s : List Char) : List Char :=
  let slashed := s.map (fun c => if c = '\\' then '/' else c)
  Text.join ['/'] ([] :: resolve [] ((Text.parts '/' slashed).drop 1)) |>.flatMap pathChar

/-! ## Addresses -/

/-- The most octets that an address takes. -/
def maxSize : Nat := 65534

/-- The address that a text writes, if it is not void. -/
def parse? (s : String) : Option Address :=
  let body := s.toList.takeWhile (· ≠ '#')
  let path := body.takeWhile (· ≠ '?')
  let query := (body.dropWhile (· ≠ '?')).drop 1
  if s.utf8ByteSize ≤ maxSize ∧ path.all isPathChar ∧ query.all isQueryChar then
    some ⟨String.ofList (sentPath path), readQuery query⟩
  else none

/-- The address of a place with a query. -/
def to? (place : String) (query : List (String × String)) : Option Address :=
  parse? (place ++ "?" ++ String.ofList (writeQuery query))

end Address

end Prewarm.Cluster
