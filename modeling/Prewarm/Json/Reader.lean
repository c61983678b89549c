import Prewarm.Bytes
import Prewarm.Decimal
import Prewarm.Json.Draft

/-!
# Reading JSON

Strict JSON over octets: blanks around the document are skipped and nothing may follow it, no comma
stands before a closing bracket, numbers have no leading zeros, and a raw control character in a
string is an error. Reading never fails; what is wrong becomes part of the draft.
-/

namespace Prewarm.Json.Reader

/-- A part of a string: an octet as it stands, or the 16-bit unit of an escape. -/
inductive Piece where
  | octet (b : UInt8)
  | unit (u : Nat)

/-- The rest of a document after its blanks. -/
def skipBlanks (s : Bytes) : Bytes :=
  s.dropWhile (fun b => b == 0x20 || b == 0x09 || b == 0x0a || b == 0x0d)

/-- The fault of octets where something else is expected. -/
def faultAt : Bytes → Fault
  | [] => .cut
  | _ => .wrong

/-! ## Strings -/

/-- The unit that four digits in base sixteen write. -/
def unit? (a b c d : UInt8) : Option Nat := do
  return (((← Bytes.hexValue? a) * 16 + (← Bytes.hexValue? b)) * 16 + (← Bytes.hexValue? c)) * 16 +
    (← Bytes.hexValue? d)

/-- The octet that an escape of one letter stands for. -/
def escaped? (b : UInt8) : Option UInt8 :=
  match b.toNat with
  | 0x22 => some 0x22
  | 0x5c => some 0x5c
  | 0x2f => some 0x2f
  | 0x62 => some 0x08
  | 0x66 => some 0x0c
  | 0x6e => some 0x0a
  | 0x72 => some 0x0d
  | 0x74 => some 0x09
  | _ => none

/-- Puts a piece before others. -/
def consPiece (p : Piece) (r : List Piece × Except Fault Bytes) :
    List Piece × Except Fault Bytes := (p :: r.1, r.2)

/-- The pieces of a string after its opening quote, and what follows its closing one. -/
def pieces : Bytes → List Piece × Except Fault Bytes
  | [] | [0x5c] => ([], .error .cut)
  | 0x22 :: r => ([], .ok r)
  | 0x5c :: 0x75 :: a :: b :: c :: d :: r =>
    match unit? a b c d with
    | some u => consPiece (.unit u) (pieces r)
    | none => ([], .error .wrong)
  | 0x5c :: 0x75 :: _ => ([], .error .cut)
  | 0x5c :: e :: r =>
    match escaped? e with
    | some b => consPiece (.octet b) (pieces r)
    | none => ([], .error .wrong)
  | b :: r => if b < 0x20 then ([], .error .wrong) else consPiece (.octet b) (pieces r)

/-- Whether a unit is the first half of a surrogate pair. -/
def isLeading (u : Nat) : Bool := 0xd800 ≤ u && u < 0xdc00

/-- Whether a unit is the second half of a surrogate pair. -/
def isTrailing (u : Nat) : Bool := 0xdc00 ≤ u && u < 0xe000

/-- The octets of the character with a code point. -/
def octetsOf (n : Nat) : Bytes := Bytes.ofString (String.singleton (Char.ofNat n))

/-- The octets that pieces denote, none if a unit is half of a pair. -/
def octets? : List Piece → Option Bytes
  | [] => some []
  | .octet b :: ps => (octets? ps).map (b :: ·)
  | .unit u :: .unit v :: ps =>
    if isLeading u then
      if isTrailing v then
        (octets? ps).map (octetsOf (0x10000 + (u - 0xd800) * 0x400 + (v - 0xdc00)) ++ ·)
      else none
    else if isTrailing u then none
    else (octets? (.unit v :: ps)).map (octetsOf u ++ ·)
  | .unit u :: ps =>
    if isLeading u ∨ isTrailing u then none
    else (octets? ps).map (octetsOf u ++ ·)

/-- Pieces without a first half at their end, whose second half may still come. -/
def dropOpen (ps : List Piece) : List Piece :=
  match ps.getLast? with
  | some (.unit u) => if isLeading u then ps.dropLast else ps
  | _ => ps

/-- The text of a string after its opening quote, and what follows the string if anything can. -/
def string (s : Bytes) : Except Flaw String × Option Bytes :=
  match pieces s with
  | (ps, .ok rest) =>
    match (octets? ps).bind Bytes.toString? with
    | some t => (.ok t, some rest)
    | none => (.error ⟨.wrong, none⟩, some rest)
  | (ps, .error f) =>
    (.error ⟨if (octets? (dropOpen ps)).isSome then f else .wrong, some f⟩, none)

/-! ## Numbers and words -/

/-- Whether an octet is a digit. -/
def isDigit (b : UInt8) : Bool := 0x30 ≤ b && b ≤ 0x39

/-- The value of a digit. -/
def digitValue (b : UInt8) : Nat := b.toNat - 0x30

/-- The value of digits, the most significant first. -/
def digitsValue (ds : Bytes) : Nat := ds.foldl (fun n b => 10 * n + digitValue b) 0

/-- At least one digit, and what follows the digits. Those who pass over a number that breaks off
do not wait for the rest of it. -/
def digits (s : Bytes) : Except Flaw (Bytes × Bytes) :=
  let ds := s.takeWhile isDigit
  if ds = [] then .error ⟨faultAt s, some .wrong⟩ else .ok (ds, s.dropWhile isDigit)

/-- The whole part of a number: digits without a leading zero, or zero. -/
def whole : Bytes → Except Flaw (Bytes × Bytes)
  | 0x30 :: b :: r => if isDigit b then .error ⟨.wrong, some .wrong⟩ else .ok ([0x30], b :: r)
  | s => digits s

/-- The fraction of a number, if it has one. -/
def fraction : Bytes → Except Flaw (Option Bytes × Bytes)
  | 0x2e :: r => do
    let (ds, rest) ← digits r
    return (some ds, rest)
  | s => .ok (none, s)

/-- The exponent of a number after its letter. -/
def signedExponent : Bytes → Except Flaw (Int × Bytes)
  | 0x2b :: r => do
    let (ds, rest) ← digits r
    return (digitsValue ds, rest)
  | 0x2d :: r => do
    let (ds, rest) ← digits r
    return (-(digitsValue ds : Int), rest)
  | r => do
    let (ds, rest) ← digits r
    return (digitsValue ds, rest)

/-- The exponent of a number, if it has one. -/
def exponent : Bytes → Except Flaw (Option Int × Bytes)
  | b :: r =>
    if b = 0x65 ∨ b = 0x45 then do
      let (e, rest) ← signedExponent r
      return (some e, rest)
    else .ok (none, b :: r)
  | [] => .ok (none, [])

/-- The number that its parts denote. A whole number that fits in 64 bits is one, any other number
is a double; zero with a minus sign is none but a double either. -/
def numeral (negative : Bool) (ws : Bytes) (fs : Option Bytes) (e : Option Int) : Draft :=
  let n : Int := if negative then -(digitsValue ws : Int) else digitsValue ws
  if fs.isNone ∧ e.isNone ∧ -Nat.pow 2 63 ≤ n ∧ n < Nat.pow 2 64 ∧ ¬(negative ∧ n = 0) then
    .integer n
  else
    let d := Decimal.ofDigits (ws.map digitValue) ((fs.getD []).map digitValue) (e.getD 0)
    match d.toFloat? with
    | some x => .real (if negative then -x else x)
    | none => .flawedScalar ⟨.wrong, none⟩

/-- A number without its sign, and what follows it if anything can. -/
def magnitude (negative : Bool) (s : Bytes) : Draft × Option Bytes :=
  let parts : Except Flaw (Draft × Bytes) := do
    let (ws, s) ← whole s
    let (fs, s) ← fraction s
    let (e, s) ← exponent s
    return (numeral negative ws fs e, s)
  match parts with
  | .ok (d, rest) => (d, some rest)
  | .error f => (.flawedScalar f, none)

/-- A word, and what follows it if anything can. -/
def word (w : String) (d : Draft) (s : Bytes) : Draft × Option Bytes :=
  let w := Bytes.ofString w
  if w.isPrefixOf s then (d, some (s.drop w.length))
  else
    let f : Fault := if s.isPrefixOf w then .cut else .wrong
    (.flawedScalar ⟨f, some f⟩, none)

/-! ## Values -/

mutual
/-- A value after its blanks, and what follows it if anything can. The fuel bounds the brackets and
items read. -/
def value : Nat → Bytes → Draft × Option Bytes
  | 0, _ => (.missing .cut, none)
  | n + 1, s =>
    match skipBlanks s with
    | [] => (.missing .cut, none)
    | 0x22 :: r =>
      match string r with
      | (.ok t, rest) => (.text t, rest)
      | (.error f, rest) => (.flawedText f, rest)
    | 0x5b :: r =>
      match skipBlanks r with
      | [] => (.array [] (some .cut), none)
      | 0x5d :: rest => (.array [] none, some rest)
      | r =>
        let (vs, stop, rest) := items n r
        (.array vs stop, rest)
    | 0x7b :: r =>
      match skipBlanks r with
      | 0x7d :: rest => (.record [] none, some rest)
      | r =>
        let (fs, stop, rest) := fields n r
        (.record fs stop, rest)
    | 0x6e :: r => word "ull" .null r
    | 0x74 :: r => word "rue" (.bool true) r
    | 0x66 :: r => word "alse" (.bool false) r
    | 0x2d :: r => magnitude true r
    | b :: r => if isDigit b then magnitude false (b :: r) else (.missing .wrong, none)

/-- The items of an array up to its closing bracket. -/
def items : Nat → Bytes → List Draft × Option Fault × Option Bytes
  | 0, _ => ([], some .cut, none)
  | n + 1, s =>
    match value n s with
    | (d, none) => ([d], none, none)
    | (d, some s) =>
      match skipBlanks s with
      | 0x2c :: r =>
        let (ds, stop, rest) := items n r
        (d :: ds, stop, rest)
      | 0x5d :: rest => ([d], none, some rest)
      | s => ([d], some (faultAt s), none)

/-- The fields of an object up to its closing bracket. -/
def fields : Nat → Bytes → List (Except Flaw String × Draft) × Option Fault × Option Bytes
  | 0, _ => ([], some .cut, none)
  | n + 1, s =>
    match skipBlanks s with
    | 0x22 :: r =>
      match string r with
      | (k, none) => ([(k, .missing .cut)], none, none)
      | (k, some s) =>
        match skipBlanks s with
        | 0x3a :: r =>
          match value n r with
          | (d, none) => ([(k, d)], none, none)
          | (d, some s) =>
            match skipBlanks s with
            | 0x2c :: r =>
              let (fs, stop, rest) := fields n r
              ((k, d) :: fs, stop, rest)
            | 0x7d :: rest => ([(k, d)], none, some rest)
            | s => ([(k, d)], some (faultAt s), none)
        | s => ([(k, .missing (faultAt s))], none, none)
    | s => ([(.error ⟨faultAt s, some (faultAt s)⟩, .missing (faultAt s))], none, none)
end

end Prewarm.Json.Reader

namespace Prewarm.Json

/-- The document that octets write. Every bracket and item takes an octet, so twice their number is
fuel enough. -/
def Document.ofBytes (s : Bytes) : Document :=
  let (d, rest) := Reader.value (2 * s.length + 2) s
  ⟨d, rest.any (Reader.skipBlanks · ≠ [])⟩

end Prewarm.Json
