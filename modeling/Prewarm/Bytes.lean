/-!
# Octets and texts

A document is a sequence of octets; a text is a document that is well-formed UTF-8.
-/

namespace Prewarm

/-- A sequence of octets. -/
abbrev Bytes := List UInt8

namespace Bytes

/-- The octets of a text. -/
def ofString (s : String) : Bytes := s.toUTF8.toList

/-- The text that octets spell, if they are well-formed UTF-8. -/
def toString? (b : Bytes) : Option String := String.fromUTF8? b.toByteArray

/-- The value of a digit in base sixteen. -/
def hexValue? (b : UInt8) : Option Nat :=
  if 0x30 ≤ b ∧ b ≤ 0x39 then some (b.toNat - 0x30)
  else if 0x41 ≤ b ∧ b ≤ 0x46 then some (b.toNat - 0x37)
  else if 0x61 ≤ b ∧ b ≤ 0x66 then some (b.toNat - 0x57)
  else none

/-! ## Octets that are not well-formed -/

/-- How many octets follow the first one of a character, and the bounds of the second. -/
def tailOf? (first : UInt8) : Option (Nat × UInt8 × UInt8) :=
  if first < 0x80 then some (0, 0, 0)
  else if first < 0xc2 then none
  else if first < 0xe0 then some (1, 0x80, 0xbf)
  else if first = 0xe0 then some (2, 0xa0, 0xbf)
  else if first = 0xed then some (2, 0x80, 0x9f)
  else if first < 0xf0 then some (2, 0x80, 0xbf)
  else if first = 0xf0 then some (3, 0x90, 0xbf)
  else if first < 0xf4 then some (3, 0x80, 0xbf)
  else if first = 0xf4 then some (3, 0x80, 0x8f)
  else none

/-- How many of at most `n` octets go on with a character, the first of them between two bounds. -/
def tailLength : Nat → UInt8 → UInt8 → Bytes → Nat
  | n + 1, lo, hi, b :: r => if lo ≤ b ∧ b ≤ hi then tailLength n 0x80 0xbf r + 1 else 0
  | _, _, _, _ => 0

/-- How many octets are a character or the longest beginning of one, and whether they are whole. An
octet with which no character begins stands alone. -/
def spanOf (first : UInt8) (r : Bytes) : Nat × Bool :=
  match tailOf? first with
  | none => (1, false)
  | some (n, lo, hi) => (tailLength n lo hi r + 1, tailLength n lo hi r == n)

/-- The octets of the character that stands for what cannot be read. -/
def replacement : Bytes := [0xef, 0xbf, 0xbd]

/-- Octets with the replacement character in place of all that is no character. Each round takes an
octet at least, so their number bounds the rounds. -/
def repair (b : Bytes) : Bytes := go b.length b
where
  /-- Takes at most `fuel` characters. -/
  go : Nat → Bytes → Bytes
    | fuel + 1, first :: r =>
      let (n, whole) := spanOf first r
      (if whole then (first :: r).take n else replacement) ++ go fuel ((first :: r).drop n)
    | _, _ => []

/-- The text that octets spell, with the replacement character for what is no character. -/
def toStringRepaired (b : Bytes) : String := (toString? b).getD ((toString? b.repair).getD "")

end Bytes

end Prewarm
