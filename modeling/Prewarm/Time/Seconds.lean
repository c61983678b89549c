import Prewarm.Time

/-!
# Spans as seconds in binary floating point

A rate is a number of events a second, so a limit on a rate computes with seconds as 64-bit floats.
`Duration.toSeconds` adds the whole seconds and the rest, each rounded to the nearest float.
`Duration.ofSeconds?` goes back exactly: the bits of a float say which rational it is, and that
rational is rounded to the nearest nanosecond, a half to the even one.
-/

namespace Prewarm

/-- A quotient rounded to the nearest whole number, a half to the even one. -/
def roundHalfEven (num den : Nat) : Nat :=
  let q := num / den
  let r := num % den
  if 2 * r < den then q
  else if den < 2 * r then q + 1
  else q + q % 2

namespace Duration

/-- A span as seconds. -/
def toSeconds (d : Duration) : Float :=
  d.seconds.toUInt64.toFloat + d.subsecond.toUInt64.toFloat / 1000000000

/-- The span a float of at least `0` denotes, given by its 64 bits: an exponent field `e` and a
mantissa field `m` denote `(2 ^ 52 + m) * 2 ^ (e - 1075)`, and with `e = 0` they denote
`m * 2 ^ (-1074)`. -/
def ofFields (e m : Nat) : Duration :=
  let m := if e = 0 then m else Nat.pow 2 52 + m
  let e := if e = 0 then 1 else e
  if 1075 ≤ e then ⟨m * Nat.pow 2 (e - 1075) * 1_000_000_000⟩
  else ⟨roundHalfEven (m * 1_000_000_000) (Nat.pow 2 (1075 - e))⟩

/-- The span a number of seconds denotes, to the nearest nanosecond. A number below zero, an
infinite one, none at all and one of `2 ^ 64` seconds or more denote no span. -/
def ofSeconds? (s : Float) : Option Duration :=
  let bits := s.toBits.toNat
  let m := bits % Nat.pow 2 52
  let e := bits / Nat.pow 2 52 % Nat.pow 2 11
  let negative := decide (Nat.pow 2 63 ≤ bits)
  if negative && (e, m) != (0, 0) then none
  else if e = 2047 then none
  else
    let d := ofFields e m
    if d.seconds < Nat.pow 2 64 then some d else none

end Duration

end Prewarm
