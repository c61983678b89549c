/-!
# Decimals and doubles

A number that is written with a fraction or an exponent stands for a double. `Decimal.toFloat?` is
the double that digits and an exponent stand for, and `Decimal.ofFloat` are the fewest digits that
stand for a double.
-/

namespace Prewarm

/-- The number `digits * 10 ^ exponent`. -/
structure Decimal where
  digits : Nat
  exponent : Int
  deriving DecidableEq, Repr

namespace Decimal

/-- Appends digits to a number as long as it fits in 64 bits, and counts those that are left. -/
def append : Nat → List Nat → Nat × Nat
  | n, [] => (n, 0)
  | n, d :: ds => if 10 * n + d < Nat.pow 2 64 then append (10 * n + d) ds else (n, ds.length + 1)

/-- The number that the digits before and after a point and an exponent write. Digits that do not
fit in 64 bits are dropped: those before the point count for the exponent. -/
def ofDigits (whole fraction : List Nat) (exponent : Int) : Decimal :=
  let (n, dropped) := append 0 whole
  let (n, ignored) := append n fraction
  ⟨n, exponent + dropped - (fraction.length - ignored)⟩

/-- A power of ten as a double. -/
def power (n : Nat) : Float := Float.ofScientific 1 false n

/-- A double with its point moved, none if it becomes too large. Each step rounds. -/
def scaled? (x : Float) (exponent : Int) : Option Float :=
  if exponent.natAbs ≤ 308 then
    if 0 ≤ exponent then
      let y := x * power exponent.toNat
      if y.isInf then none else some y
    else some (x / power exponent.natAbs)
  else if x == 0 then some x
  else if 0 ≤ exponent then none
  else scaled? (x / power 308) (exponent + 308)
termination_by exponent.natAbs
decreasing_by omega

/-- The double that a decimal stands for, none if it is too large for one. -/
def toFloat? (d : Decimal) : Option Float := scaled? (Float.ofNat d.digits) d.exponent

/-- The mantissa and the exponent to base two of a double that is finite, without its sign. -/
def binary (x : Float) : Nat × Int :=
  let bits := x.toBits.toNat
  let mantissa := bits % Nat.pow 2 52
  match bits / Nat.pow 2 52 % Nat.pow 2 11 with
  | 0 => (mantissa, -1074)
  | e + 1 => (Nat.pow 2 52 + mantissa, (e : Int) - 1074)

/-- Compares a decimal with `n * 2 ^ q`. -/
def compareBinary (d : Decimal) (n : Nat) (q : Int) : Ordering :=
  compare (d.digits * Nat.pow 10 d.exponent.toNat * Nat.pow 2 (-q).toNat)
    (n * Nat.pow 2 q.toNat * Nat.pow 10 (-d.exponent).toNat)

/-- Whether `m * 2 ^ q` is the double nearest to a decimal. The gap below a power of two is half as
wide as the one above it, and the middle of a gap belongs to the double with the even mantissa. -/
def isNearest (m : Nat) (q : Int) (d : Decimal) : Bool :=
  let low := d.compareBinary (if m = Nat.pow 2 52 ∧ -1074 < q then 4 * m - 1 else 4 * m - 2) (q - 2)
  let high := d.compareBinary (4 * m + 2) (q - 2)
  if m % 2 = 0 then low != .lt && high != .gt else low == .gt && high == .lt

/-- The multiple of `10 ^ k` that stands for `m * 2 ^ q` and is the nearer one if two do. -/
def onGrid? (m : Nat) (q : Int) (k : Int) : Option Decimal :=
  let below := m * Nat.pow 2 q.toNat * Nat.pow 10 (-k).toNat /
    (Nat.pow 2 (-q).toNat * Nat.pow 10 k.toNat)
  let near := if compareBinary ⟨2 * below + 1, k⟩ (2 * m) q = .lt then [below + 1, below]
    else [below, below + 1]
  (near.map (fun n => (⟨n, k⟩ : Decimal))).find? (fun d => d.digits ≠ 0 && isNearest m q d)

/-- The decimal with the fewest digits that stands for a double, without its sign: the one on the
coarsest grid. -/
def ofFloat (x : Float) : Decimal :=
  let (m, q) := binary x
  let grids : List Int := (List.range 634).map (fun (i : Nat) => 309 - (i : Int))
  if m = 0 then ⟨0, 0⟩ else (grids.findSome? (onGrid? m q)).getD ⟨0, 0⟩

end Decimal

end Prewarm
