import Prewarm.Bytes

/-!
# Base64

The standard alphabet with padding: three octets are four digits of six bits each, and a last group
of one or two octets is filled up with `=`. The bits a last digit does not need are zero, so every
sequence of octets has one written form, and `decode` takes that form only.
-/

namespace Prewarm.Base64

/-- The digit for a number below 64. -/
def digit (n : Nat) : Char :=
  if n < 26 then Char.ofNat ('A'.toNat + n)
  else if n < 52 then Char.ofNat ('a'.toNat + (n - 26))
  else if n < 62 then Char.ofNat ('0'.toNat + (n - 52))
  else if n = 62 then '+'
  else '/'

/-- The number a digit stands for. -/
def value? (c : Char) : Option Nat :=
  let n := c.toNat
  if 'A'.toNat ≤ n ∧ n ≤ 'Z'.toNat then some (n - 'A'.toNat)
  else if 'a'.toNat ≤ n ∧ n ≤ 'z'.toNat then some (n - 'a'.toNat + 26)
  else if '0'.toNat ≤ n ∧ n ≤ '9'.toNat then some (n - '0'.toNat + 52)
  else if c = '+' then some 62
  else if c = '/' then some 63
  else none

/-- The written form of a sequence of octets. -/
def encode : Bytes → List Char
  | [] => []
  | [a] =>
    let n := a.toNat * 16
    [digit (n / 64), digit (n % 64), '=', '=']
  | [a, b] =>
    let n := (a.toNat * 256 + b.toNat) * 4
    [digit (n / 4096), digit (n / 64 % 64), digit (n % 64), '=']
  | a :: b :: c :: r =>
    let n := (a.toNat * 256 + b.toNat) * 256 + c.toNat
    digit (n / 262144) :: digit (n / 4096 % 64) :: digit (n / 64 % 64) :: digit (n % 64) :: encode r

/-- What holds of the digits and of the padding holds of all that is written in base64. -/
theorem forall_mem_encode {p : Char → Prop} (hdigits : ∀ n < 64, p (digit n)) (hpad : p '=')
    (b : Bytes) : ∀ c ∈ encode b, p c := by
  have hdigit : ∀ n, p (digit n) := by
    intro n
    by_cases hn : n < 64
    · exact hdigits n hn
    · have hslash : digit n = digit 63 := by
        unfold digit
        rw [if_neg (by omega), if_neg (by omega), if_neg (by omega), if_neg (by omega)]
        rfl
      exact hslash ▸ hdigits 63 (by decide)
  fun_induction encode b with
  | case1 => exact List.forall_mem_nil _
  | case2 a n =>
    simp only [List.forall_mem_cons]
    exact ⟨hdigit _, hdigit _, hpad, hpad, List.forall_mem_nil _⟩
  | case3 a b n =>
    simp only [List.forall_mem_cons]
    exact ⟨hdigit _, hdigit _, hdigit _, hpad, List.forall_mem_nil _⟩
  | case4 a b c r n ih =>
    simp only [List.forall_mem_cons]
    exact ⟨hdigit _, hdigit _, hdigit _, hdigit _, ih⟩

/-- The digits of base64 and its padding are visible characters. -/
theorem visible_encode (b : Bytes) :
    ∀ c ∈ encode b, 0x20 ≤ c.toNat ∧ c.toNat ≠ 0x7f :=
  forall_mem_encode (by decide) (by decide) b

/-- The octet a last group of two digits writes. -/
def decodeTwo (a b : Char) : Option Bytes := do
  let n := (← value? a) * 64 + (← value? b)
  if n % 16 = 0 then some [(n / 16).toUInt8] else none

/-- The two octets a last group of three digits writes. -/
def decodeThree (a b c : Char) : Option Bytes := do
  let n := ((← value? a) * 64 + (← value? b)) * 64 + (← value? c)
  if n % 4 = 0 then some [(n / 1024).toUInt8, (n / 4 % 256).toUInt8] else none

/-- The three octets a group of four digits writes. -/
def decodeFour (a b c d : Char) : Option Bytes := do
  let n := (((← value? a) * 64 + (← value? b)) * 64 + (← value? c)) * 64 + (← value? d)
  some [(n / 65536).toUInt8, (n / 256 % 256).toUInt8, (n % 256).toUInt8]

/-- The octets that a text writes, if it is the written form of some. -/
def decode : List Char → Option Bytes
  | [] => some []
  | [a, b, '=', '='] => decodeTwo a b
  | [a, b, c, '='] => decodeThree a b c
  | a :: b :: c :: d :: r => do
    let g ← decodeFour a b c d
    let rest ← decode r
    some (g ++ rest)
  | _ => none

end Prewarm.Base64
