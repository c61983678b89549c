import Prewarm.Base64

/-!
# Base64 is exact

What is written in base64 is read as it was, and nothing else is read: a text is read if and only if
it is the written form of some octets, and it is read as those (`decode_eq_some_iff`). Each group is
dealt with on its own: its digits are the digits of one number to the base 64, and the octets are
those of the same number without the bits that fill it up, which have to be zero.
-/

namespace Prewarm.Base64

section
variable {a b c d : Char} {n : Nat} {g bs : Bytes} {s : List Char}

/-! ## Digits -/

/-- A digit stands for its number. -/
theorem value?_digit (h : n < 64) : value? (digit n) = some n := by
  have hall : ∀ m < 64, value? (digit m) = some m := by decide
  exact hall n h

/-- A character that stands for a number is that number's digit. Beyond ASCII there is none, so
there are few characters to look at. -/
theorem value?_eq_some (h : value? c = some n) : n < 64 ∧ digit n = c := by
  have hall : ∀ m < 128, ∀ n ∈ value? (Char.ofNat m), n < 64 ∧ digit n = Char.ofNat m := by decide
  have hascii : c.toNat < 128 := by
    by_cases hplus : c = '+'
    · rw [hplus]
      decide
    by_cases hslash : c = '/'
    · rw [hslash]
      decide
    unfold value? at h
    grind
  have hdigit := hall c.toNat hascii n
  rw [Char.ofNat_toNat] at hdigit
  exact hdigit h

/-- The character that fills up a group is not a digit. -/
theorem digit_ne_pad (h : n < 64) : digit n ≠ '=' := by
  intro hpad
  have hvalue := value?_digit h
  rw [hpad] at hvalue
  cases hvalue

/-! ## Groups -/

/-- The two digits of one octet are read as it. -/
theorem decodeTwo_encode (x : UInt8) :
    decodeTwo (digit (x.toNat * 16 / 64)) (digit (x.toNat * 16 % 64)) = some [x] := by
  have hx := x.toNat_lt
  have hn : x.toNat * 16 / 64 * 64 + x.toNat * 16 % 64 = x.toNat * 16 := by omega
  simp only [decodeTwo, value?_digit (show x.toNat * 16 / 64 < 64 by omega),
    value?_digit (show x.toNat * 16 % 64 < 64 by omega), Option.bind_eq_bind, Option.bind_some, hn,
    Nat.mul_mod_left, if_true, Nat.mul_div_cancel _ (show 0 < 16 by decide), UInt8.ofNat_toNat]

/-- Two digits that are read are those of what they are read as. -/
theorem encode_of_decodeTwo (h : decodeTwo a b = some g) : encode g = [a, b, '=', '='] := by
  simp only [decodeTwo, Option.bind_eq_bind, Option.bind_eq_some_iff] at h
  obtain ⟨i, ha, j, hb, h⟩ := h
  obtain ⟨hi, rfl⟩ := value?_eq_some ha
  obtain ⟨hj, rfl⟩ := value?_eq_some hb
  split at h
  · next hzero =>
    obtain rfl := Option.some.inj h
    have hm : ((i * 64 + j) / 16).toUInt8.toNat * 16 = i * 64 + j := by
      simp only [UInt8.toNat_ofNat']
      omega
    simp only [encode, hm]
    rw [show (i * 64 + j) / 64 = i by omega, show (i * 64 + j) % 64 = j by omega]
  · cases h

/-- The three digits of two octets are read as these. -/
theorem decodeThree_encode (x y : UInt8) :
    let m := (x.toNat * 256 + y.toNat) * 4
    decodeThree (digit (m / 4096)) (digit (m / 64 % 64)) (digit (m % 64)) = some [x, y] := by
  intro m
  have hx := x.toNat_lt
  have hy := y.toNat_lt
  have hm : (m / 4096 * 64 + m / 64 % 64) * 64 + m % 64 = m := by omega
  simp only [decodeThree, value?_digit (show m / 4096 < 64 by omega),
    value?_digit (show m / 64 % 64 < 64 by omega), value?_digit (show m % 64 < 64 by omega),
    Option.bind_eq_bind, Option.bind_some, hm, show m % 4 = 0 by omega, if_true,
    show m / 1024 = x.toNat by omega, show m / 4 % 256 = y.toNat by omega, UInt8.ofNat_toNat]

/-- Three digits that are read are those of what they are read as. -/
theorem encode_of_decodeThree (h : decodeThree a b c = some g) : encode g = [a, b, c, '='] := by
  simp only [decodeThree, Option.bind_eq_bind, Option.bind_eq_some_iff] at h
  obtain ⟨i, ha, j, hb, k, hc, h⟩ := h
  obtain ⟨hi, rfl⟩ := value?_eq_some ha
  obtain ⟨hj, rfl⟩ := value?_eq_some hb
  obtain ⟨hk, rfl⟩ := value?_eq_some hc
  generalize hn : (i * 64 + j) * 64 + k = n at h
  split at h
  · next hzero =>
    obtain rfl := Option.some.inj h
    have hm : ((n / 1024).toUInt8.toNat * 256 + (n / 4 % 256).toUInt8.toNat) * 4 = n := by
      simp only [UInt8.toNat_ofNat']
      omega
    simp only [encode, hm]
    rw [show n / 4096 = i by omega, show n / 64 % 64 = j by omega, show n % 64 = k by omega]
  · cases h

/-- The four digits of three octets are read as these. -/
theorem decodeFour_encode (x y z : UInt8) :
    let m := (x.toNat * 256 + y.toNat) * 256 + z.toNat
    decodeFour (digit (m / 262144)) (digit (m / 4096 % 64)) (digit (m / 64 % 64))
      (digit (m % 64)) = some [x, y, z] := by
  intro m
  have hx := x.toNat_lt
  have hy := y.toNat_lt
  have hz := z.toNat_lt
  have hm : ((m / 262144 * 64 + m / 4096 % 64) * 64 + m / 64 % 64) * 64 + m % 64 = m := by omega
  simp only [decodeFour, value?_digit (show m / 262144 < 64 by omega),
    value?_digit (show m / 4096 % 64 < 64 by omega), value?_digit (show m / 64 % 64 < 64 by omega),
    value?_digit (show m % 64 < 64 by omega), Option.bind_eq_bind, Option.bind_some, hm,
    show m / 65536 = x.toNat by omega, show m / 256 % 256 = y.toNat by omega,
    show m % 256 = z.toNat by omega, UInt8.ofNat_toNat]

/-- What is written for the octets of a group of four digits, and others after them, begins with the
group. -/
theorem encode_of_decodeFour (h : decodeFour a b c d = some g) (bs : Bytes) :
    encode (g ++ bs) = a :: b :: c :: d :: encode bs := by
  simp only [decodeFour, Option.bind_eq_bind, Option.bind_eq_some_iff] at h
  obtain ⟨i, ha, j, hb, k, hc, l, hd, h⟩ := h
  obtain ⟨hi, rfl⟩ := value?_eq_some ha
  obtain ⟨hj, rfl⟩ := value?_eq_some hb
  obtain ⟨hk, rfl⟩ := value?_eq_some hc
  obtain ⟨hl, rfl⟩ := value?_eq_some hd
  generalize hn : ((i * 64 + j) * 64 + k) * 64 + l = n at h
  obtain rfl := Option.some.inj h
  have hm : ((n / 65536).toUInt8.toNat * 256 + (n / 256 % 256).toUInt8.toNat) * 256 +
      (n % 256).toUInt8.toNat = n := by
    simp only [UInt8.toNat_ofNat']
    omega
  simp only [List.cons_append, List.nil_append, encode, hm]
  rw [show n / 262144 = i by omega, show n / 4096 % 64 = j by omega,
    show n / 64 % 64 = k by omega, show n % 64 = l by omega]

/-! ## Texts -/

/-- A group whose last digit is no padding is read before the rest. -/
theorem decode_cons (hd : d ≠ '=') (s : List Char) : decode (a :: b :: c :: d :: s) =
    (decodeFour a b c d).bind fun g => (decode s).map (g ++ ·) := by
  rw [decode.eq_4 a b c d s (fun _ h => absurd h hd) (fun h => absurd h hd)]
  refine congrArg _ (funext fun g => ?_)
  cases decode s <;> rfl

/-- What is written for octets is read as these. -/
@[simp] theorem decode_encode (bs : Bytes) : decode (encode bs) = some bs := by
  fun_induction encode bs with
  | case1 => rfl
  | case2 x m => exact decodeTwo_encode x
  | case3 x y m =>
    have hpad : digit (m % 64) ≠ '=' := digit_ne_pad (Nat.mod_lt m (by decide))
    rw [decode.eq_3 _ _ _ hpad]
    exact decodeThree_encode x y
  | case4 x y z bs m ih =>
    have hpad : digit (m % 64) ≠ '=' := digit_ne_pad (Nat.mod_lt m (by decide))
    rw [decode_cons hpad, decodeFour_encode x y z, Option.bind_some, ih]
    rfl

/-- A text that is read is what is written for the octets that it is read as. -/
theorem encode_of_decode (h : decode s = some bs) : encode bs = s := by
  fun_induction decode s generalizing bs with
  | case1 =>
    cases h
    rfl
  | case2 a b => exact encode_of_decodeTwo h
  | case3 a b c => exact encode_of_decodeThree h
  | case4 a b c d s hlast hlast' ih =>
    simp only [Option.bind_eq_bind, Option.bind_eq_some_iff] at h
    obtain ⟨g, hg, rest, hrest, h⟩ := h
    obtain rfl := Option.some.inj h
    rw [encode_of_decodeFour hg, ih hrest]
  | case5 => cases h

/-- A text is read as some octets if and only if it is their written form. -/
theorem decode_eq_some_iff : decode s = some bs ↔ s = encode bs :=
  ⟨fun h => (encode_of_decode h).symm, fun h => h ▸ decode_encode bs⟩

example : decode "+//+Zg==".toList = some [0xfb, 0xff, 0xfe, 0x66] := by decide

/-- The bits that fill up the last digit have to be zero. -/
example : decode "+//+Zh==".toList = none := by decide

/-- A text is not read if and only if it is not written for any octets. -/
theorem decode_eq_none_iff : decode s = none ↔ ∀ bs, s ≠ encode bs := by
  rw [Option.eq_none_iff_forall_ne_some]
  exact forall_congr' fun bs => not_congr decode_eq_some_iff

/-- Different octets have different written forms. -/
@[simp] theorem encode_inj {x y : Bytes} : encode x = encode y ↔ x = y := by
  constructor
  · intro h
    have hdecode := congrArg decode h
    rw [decode_encode, decode_encode] at hdecode
    exact Option.some.inj hdecode
  · exact congrArg encode

end

end Prewarm.Base64
