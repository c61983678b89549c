import Prewarm.Text.Numeral

/-!
# Numbers as texts and back

A number that is written in decimal is read as itself if it fits the word it is read into, and no
two numbers are written alike.
-/

namespace Prewarm.Text

section
variable {n m bound : Nat}

/-- The digits of a number stand for it. -/
theorem digitsValue_toDigits (n : Nat) : digitsValue (Nat.toDigits 10 n) = n :=
  Nat.ofDigitChars_ten_toDigits

/-- A number is written without a sign. -/
theorem head_toDigits_ne_plus {ds : List Char} : Nat.toDigits 10 n ≠ '+' :: ds := by
  intro h
  have hplus : '+' ∈ Nat.toDigits 10 n := h ▸ .head _
  have hdigit := Nat.isDigit_of_mem_toDigits (by decide) (by decide) hplus
  cases hdigit

/-- A written number is read as it was if it is below the bound. -/
theorem readBelow_toString (bound n : Nat) :
    readBelow bound (toString n) = if n < bound then some n else none := by
  have hdigits : (Nat.toDigits 10 n).all Char.isDigit = true :=
    List.all_eq_true.2 fun c hc => Nat.isDigit_of_mem_toDigits (by decide) (by decide) hc
  unfold readBelow
  rw [Nat.toString_eq_repr, Nat.toList_repr]
  split
  · next ds hds => exact absurd hds head_toDigits_ne_plus
  · simp [digitsValue_toDigits, hdigits, Nat.toDigits_ne_nil]

/-- A number that was written is read as itself, if it is read at all. -/
theorem eq_of_readWord_toString (h : readWord (toString n) = some m) : m = n := by
  unfold readWord at h
  rw [readBelow_toString] at h
  split at h
  · exact (Option.some.inj h).symm
  · cases h

/-- Different numbers are written differently. -/
theorem toString_injective (h : toString n = toString m) : n = m := by
  have hn := readBelow_toString (n + m + 1) n
  rw [h, readBelow_toString, if_pos (by omega), if_pos (by omega)] at hn
  exact (Option.some.inj hn).symm

end

end Prewarm.Text
