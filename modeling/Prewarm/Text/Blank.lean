/-!
# Blank characters

The characters with the property White_Space, and texts without the blanks around them.
-/

namespace Prewarm.Text

/-- The blanks above the ASCII range, as ascending ranges with both ends included. -/
def blankRanges : List (Nat × Nat) :=
  [(0x85, 0x85), (0xa0, 0xa0), (0x1680, 0x1680), (0x2000, 0x200a), (0x2028, 0x2029),
    (0x202f, 0x202f), (0x205f, 0x205f), (0x3000, 0x3000)]

/-- Whether a character is blank: the space, the five controls from tab to carriage return, or one
of the blanks above the ASCII range. -/
def isBlank (c : Char) : Bool :=
  c.toNat == 0x20 || (0x9 ≤ c.toNat && c.toNat ≤ 0xd) ||
    blankRanges.any (fun r => r.1 ≤ c.toNat && c.toNat ≤ r.2)

/-- A text without the blanks before it. -/
def trimLeft (s : List Char) : List Char := s.dropWhile isBlank

/-- A text without the blanks before and after it. -/
def trim (s : List Char) : List Char := (trimLeft (trimLeft s).reverse).reverse

/-! ## What trimming leaves -/

section
variable {a s b : List Char}

/-- Blanks before a text are dropped. -/
theorem trimLeft_append (ha : ∀ c ∈ a, isBlank c = true) (s : List Char) :
    trimLeft (a ++ s) = trimLeft s :=
  List.dropWhile_append_of_pos ha

/-- A text that does not begin with a blank is left as it is. -/
theorem trimLeft_of_head? (h : ∀ c, s.head? = some c → isBlank c = false) : trimLeft s = s := by
  cases s with
  | nil => rfl
  | cons c s => exact List.dropWhile_cons_of_neg (Bool.eq_false_iff.1 (h c rfl))

/-- Blanks around a text that neither begins nor ends with one are dropped. -/
theorem trim_append (ha : ∀ c ∈ a, isBlank c = true) (hb : ∀ c ∈ b, isBlank c = true)
    (hhead : ∀ c, s.head? = some c → isBlank c = false)
    (hlast : ∀ c, s.getLast? = some c → isBlank c = false) : trim (a ++ s ++ b) = s := by
  have hleft : trimLeft (a ++ s ++ b) = if s = [] then [] else s ++ b := by
    rw [List.append_assoc, trimLeft_append ha]
    cases s with
    | nil =>
      have hnil := trimLeft_append hb []
      rwa [List.append_nil] at hnil
    | cons c s => exact trimLeft_of_head? fun d hd => hhead d hd
  have hb' : ∀ c ∈ b.reverse, isBlank c = true := fun c hc => hb c (List.mem_reverse.1 hc)
  unfold trim
  rw [hleft]
  split
  · next hs =>
    rw [hs]
    rfl
  · rw [List.reverse_append, trimLeft_append hb', trimLeft_of_head?, List.reverse_reverse]
    rwa [List.head?_reverse]

end

end Prewarm.Text
