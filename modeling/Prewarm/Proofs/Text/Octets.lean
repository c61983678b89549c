import Prewarm.Bytes

/-!
# Texts and their octets

The octets of a text are those of its characters one after another (`ofString_eq`), and octets that
are well-formed are those of the text they spell (`toString?_eq_some_iff`). The first octets of two
characters differ as soon as their lengths do, and more octets begin with a greater one; so a
smaller character has smaller octets (`utf8EncodeChar_append_lt`), and the order of texts, which is
that of their characters, is the order of their octets as well (`ofString_le_iff`).
-/

namespace Prewarm.Bytes

section
variable {b : Bytes} {s t : String}

/-! ## What octets spell -/

/-- The loop that lists octets puts those from a place on after those that it has, which it has in
reverse. -/
theorem toList_loop_eq (b : ByteArray) (i : Nat) (before : List UInt8) :
    ByteArray.toList.loop b i before = before.reverse ++ b.data.toList.drop i := by
  fun_induction ByteArray.toList.loop b i before with
  | case1 i before hlt ih =>
    have hi : i < b.data.toList.length := hlt
    have hget : b.get! i = b.data.toList[i] := getElem!_pos b.data i hlt
    rw [ih, List.drop_eq_getElem_cons hi, hget, List.reverse_cons, List.append_assoc,
      List.singleton_append]
  | case2 i before hge =>
    have hi : b.data.toList.length ≤ i := Nat.le_of_not_lt hge
    rw [List.drop_eq_nil_of_le hi, List.append_nil]

/-- Octets are listed in order. -/
theorem toList_eq (b : ByteArray) : b.toList = b.data.toList := by
  rw [ByteArray.toList, toList_loop_eq, List.drop_zero, List.reverse_nil, List.nil_append]

/-- The octets of a text are those that it is stored as. -/
theorem toByteArray_ofString (s : String) : (ofString s).toByteArray = s.toByteArray := by
  unfold ofString
  rw [toList_eq, String.toUTF8_eq_toByteArray]
  exact ByteArray.ext (by rw [List.data_toByteArray, Array.toArray_toList])

/-- The octets of a text are those of its characters. -/
theorem ofString_eq (s : String) : ofString s = s.toList.flatMap String.utf8EncodeChar := by
  unfold ofString
  rw [toList_eq, String.toUTF8_eq_toByteArray, ← String.utf8Encode_toList, List.utf8Encode,
    List.data_toByteArray]

/-- Octets spell a text if they are the octets of that text. -/
theorem toString?_eq_some_iff : toString? b = some s ↔ b = ofString s := by
  unfold toString? String.fromUTF8?
  constructor
  · intro h
    split at h
    · obtain rfl := Option.some.inj h
      refine List.toByteArray_inj.1 ?_
      rw [toByteArray_ofString]
      rfl
    · cases h
  · rintro rfl
    have hvalid : (ofString s).toByteArray.IsValidUTF8 := by
      rw [toByteArray_ofString]
      exact s.isValidUTF8
    rw [dif_pos hvalid]
    refine congrArg some (String.toByteArray_inj.1 ?_)
    exact toByteArray_ofString s

/-- Octets spell no text if they are not the octets of one. -/
theorem toString?_eq_none_iff : toString? b = none ↔ ∀ s, ofString s ≠ b := by
  rw [Option.eq_none_iff_forall_ne_some]
  exact forall_congr' fun s => not_congr (toString?_eq_some_iff.trans eq_comm)

/-- The octets of a text are read as that text. -/
@[simp] theorem toString?_ofString (s : String) : toString? (ofString s) = some s :=
  toString?_eq_some_iff.2 rfl

/-- Different texts have different octets. -/
@[simp] theorem ofString_inj : ofString s = ofString t ↔ s = t := by
  constructor
  · intro h
    have hread := congrArg toString? h
    rw [toString?_ofString, toString?_ofString] at hread
    exact Option.some.inj hread
  · exact congrArg ofString

/-! ## The order of octets -/

/-- Octets are ordered as the numbers that they stand for. -/
theorem ofNat_lt {m n : Nat} (h : m < n) (hn : n < 256) : UInt8.ofNat m < UInt8.ofNat n :=
  (UInt8.ofNat_lt_iff_lt (Nat.lt_trans h hn) hn).2 h

/-- The octets of a smaller character are smaller, whatever follows them. -/
theorem utf8EncodeChar_append_lt {c d : Char} (h : c < d) (x y : Bytes) :
    String.utf8EncodeChar c ++ x < String.utf8EncodeChar d ++ y := by
  have hlt : c.val.toNat < d.val.toNat := h
  have hmax : d.val.toNat < 0x110000 := by
    rcases d.valid with hd | hd
    · exact Nat.lt_trans hd (by decide)
    · exact hd.2
  unfold String.utf8EncodeChar
  generalize c.val.toNat = m at *
  generalize d.val.toNat = n at *
  dsimp only
  -- Longer characters have greater first octets; in two of one length the first digits to the base
  -- 64 that differ decide.
  by_cases hm₁ : m ≤ 127
  · rw [if_pos hm₁]
    split
    · exact .rel (ofNat_lt hlt (by omega))
    split
    · exact .rel (ofNat_lt (by omega) (by omega))
    split <;> exact .rel (ofNat_lt (by omega) (by omega))
  rw [if_neg hm₁, if_neg (show ¬ n ≤ 127 by omega)]
  by_cases hm₂ : m ≤ 2047
  · rw [if_pos hm₂]
    split
    · rcases (show m / 64 < n / 64 ∨ m / 64 = n / 64 ∧ m % 64 < n % 64 by omega) with
        h | ⟨hsame, h⟩
      · exact .rel (ofNat_lt (by omega) (by omega))
      · rw [hsame]
        exact .cons (.rel (ofNat_lt (by omega) (by omega)))
    split <;> exact .rel (ofNat_lt (by omega) (by omega))
  rw [if_neg hm₂, if_neg (show ¬ n ≤ 2047 by omega)]
  by_cases hm₃ : m ≤ 65535
  · rw [if_pos hm₃]
    split
    · rcases (show m / 4096 < n / 4096 ∨ m / 4096 = n / 4096 ∧ (m / 64 % 64 < n / 64 % 64 ∨
          m / 64 % 64 = n / 64 % 64 ∧ m % 64 < n % 64) by omega) with
        h | ⟨hsame, h | ⟨hsame', h⟩⟩
      · exact .rel (ofNat_lt (by omega) (by omega))
      · rw [hsame]
        exact .cons (.rel (ofNat_lt (by omega) (by omega)))
      · rw [hsame, hsame']
        exact .cons (.cons (.rel (ofNat_lt (by omega) (by omega))))
    · exact .rel (ofNat_lt (by omega) (by omega))
  rw [if_neg hm₃, if_neg (show ¬ n ≤ 65535 by omega)]
  rcases (show m / 262144 < n / 262144 ∨ m / 262144 = n / 262144 ∧
      (m / 4096 % 64 < n / 4096 % 64 ∨ m / 4096 % 64 = n / 4096 % 64 ∧
        (m / 64 % 64 < n / 64 % 64 ∨ m / 64 % 64 = n / 64 % 64 ∧ m % 64 < n % 64)) by omega) with
    h | ⟨hsame, h | ⟨hsame', h | ⟨hsame'', h⟩⟩⟩
  · exact .rel (ofNat_lt (by omega) (by omega))
  · rw [hsame]
    exact .cons (.rel (ofNat_lt (by omega) (by omega)))
  · rw [hsame, hsame']
    exact .cons (.cons (.rel (ofNat_lt (by omega) (by omega))))
  · rw [hsame, hsame', hsame'']
    exact .cons (.cons (.cons (.rel (ofNat_lt (by omega) (by omega)))))

/-- The octets of a smaller text are smaller. -/
theorem ofString_lt (h : s < t) : ofString s < ofString t := by
  have hlex : s.toList < t.toList := h
  rw [ofString_eq, ofString_eq]
  generalize s.toList = l at hlex
  generalize t.toList = m at hlex
  induction hlex with
  | @nil d m =>
    obtain ⟨x, xs, hd⟩ := List.exists_cons_of_ne_nil (String.utf8EncodeChar_ne_nil (c := d))
    rw [List.flatMap_cons, hd]
    exact .nil
  | cons _ ih => exact List.append_left_lt ih
  | rel hcd => exact utf8EncodeChar_append_lt hcd _ _

/-- The order of texts is the order of their octets. -/
theorem ofString_le_iff : ofString s ≤ ofString t ↔ s ≤ t := by
  constructor
  · intro h
    exact String.not_lt.1 fun hlt => List.not_lt.2 h (ofString_lt hlt)
  · intro h
    by_cases hst : s = t
    · rw [hst]
      exact List.le_refl _
    · exact List.le_of_lt (ofString_lt (Std.lt_of_le_of_ne h hst))

end

end Prewarm.Bytes
