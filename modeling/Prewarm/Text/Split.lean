/-!
# Texts cut at a character

`parts sep s` are the parts of `s` between the places where `sep` stands, so a text without `sep`
has one part, itself. `cutFirst` and `cutLast` cut once.
-/

namespace Prewarm.Text

/-- The parts of a text between the places of a separator. -/
def parts (sep : Char) : List Char → List (List Char)
  | [] => [[]]
  | c :: s =>
    if c = sep then [] :: parts sep s
    else
      match parts sep s with
      | [] => [[c]]
      | p :: ps => (c :: p) :: ps

/-- The texts before and after the first place of a separator. -/
def cutFirst (sep : Char) : List Char → Option (List Char × List Char)
  | [] => none
  | c :: s =>
    if c = sep then some ([], s)
    else (cutFirst sep s).map (fun (a, b) => (c :: a, b))

/-- The texts before and after the last place of a separator. -/
def cutLast (sep : Char) : List Char → Option (List Char × List Char)
  | [] => none
  | c :: s =>
    match cutLast sep s with
    | some (a, b) => some (c :: a, b)
    | none => if c = sep then some ([], s) else none

/-- A text without the copies of another one that it begins with. -/
def dropLeading (lead : List Char) (s : List Char) : List Char :=
  go s.length s
where
  /-- Drops at most `fuel` copies. -/
  go : Nat → List Char → List Char
    | 0, s => s
    | fuel + 1, s =>
      if lead ≠ [] ∧ lead.isPrefixOf s then go fuel (s.drop lead.length) else s

/-- Parts joined with a separator between them. -/
def join (sep : List Char) : List (List Char) → List Char
  | [] => []
  | [p] => p
  | p :: ps => p ++ sep ++ join sep ps

theorem dropLeading_go_of_not_prefix {lead s : List Char} (h : ¬ lead <+: s) (fuel : Nat) :
    dropLeading.go lead fuel s = s := by
  cases fuel with
  | zero => rfl
  | succ fuel => exact if_neg fun hlead => h (List.isPrefixOf_iff_prefix.1 hlead.2)

/-- A text that does not begin with the other one loses nothing. -/
theorem dropLeading_of_not_prefix {lead s : List Char} (h : ¬ lead <+: s) :
    dropLeading lead s = s :=
  dropLeading_go_of_not_prefix h s.length

/-- A text that begins with one copy loses that. -/
theorem dropLeading_append {lead s : List Char} (hne : lead ≠ []) (h : ¬ lead <+: s) :
    dropLeading lead (lead ++ s) = s := by
  have hlead : lead ≠ [] ∧ lead.isPrefixOf (lead ++ s) = true :=
    ⟨hne, List.isPrefixOf_iff_prefix.2 (List.prefix_append lead s)⟩
  obtain ⟨fuel, hfuel⟩ := Nat.exists_eq_add_one.2
    (Nat.lt_of_lt_of_le (List.length_pos_iff.2 hne) (List.prefix_append lead s).length_le)
  unfold dropLeading
  rw [hfuel, dropLeading.go, if_pos hlead, List.drop_left, dropLeading_go_of_not_prefix h]

/-- The separator stands before every part but the first. -/
theorem join_cons (sep p : List Char) (ps : List (List Char)) :
    join sep (p :: ps) = p ++ ps.flatMap (sep ++ ·) := by
  induction ps generalizing p with
  | nil => simp [join]
  | cons p' ps ih =>
    have hjoin : join sep (p :: p' :: ps) = p ++ sep ++ join sep (p' :: ps) := rfl
    rw [hjoin, ih, List.flatMap_cons, List.append_assoc, List.append_assoc]

theorem parts_ne_nil (sep : Char) (s : List Char) : parts sep s ≠ [] := by
  cases s with
  | nil => simp [parts]
  | cons c s =>
    simp only [parts]
    split
    · simp
    · split <;> simp

/-- Nothing but the separators is lost. -/
@[simp] theorem join_parts (sep : Char) (s : List Char) : join [sep] (parts sep s) = s := by
  induction s with
  | nil => rfl
  | cons c s ih =>
    simp only [parts]
    have hne := parts_ne_nil sep s
    cases hp : parts sep s with
    | nil => exact absurd hp hne
    | cons p ps =>
      rw [hp] at ih
      by_cases hc : c = sep
      · simp [hc, join, ih]
      · cases ps <;> simp_all [join]

/-- No part has the separator. -/
theorem not_mem_of_mem_parts {sep : Char} {s p : List Char} (h : p ∈ parts sep s) : sep ∉ p := by
  induction s generalizing p with
  | nil =>
    obtain rfl := List.mem_singleton.1 h
    exact List.not_mem_nil
  | cons c s ih =>
    simp only [parts] at h
    split at h
    · rcases List.mem_cons.1 h with rfl | h
      · exact List.not_mem_nil
      · exact ih h
    · next hc =>
      cases hps : parts sep s with
      | nil => exact absurd hps (parts_ne_nil sep s)
      | cons q qs =>
        rw [hps] at h ih
        rcases List.mem_cons.1 h with rfl | h
        · intro hmem
          rcases List.mem_cons.1 hmem with rfl | hmem
          · exact hc rfl
          · exact ih (.head _) hmem
        · exact ih (List.mem_cons_of_mem q h)

/-- A text without the separator is its only part. -/
theorem parts_of_not_mem {sep : Char} {s : List Char} (h : sep ∉ s) : parts sep s = [s] := by
  induction s with
  | nil => rfl
  | cons c s ih =>
    rw [List.mem_cons, not_or] at h
    simp only [parts, if_neg (Ne.symm h.1), ih h.2]

/-- A text without the separator is the first part of what it begins, up to the separator. -/
theorem parts_append {sep : Char} {a : List Char} (h : sep ∉ a) (b : List Char) :
    parts sep (a ++ sep :: b) = a :: parts sep b := by
  induction a with
  | nil => simp [parts]
  | cons c a ih =>
    rw [List.mem_cons, not_or] at h
    simp only [List.cons_append, parts, if_neg (Ne.symm h.1), ih h.2]

/-- Parts without the separator are the parts of the text that they are joined to. -/
theorem parts_join {sep : Char} {ps : List (List Char)} (hne : ps ≠ []) (h : ∀ p ∈ ps, sep ∉ p) :
    parts sep (join [sep] ps) = ps := by
  induction ps with
  | nil => exact absurd rfl hne
  | cons p ps ih =>
    obtain ⟨hp, hps⟩ := List.forall_mem_cons.1 h
    cases ps with
    | nil => exact parts_of_not_mem hp
    | cons p' ps =>
      have hjoin : join [sep] (p :: p' :: ps) = p ++ sep :: join [sep] (p' :: ps) := by simp [join]
      rw [hjoin, parts_append hp, ih (List.cons_ne_nil p' ps) hps]

/-- The parts of a text are the texts without the separator that it is joined of. -/
theorem parts_eq_iff {sep : Char} {s : List Char} {ps : List (List Char)} :
    parts sep s = ps ↔ ps ≠ [] ∧ (∀ p ∈ ps, sep ∉ p) ∧ join [sep] ps = s := by
  constructor
  · rintro rfl
    exact ⟨parts_ne_nil sep s, fun p => not_mem_of_mem_parts, join_parts sep s⟩
  · rintro ⟨hne, hps, rfl⟩
    exact parts_join hne hps

/-- A cut at the first separator leaves no separator before it. -/
theorem cutFirst_eq_some {sep : Char} {s a b : List Char} (h : cutFirst sep s = some (a, b)) :
    s = a ++ sep :: b ∧ sep ∉ a := by
  induction s generalizing a with
  | nil => simp [cutFirst] at h
  | cons c s ih =>
    simp only [cutFirst] at h
    split at h
    · obtain ⟨rfl, rfl⟩ := Prod.mk.inj (Option.some.inj h)
      subst_vars; simp
    · rename_i hc
      obtain ⟨⟨a', b'⟩, hp, he⟩ := Option.map_eq_some_iff.1 h
      obtain ⟨rfl, rfl⟩ := Prod.mk.inj he
      obtain ⟨rfl, hn⟩ := ih hp
      exact ⟨by simp, by simp [hn, Ne.symm hc]⟩

/-- A text is cut after what has no separator. -/
theorem cutFirst_append {sep : Char} {a : List Char} (h : sep ∉ a) (b : List Char) :
    cutFirst sep (a ++ sep :: b) = some (a, b) := by
  induction a with
  | nil => simp [cutFirst]
  | cons c a ih =>
    rw [List.mem_cons, not_or] at h
    simp only [List.cons_append, cutFirst, if_neg (Ne.symm h.1), ih h.2, Option.map_some]

theorem cutFirst_eq_none_iff {sep : Char} {s : List Char} : cutFirst sep s = none ↔ sep ∉ s := by
  induction s with
  | nil => simp [cutFirst]
  | cons c s ih =>
    simp only [cutFirst]
    split
    · subst_vars; simp
    · rename_i hc; simp [ih, Ne.symm hc]

theorem cutLast_eq_none_iff {sep : Char} {s : List Char} : cutLast sep s = none ↔ sep ∉ s := by
  induction s with
  | nil => simp [cutLast]
  | cons c s ih =>
    simp only [cutLast]
    cases hl : cutLast sep s with
    | some p =>
      have : ¬ cutLast sep s = none := by simp [hl]
      simp [ih] at this
      simp [this]
    | none =>
      have hn := ih.1 hl
      by_cases hc : c = sep
      · subst hc; simp
      · simp [hc, hn, Ne.symm hc]

/-- A cut at the last separator leaves no separator after it. -/
theorem cutLast_eq_some {sep : Char} {s a b : List Char} (h : cutLast sep s = some (a, b)) :
    s = a ++ sep :: b ∧ sep ∉ b := by
  induction s generalizing a b with
  | nil => simp [cutLast] at h
  | cons c s ih =>
    simp only [cutLast] at h
    cases hl : cutLast sep s with
    | some p =>
      obtain ⟨a', b'⟩ := p
      rw [hl] at h
      obtain ⟨rfl, rfl⟩ := Prod.mk.inj (Option.some.inj h)
      obtain ⟨rfl, hn⟩ := ih hl
      exact ⟨by simp, hn⟩
    | none =>
      rw [hl] at h
      by_cases hc : c = sep
      · simp only [hc, if_true] at h
        obtain ⟨rfl, rfl⟩ := Prod.mk.inj (Option.some.inj h)
        exact ⟨by simp [hc], cutLast_eq_none_iff.1 hl⟩
      · simp [hc] at h

/-- A text is cut before what has no separator. -/
theorem cutLast_append {sep : Char} {b : List Char} (h : sep ∉ b) (a : List Char) :
    cutLast sep (a ++ sep :: b) = some (a, b) := by
  induction a with
  | nil => simp [cutLast, cutLast_eq_none_iff.2 h]
  | cons c a ih => simp only [List.cons_append, cutLast, ih]

end Prewarm.Text
