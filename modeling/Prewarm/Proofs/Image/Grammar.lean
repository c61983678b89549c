import Prewarm.Image.Reference

/-!
# How references by a tag are written

A reference by a tag is written `registry/repository:tag`, where the registry and the tag may be
left out. A `Spelling` has these parts, and `Spells` says what text they make and what each of them
may be. The reader takes the texts that are spelt so and no others, no text is spelt in two ways,
and what is read are the parts (`parse_grammar`).

The parts keep out of each other's way: a repository has no colon and a tag has neither a colon nor
a slash, so the tag begins after the last colon that no slash follows (`cutTag_append`). Whether
there is a registry is a matter of the text before the first slash and of nothing after it
(`cutRegistry_spec`).
-/

namespace Prewarm.TagReference

/-! ## The parts -/

/-- Whether a character can stand in a repository. -/
def IsPathChar (c : Char) : Prop :=
  'a' ≤ c ∧ c ≤ 'z' ∨ '0' ≤ c ∧ c ≤ '9' ∨ c = '.' ∨ c = '_' ∨ c = '-'

/-- Whether a character can stand anywhere in a tag. -/
def IsWordChar (c : Char) : Prop :=
  'A' ≤ c ∧ c ≤ 'Z' ∨ 'a' ≤ c ∧ c ≤ 'z' ∨ '0' ≤ c ∧ c ≤ '9' ∨ c = '_'

/-- Whether a text is a repository: one or more parts with slashes between them, none empty. -/
def IsPath (p : List Char) : Prop :=
  ∃ parts : List (List Char), parts ≠ [] ∧ p = Text.join ['/'] parts ∧
    ∀ a ∈ parts, a ≠ [] ∧ ∀ c ∈ a, IsPathChar c

/-- Whether a text is a tag: one character and at most 127 more, among which there may be marks. -/
def IsLabel (t : List Char) : Prop :=
  ∃ c s, t = c :: s ∧ IsWordChar c ∧ s.length ≤ 127 ∧ ∀ x ∈ s, IsWordChar x ∨ x = '.' ∨ x = '-'

/-- Whether a text that a slash follows is a registry. -/
def IsHost (h : List Char) : Prop := '.' ∈ h ∨ ':' ∈ h ∨ h = "localhost".toList

/-- The parts of a reference by a tag as they are written. -/
structure Spelling where
  registry : Option String
  repository : String
  tag : Option String
  deriving DecidableEq, Repr

namespace Spelling

/-- The text that the parts make. -/
def text (w : Spelling) : String :=
  w.registry.elim "" (· ++ "/") ++ w.repository ++ w.tag.elim "" (":" ++ ·)

/-- The reference with these parts. -/
def reference (w : Spelling) : TagReference := ⟨w.registry, w.repository, w.tag.getD "latest"⟩

end Spelling

/-- Whether a text is a reference by a tag with the parts of a spelling. -/
structure Spells (s : String) (w : Spelling) : Prop where
  text : s = w.text
  noAt : '@' ∉ s.toList
  noBlank : ∀ c ∈ s.toList, Text.isBlank c = false
  repository : IsPath w.repository.toList
  tag : ∀ t, w.tag = some t → IsLabel t.toList
  /-- The registry is the text before the first slash, and it is there if that text is one. -/
  registry : ∀ r, w.registry = some r ↔
    '/' ∈ s.toList ∧ r.toList = s.toList.takeWhile (· ≠ '/') ∧ IsHost r.toList

section
variable {s : String} {w w' : Spelling} {t : TagReference} {a b p g : List Char} {c : Char}

/-! ## Characters -/

/-- The test for characters of a repository is exact. -/
theorem isRepositoryChar_iff : isRepositoryChar c = true ↔ IsPathChar c := by
  delta isRepositoryChar IsPathChar Char.isLower Char.isDigit
  simp [Char.le_def, or_assoc]

/-- The test for the first character of a tag is exact. -/
theorem isTagStart_iff : isTagStart c = true ↔ IsWordChar c := by
  delta isTagStart IsWordChar Char.isAlphanum Char.isAlpha Char.isUpper Char.isLower Char.isDigit
  simp [Char.le_def, or_assoc]

/-- The test for a registry is exact. -/
theorem isRegistry_iff : isRegistry a = true ↔ IsHost a := by
  simp [isRegistry, IsHost, or_assoc]

/-- The test for a tag is exact. -/
theorem isTag_iff : isTag g = true ↔ IsLabel g := by
  cases g with
  | nil => simp [isTag, IsLabel]
  | cons c s =>
    simp only [isTag, IsLabel, Bool.and_eq_true, Bool.or_eq_true, decide_eq_true_eq, beq_iff_eq,
      List.all_eq_true, isTagStart_iff, Nat.lt_succ_iff, or_assoc]
    constructor
    · rintro ⟨⟨hc, hlen⟩, hs⟩
      exact ⟨c, s, rfl, hc, hlen, hs⟩
    · rintro ⟨c, s, he, hc, hlen, hs⟩
      cases he
      exact ⟨⟨hc, hlen⟩, hs⟩

/-- A slash stands between the parts of a repository, in none of them. -/
theorem not_isPathChar_slash : ¬ IsPathChar '/' := by
  rw [← isRepositoryChar_iff]
  decide

/-- The test for a repository is exact. -/
theorem isRepository_iff : isRepository p = true ↔ IsPath p := by
  have hall : ∀ ps : List (List Char),
      ps.all (fun a => a ≠ [] && a.all isRepositoryChar) = true ↔
        ∀ a ∈ ps, a ≠ [] ∧ ∀ c ∈ a, IsPathChar c := by
    intro ps
    simp [isRepositoryChar_iff]
  unfold isRepository
  rw [hall]
  constructor
  · intro h
    exact ⟨Text.parts '/' p, Text.parts_ne_nil '/' p, (Text.join_parts '/' p).symm, h⟩
  · rintro ⟨ps, hne, rfl, h⟩
    rwa [Text.parts_join hne fun a ha hslash => not_isPathChar_slash ((h a ha).2 '/' hslash)]

/-- A character of a text that was put together separates its parts or comes from one of them. -/
theorem mem_join {sep : Char} {ps : List (List Char)} (h : c ∈ Text.join [sep] ps) :
    c = sep ∨ ∃ a ∈ ps, c ∈ a := by
  induction ps with
  | nil => cases h
  | cons a ps ih =>
    cases ps with
    | nil => exact .inr ⟨a, .head _, h⟩
    | cons a' ps =>
      rcases List.mem_append.1 h with h | h
      · rcases List.mem_append.1 h with h | h
        · exact .inr ⟨a, .head _, h⟩
        · exact .inl (List.mem_singleton.1 h)
      · exact (ih h).imp_right fun ⟨x, hx, hc⟩ => ⟨x, .tail _ hx, hc⟩

/-- A repository has no colon. -/
theorem IsPath.not_mem_colon (h : IsPath p) : ':' ∉ p := by
  obtain ⟨ps, -, rfl, hps⟩ := h
  intro hmem
  rcases mem_join hmem with hsep | ⟨a, ha, hc⟩
  · cases hsep
  · have hcolon := (hps a ha).2 ':' hc
    rw [← isRepositoryChar_iff] at hcolon
    cases hcolon

/-- A tag has neither a slash nor a colon. -/
theorem IsLabel.not_mem (h : IsLabel g) : '/' ∉ g ∧ ':' ∉ g := by
  obtain ⟨c, s, rfl, hc, -, hs⟩ := h
  have hall : ∀ x ∈ c :: s, IsWordChar x ∨ x = '.' ∨ x = '-' :=
    List.forall_mem_cons.2 ⟨.inl hc, hs⟩
  simp only [← isTagStart_iff] at hall
  constructor <;> intro hmem <;> exact absurd (hall _ hmem) (by decide)

/-! ## Cuts -/

/-- What stands before the first slash is all that was written before it. -/
theorem takeWhile_append_slash (h : '/' ∉ a) (b : List Char) :
    (a ++ '/' :: b).takeWhile (· ≠ '/') = a := by
  have ha : ∀ x ∈ a, decide (x ≠ '/') = true := fun x hx => decide_eq_true fun e => h (e ▸ hx)
  rw [List.takeWhile_append_of_pos ha, List.takeWhile_cons_of_neg (by decide), List.append_nil]

/-- The text before the first slash is cut off if it is a registry, and nothing is lost but that
slash. -/
theorem cutRegistry_spec (a : List Char) : ∃ r rest, cutRegistry a = (r, rest) ∧
    a = r.elim [] (· ++ ['/']) ++ rest ∧
    ∀ h, r = some h ↔ '/' ∈ a ∧ h = a.takeWhile (· ≠ '/') ∧ IsHost h := by
  unfold cutRegistry
  split
  · next host rest hcut =>
    obtain ⟨rfl, hslash⟩ := Text.cutFirst_eq_some hcut
    rw [takeWhile_append_slash hslash]
    split
    · next hhost =>
      refine ⟨some host, rest, rfl, by simp, fun h => ⟨fun he => ?_, fun ⟨_, he, _⟩ => he ▸ rfl⟩⟩
      cases he
      exact ⟨by simp, rfl, isRegistry_iff.1 hhost⟩
    · next hhost =>
      refine ⟨none, _, rfl, rfl, fun h => ⟨nofun, fun ⟨_, he, hh⟩ => ?_⟩⟩
      exact absurd (isRegistry_iff.2 (he ▸ hh)) hhost
  · next hcut =>
    have hslash := Text.cutFirst_eq_none_iff.1 hcut
    exact ⟨none, a, rfl, rfl, fun h => ⟨nofun, fun ⟨hmem, _⟩ => absurd hmem hslash⟩⟩

/-- The text after a colon is cut off, or the tag is the default one, and nothing is lost but that
colon. -/
theorem cutTag_spec (a : List Char) : ∃ (p : List Char) (t : Option (List Char)),
    cutTag a = (p, t.getD "latest".toList) ∧ a = p ++ t.elim [] (':' :: ·) := by
  unfold cutTag
  split
  · next path name hslash =>
    obtain ⟨rfl, -⟩ := Text.cutLast_eq_some hslash
    split
    · next name tag hcolon =>
      obtain ⟨rfl, -⟩ := Text.cutLast_eq_some hcolon
      exact ⟨_, some tag, rfl, by simp⟩
    · exact ⟨_, none, rfl, by simp⟩
  · cases hcolon : Text.cutLast ':' a with
    | none => exact ⟨a, none, rfl, by simp⟩
    | some pg =>
      obtain ⟨rfl, -⟩ := Text.cutLast_eq_some hcolon
      exact ⟨_, some pg.2, rfl, rfl⟩

/-- The tag begins after the last colon, if no slash comes after that. -/
theorem cutTag_append (p : List Char) (hslash : '/' ∉ g) (hcolon : ':' ∉ g) :
    cutTag (p ++ ':' :: g) = (p, g) := by
  have hno : ∀ {a : List Char}, '/' ∉ a → '/' ∉ a ++ ':' :: g := fun ha => by simp [ha, hslash]
  unfold cutTag
  cases hcut : Text.cutLast '/' p with
  | none =>
    rw [Text.cutLast_eq_none_iff.2 (hno (Text.cutLast_eq_none_iff.1 hcut)),
      Text.cutLast_append hcolon]
    rfl
  | some pn =>
    obtain ⟨path, name⟩ := pn
    obtain ⟨rfl, hname⟩ := Text.cutLast_eq_some hcut
    rw [List.append_assoc, List.cons_append, Text.cutLast_append (hno hname)]
    dsimp only
    rw [Text.cutLast_append hcolon]

/-- A text without a colon has no tag. -/
theorem cutTag_of_not_mem (h : ':' ∉ p) : cutTag p = (p, "latest".toList) := by
  obtain ⟨p', t, hcut, rfl⟩ := cutTag_spec p
  cases t with
  | none => simpa using hcut
  | some t => exact absurd (List.mem_append_right p' (.head t)) h

/-! ## Reading -/

/-- The characters of a written reference: those of the registry and a slash, those of the
repository, and a colon and those of the tag, where there are a registry and a tag. -/
theorem Spelling.toList_text (w : Spelling) : w.text.toList =
    w.registry.elim [] (fun r => r.toList ++ ['/']) ++ w.repository.toList ++
      w.tag.elim [] (fun t => ':' :: t.toList) := by
  obtain ⟨r, p, t⟩ := w
  cases r <;> cases t <;> simp [text]

/-- A text is read if it has no at sign and no blank, and what is left of it after the cuts are a
repository and a tag. -/
theorem parse_eq_some_iff : parse s = some t ↔
    '@' ∉ s.toList ∧ (∀ c ∈ s.toList, Text.isBlank c = false) ∧
    ∃ r rest p g, cutRegistry s.toList = (r, rest) ∧ cutTag rest = (p, g) ∧ IsPath p ∧ IsLabel g ∧
      t = ⟨r.map String.ofList, String.ofList p, String.ofList g⟩ := by
  have hchars : (s.toList.contains '@' || s.toList.any Text.isBlank) = false ↔
      '@' ∉ s.toList ∧ ∀ c ∈ s.toList, Text.isBlank c = false := by
    simp
  unfold parse
  dsimp only
  rw [← and_assoc, ← hchars]
  cases s.toList.contains '@' || s.toList.any Text.isBlank with
  | true => simp
  | false =>
    simp only [Bool.false_eq_true, if_false, true_and]
    constructor
    · intro h
      cases hr : cutRegistry s.toList with
      | mk r rest =>
      cases hcut : cutTag rest with
      | mk p g =>
      simp only [hr, hcut] at h
      split at h
      · next hparts =>
        rw [Bool.and_eq_true, isRepository_iff, isTag_iff] at hparts
        cases h
        exact ⟨r, rest, p, g, rfl, hcut, hparts.1, hparts.2, rfl⟩
      · cases h
    · rintro ⟨r, rest, p, g, hr, hcut, hp, hg, rfl⟩
      simp only [hr, hcut, isRepository_iff.2 hp, isTag_iff.2 hg, Bool.and_self, if_true]

/-- What is read is spelt as it should be, and the reference has the parts of the spelling. -/
theorem exists_spells (h : parse s = some t) : ∃ w, Spells s w ∧ t = w.reference := by
  obtain ⟨hat, hblank, r, rest, p, g, hr, hcut, hp, hg, rfl⟩ := parse_eq_some_iff.1 h
  obtain ⟨r', rest', hr', htext, hregistry⟩ := cutRegistry_spec s.toList
  cases hr.symm.trans hr'
  obtain ⟨p', tag, hcut', rfl⟩ := cutTag_spec rest
  cases hcut.symm.trans hcut'
  refine ⟨⟨r.map String.ofList, String.ofList p, tag.map String.ofList⟩, ?_, ?_⟩
  · refine ⟨?_, hat, hblank, ?_, ?_, fun h => ?_⟩
    · rw [← String.toList_inj, Spelling.toList_text, htext, List.append_assoc]
      cases r <;> cases tag <;> simp
    · rwa [String.toList_ofList]
    · rintro _ ht
      obtain ⟨g, rfl, rfl⟩ := Option.map_eq_some_iff.1 ht
      rwa [String.toList_ofList]
    · rw [← hregistry, Option.map_eq_some_iff]
      constructor
      · rintro ⟨h, hr, rfl⟩
        rwa [String.toList_ofList]
      · exact fun hr => ⟨_, hr, String.ofList_toList⟩
  · cases tag <;> rfl

/-- A reference is read as it is spelt. -/
theorem Spells.parse_eq (h : Spells s w) : parse s = some w.reference := by
  obtain ⟨r, rest, hr, htext, hregistry⟩ := cutRegistry_spec s.toList
  have hw : r.map String.ofList = w.registry := by
    refine Option.ext fun host => ?_
    rw [h.registry, ← hregistry, Option.map_eq_some_iff]
    constructor
    · rintro ⟨h, hr, rfl⟩
      rwa [String.toList_ofList]
    · exact fun hr => ⟨_, hr, String.ofList_toList⟩
  have hrest : rest = w.repository.toList ++ w.tag.elim [] (fun t => ':' :: t.toList) := by
    have hs := congrArg String.toList h.text
    rw [htext, Spelling.toList_text, ← hw, List.append_assoc] at hs
    cases r with
    | none => exact hs
    | some host => simpa using hs
  refine parse_eq_some_iff.2 ⟨h.noAt, h.noBlank, r, rest, w.repository.toList,
    (w.tag.getD "latest").toList, hr, ?_, h.repository, ?_, ?_⟩
  · cases ht : w.tag with
    | none =>
      rw [hrest, ht]
      simpa using cutTag_of_not_mem h.repository.not_mem_colon
    | some t =>
      obtain ⟨hslash, hcolon⟩ := (h.tag t ht).not_mem
      rw [hrest, ht]
      exact cutTag_append _ hslash hcolon
  · cases ht : w.tag with
    | none => exact isTag_iff.1 (by decide)
    | some t => exact h.tag t ht
  · simp [Spelling.reference, hw]

/-- A text is not spelt in two ways: it is read in one way only, and that leaves no choice but
whether there is a tag. -/
theorem Spells.unique (h : Spells s w) (h' : Spells s w') : w' = w := by
  obtain ⟨r, p, t⟩ := w
  obtain ⟨r', p', t'⟩ := w'
  have href := Option.some.inj (h'.parse_eq.symm.trans h.parse_eq)
  obtain ⟨rfl, rfl, -⟩ := TagReference.mk.inj href
  have htext := congrArg String.toList (h'.text.symm.trans h.text)
  rw [Spelling.toList_text, Spelling.toList_text, List.append_cancel_left_eq] at htext
  have htag : t' = t := by
    cases t <;> cases t' <;> simp_all [String.toList_inj]
  rw [htag]

/-- **The reader takes the texts that its grammar spells.** A text is read if and only if it can be
written as a registry, a repository and a tag, of which the first and the last may be left out. If
so it can be written so in one way, and the reference that is read has these parts. -/
theorem parse_grammar (s : String) :
    ((parse s).isSome = true ↔ ∃ w, Spells s w) ∧
    ∀ w, Spells s w → parse s = some w.reference ∧ ∀ w', Spells s w' → w' = w := by
  refine ⟨⟨fun h => ?_, fun ⟨w, h⟩ => ?_⟩, fun w h => ⟨h.parse_eq, fun w' h' => h.unique h'⟩⟩
  · obtain ⟨t, ht⟩ := Option.isSome_iff_exists.1 h
    obtain ⟨w, hw, -⟩ := exists_spells ht
    exact ⟨w, hw⟩
  · rw [h.parse_eq]
    rfl

/-- The colon of a port does not begin a tag. -/
theorem parse_grammar_port :
    let w : Spelling := ⟨some "localhost:5000", "team/app", none⟩
    Spells "localhost:5000/team/app" w ∧
      parse "localhost:5000/team/app" = some ⟨some "localhost:5000", "team/app", "latest"⟩ ∧
      ∀ w', Spells "localhost:5000/team/app" w' → w' = w := by
  intro w
  have hblank : "localhost:5000/team/app".toList.any Text.isBlank = false := by decide
  have hw : Spells "localhost:5000/team/app" w := by
    refine ⟨by decide, by decide, by simpa using hblank, isRepository_iff.1 (by decide), nofun,
      fun r => ?_⟩
    constructor
    · intro hr
      cases hr
      exact ⟨by decide, by decide, isRegistry_iff.1 (by decide)⟩
    · rintro ⟨-, hr, -⟩
      exact congrArg some (String.toList_inj.1 (hr.trans (by decide))).symm
  obtain ⟨-, hread⟩ := parse_grammar "localhost:5000/team/app"
  exact ⟨hw, hread w hw⟩

end

end Prewarm.TagReference
