import Prewarm.Registry.Challenge

/-!
# Challenges as they are written

A challenge is written as a scheme, a blank, and parameters `name="value"` with commas between them
and blanks after the commas. In a value a backslash stands before each quote and each backslash, so
the quote that ends it is the first one that has none before it (`quotedValue_escape`), whatever
commas, blanks, quotes and equals signs are in the value. A name ends at its equals sign. So each
round of the reader takes one parameter and leaves what follows it (`param?_text`), and what is read
is what was written (`read_as_written`).

Of a text that nobody wrote so each round takes a character at least, or it is the last
(`exists_taken`, `rounds_paramsOf`).
-/

namespace Prewarm.Challenge

/-! ## Writing -/

/-- A value between its quotes: a backslash stands before each quote and each backslash. -/
def escape (v : List Char) : List Char :=
  v.flatMap fun c => if c = '"' ∨ c = '\\' then ['\\', c] else [c]

/-- A parameter, and the blanks that are written before it. -/
structure Parameter where
  gap : String
  name : String
  value : String
  deriving DecidableEq

/-- A parameter as it is written. -/
def Parameter.text (p : Parameter) : List Char :=
  p.gap.toList ++ p.name.toList ++ '=' :: '"' :: (escape p.value.toList ++ ['"'])

/-- A challenge as it is written. -/
def text (scheme : String) (ps : List Parameter) : String :=
  scheme ++ " " ++ String.ofList (Text.join [','] (ps.map Parameter.text))

/-- Whether a text can be a scheme. -/
structure IsScheme (scheme : String) : Prop where
  ne_empty : scheme ≠ ""
  noBlank : ∀ c ∈ scheme.toList, Text.isBlank c = false

/-- Whether a parameter can be written: its name is a text without equals signs, commas and blanks.
Its value may be any text. -/
structure Parameter.IsWritable (p : Parameter) : Prop where
  gap : ∀ c ∈ p.gap.toList, Text.isBlank c = true
  ne_empty : p.name ≠ ""
  name : ∀ c ∈ p.name.toList, c ≠ '=' ∧ c ≠ ',' ∧ Text.isBlank c = false

section
variable {scheme : String} {p : Parameter} {ps : List Parameter} {s rest a : List Char}
  {found : List Char × List Char}

/-! ## Rounds -/

/-- The rounds in which the parameters of a text are read: each begins where the one before it has
ended, and the last one finds none. -/
inductive Rounds : List Char → List (List Char × List Char) → Prop
  | last {s : List Char} : param? s = none → Rounds s []
  | next {s rest : List Char} {p : List Char × List Char} {ps : List (List Char × List Char)} :
      param? s = some (p, rest) → Rounds rest ps → Rounds s (p :: ps)

theorem quotedValue_suffix (s : List Char) : (quotedValue s).2 <:+ s := by
  fun_induction quotedValue s with
  | case1 => exact List.suffix_refl []
  | case2 c s v rest hquoted ih =>
    rw [hquoted] at ih
    exact (ih.trans (List.suffix_cons c s)).trans (List.suffix_cons '\\' (c :: s))
  | case3 => exact List.nil_suffix
  | case4 s => exact List.suffix_cons '"' s
  | case5 c s _ _ _ v rest hquoted ih =>
    rw [hquoted] at ih
    exact ih.trans (List.suffix_cons c s)

theorem value_suffix (s : List Char) : (value s).2 <:+ s := by
  unfold value
  split
  · next s => exact (quotedValue_suffix s).trans (List.suffix_cons '"' s)
  · exact List.dropWhile_suffix _

/-- A round that finds a parameter takes at least one character off the beginning. -/
theorem exists_taken (h : param? s = some (found, rest)) :
    ∃ taken, taken ≠ [] ∧ s = taken ++ rest := by
  have hsuffix : rest <:+ s := by
    unfold param? at h
    dsimp only at h
    split at h
    · cases h
    · cases h
      exact (((value_suffix _).trans (List.drop_suffix 1 _)).trans (List.dropWhile_suffix _)).trans
        (List.dropWhile_suffix _)
  obtain ⟨taken, rfl⟩ := hsuffix
  refine ⟨taken, ?_, rfl⟩
  rintro rfl
  exact absurd (param?_length_lt h) (Nat.lt_irrefl _)

theorem paramsOf_of_none (h : param? s = none) : paramsOf s = [] := by
  rw [paramsOf]
  split
  · rfl
  · next hsome => cases h.symm.trans hsome

theorem paramsOf_of_some (h : param? s = some (found, rest)) :
    paramsOf s = found :: paramsOf rest := by
  rw [paramsOf]
  split
  · next hnone => cases hnone.symm.trans h
  · next hsome =>
    cases hsome.symm.trans h
    rfl

/-- The reader goes through the rounds of a text, and there are no more than it has characters. -/
theorem rounds_paramsOf (s : List Char) :
    Rounds s (paramsOf s) ∧ (paramsOf s).length ≤ s.length := by
  generalize hlen : s.length = n
  induction n using Nat.strongRecOn generalizing s with
  | ind n ih =>
    cases hparam : param? s with
    | none =>
      rw [paramsOf_of_none hparam]
      exact ⟨.last hparam, Nat.zero_le n⟩
    | some round =>
      obtain ⟨found, rest⟩ := round
      have hlt : rest.length < n := hlen ▸ param?_length_lt hparam
      obtain ⟨hrounds, hle⟩ := ih rest.length hlt rest rfl
      rw [paramsOf_of_some hparam, List.length_cons]
      exact ⟨.next hparam hrounds, Nat.lt_of_le_of_lt hle hlt⟩

/-! ## Reading what is written -/

/-- A value in quotes is read as it is, and what follows its closing quote is left. -/
@[simp] theorem quotedValue_escape (v rest : List Char) :
    quotedValue (escape v ++ '"' :: rest) = (v, rest) := by
  induction v with
  | nil => rfl
  | cons c v ih =>
    have hcons : escape (c :: v) =
        (if c = '"' ∨ c = '\\' then ['\\', c] else [c]) ++ escape v := List.flatMap_cons
    rw [hcons]
    split
    · simp only [List.cons_append, List.nil_append, quotedValue, ih]
    · next hplain =>
      obtain ⟨hquote, hescape⟩ := not_or.1 hplain
      rw [List.singleton_append, List.cons_append,
        quotedValue.eq_4 _ _ (fun _ _ h => absurd h hescape) (fun h => absurd h hescape),
        if_neg hquote, ih]

/-- A round takes a parameter as it was written, after any commas and blanks. -/
theorem param?_text (hp : p.IsWritable) (ha : ∀ c ∈ a, isGap c = true) (rest : List Char) :
    param? (a ++ (p.text ++ rest)) = some ((lower p.name.toList, p.value.toList), rest) := by
  have hne : p.name.toList ≠ [] := fun h => hp.ne_empty (String.toList_eq_nil_iff.1 h)
  have hgap : ∀ c ∈ a ++ p.gap.toList, isGap c = true := by
    refine List.forall_mem_append.2 ⟨ha, fun c hc => ?_⟩
    rw [isGap, hp.gap c hc, Bool.or_true]
  have hnotGap : ∀ c ∈ p.name.toList, isGap c = false := by
    intro c hc
    obtain ⟨-, hcomma, hblank⟩ := hp.name c hc
    rw [isGap, hblank, Bool.or_false]
    exact beq_eq_false_iff_ne.2 hcomma
  have hequals : ∀ c ∈ p.name.toList, decide (c ≠ '=') = true :=
    fun c hc => decide_eq_true (hp.name c hc).1
  have htrim : Text.trim p.name.toList = p.name.toList := by
    have hnil : ∀ c ∈ ([] : List Char), Text.isBlank c = true := nofun
    have htrim := Text.trim_append hnil hnil
      (fun c hc => (hp.name c (List.mem_of_mem_head? hc)).2.2)
      (fun c hc => (hp.name c (List.mem_of_getLast? hc)).2.2)
    rwa [List.nil_append, List.append_nil] at htrim
  have hdrop : (a ++ (p.text ++ rest)).dropWhile isGap =
      p.name.toList ++ '=' :: '"' :: (escape p.value.toList ++ '"' :: rest) := by
    have htext : a ++ (p.text ++ rest) = (a ++ p.gap.toList) ++
        (p.name.toList ++ '=' :: '"' :: (escape p.value.toList ++ '"' :: rest)) := by
      simp [Parameter.text]
    rw [htext, List.dropWhile_append_of_pos hgap]
    cases hname : p.name.toList with
    | nil => exact absurd hname hne
    | cons c cs =>
      have hc : isGap c = false := hnotGap c (hname ▸ .head _)
      exact List.dropWhile_cons_of_neg (Bool.eq_false_iff.1 hc)
  unfold param?
  dsimp only
  rw [hdrop, List.takeWhile_append_of_pos hequals, List.dropWhile_append_of_pos hequals,
    List.takeWhile_cons_of_neg (by decide), List.dropWhile_cons_of_neg (by decide),
    List.append_nil, if_neg hne, List.drop_one, List.tail_cons, value, quotedValue_escape, htrim]

/-- The parameters that follow others are read as they were written. -/
theorem paramsOf_following (hps : ∀ p ∈ ps, p.IsWritable) :
    paramsOf (ps.flatMap (',' :: Parameter.text ·)) =
      ps.map fun p => (lower p.name.toList, p.value.toList) := by
  induction ps with
  | nil => exact paramsOf_of_none rfl
  | cons p ps ih =>
    obtain ⟨hp, hps⟩ := List.forall_mem_cons.1 hps
    have hcomma : ∀ c ∈ [','], isGap c = true := List.forall_mem_singleton.2 rfl
    have hround := param?_text hp hcomma (ps.flatMap (',' :: Parameter.text ·))
    rw [List.map_cons, ← ih hps, ← paramsOf_of_some hround]
    rfl

/-- Parameters are read as they were written. -/
theorem paramsOf_join (hps : ∀ p ∈ ps, p.IsWritable) :
    paramsOf (Text.join [','] (ps.map Parameter.text)) =
      ps.map fun p => (lower p.name.toList, p.value.toList) := by
  cases ps with
  | nil => exact paramsOf_of_none rfl
  | cons p ps =>
    obtain ⟨hp, hps⟩ := List.forall_mem_cons.1 hps
    have hround := param?_text (a := []) hp nofun (ps.flatMap (',' :: Parameter.text ·))
    rw [List.map_cons, Text.join_cons, List.flatMap_map, List.map_cons, ← paramsOf_following hps,
      ← paramsOf_of_some hround]
    rfl

/-- Parameters end with a quote. -/
theorem exists_join_concat (p : Parameter) (ps : List Parameter) :
    ∃ s, Text.join [','] ((p :: ps).map Parameter.text) = s ++ ['"'] := by
  induction ps generalizing p with
  | nil => exact ⟨p.gap.toList ++ p.name.toList ++ '=' :: '"' :: escape p.value.toList,
      by simp [Text.join, Parameter.text]⟩
  | cons p' ps ih =>
    obtain ⟨s, hs⟩ := ih p'
    have hjoin : Text.join [','] ((p :: p' :: ps).map Parameter.text) =
        p.text ++ [','] ++ Text.join [','] ((p' :: ps).map Parameter.text) := rfl
    exact ⟨p.text ++ [','] ++ s, by rw [hjoin, hs, List.append_assoc _ s]⟩

/-- A challenge is cut after its scheme. -/
theorem cut_text (hscheme : IsScheme scheme) (ps : List Parameter) :
    let s := Text.trim (text scheme ps).toList
    (Text.cutFirst ' ' s).getD (s, []) =
      (scheme.toList, Text.join [','] (ps.map Parameter.text)) := by
  have hnil : ∀ c ∈ ([] : List Char), Text.isBlank c = true := nofun
  have hspace : ' ' ∉ scheme.toList := fun hmem => nomatch hscheme.noBlank ' ' hmem
  have htext : (text scheme ps).toList =
      scheme.toList ++ ' ' :: Text.join [','] (ps.map Parameter.text) := by
    simp [text]
  have hhead : ∀ rest c, (scheme.toList ++ rest).head? = some c → Text.isBlank c = false := by
    intro rest c hc
    cases hlist : scheme.toList with
    | nil => exact absurd (String.toList_eq_nil_iff.1 hlist) hscheme.ne_empty
    | cons d s =>
      rw [hlist] at hc
      cases hc
      exact hscheme.noBlank c (hlist ▸ .head _)
  dsimp only
  rw [htext]
  cases ps with
  | nil =>
    -- Without parameters the blank after the scheme is trimmed off.
    have hblank : ∀ c ∈ [' '], Text.isBlank c = true := List.forall_mem_singleton.2 (by decide)
    have htrim : Text.trim (scheme.toList ++ [' ']) = scheme.toList :=
      Text.trim_append hnil hblank (fun c hc => hhead [] c (by rwa [List.append_nil]))
        fun c hc => hscheme.noBlank c (List.mem_of_getLast? hc)
    rw [show Text.join [','] (([] : List Parameter).map Parameter.text) = [] from rfl, htrim,
      Text.cutFirst_eq_none_iff.2 hspace]
    rfl
  | cons p ps =>
    obtain ⟨s, hs⟩ := exists_join_concat p ps
    have hlast : (scheme.toList ++ ' ' :: (s ++ ['"'])).getLast? = some '"' := by
      rw [← List.cons_append, ← List.append_assoc, List.getLast?_concat]
    have htrim := Text.trim_append hnil hnil (hhead (' ' :: (s ++ ['"']))) fun c hc => by
      cases hlast.symm.trans hc
      decide
    rw [List.nil_append, List.append_nil] at htrim
    rw [hs, htrim, Text.cutFirst_append hspace]
    rfl

@[simp] theorem ofList_lower (s : String) : String.ofList (lower s.toList) = s.toLower := by
  rw [← String.toList_inj, String.toList_ofList]
  exact String.toList_map.symm

/-- What is read of a challenge are the scheme and the parameters that were written, the scheme and
the names in lower case. -/
theorem parse_text (hscheme : IsScheme scheme) (hps : ∀ p ∈ ps, p.IsWritable) :
    parse (text scheme ps) =
      ⟨scheme.toLower, .ofList (ps.map fun p => (p.name.toLower, p.value))⟩ := by
  have hpairs : (ps.map fun p => (lower p.name.toList, p.value.toList)).map
      (fun q => (String.ofList q.1, String.ofList q.2)) =
        ps.map fun p => (p.name.toLower, p.value) := by
    rw [List.map_map]
    refine List.map_congr_left fun p _ => ?_
    dsimp only [Function.comp_apply]
    rw [ofList_lower, String.ofList_toList]
  have hcut := cut_text hscheme ps
  unfold parse
  dsimp only at hcut ⊢
  rw [hcut]
  dsimp only
  rw [paramsOf_join hps, ofList_lower, ← hpairs]

/-- **A challenge is read as it was written, and every text is read to an end.** What is read of a
challenge that was written is its scheme, and for each name the value of the last parameter with
that name, exactly as it was given; scheme and names are in lower case, and there are no other
names. Whatever a text is, a round that finds a parameter in it takes at least one character, so
the rounds come to an end after no more rounds than there are characters. -/
theorem read_as_written (hscheme : IsScheme scheme) (hps : ∀ p ∈ ps, p.IsWritable) :
    ((parse (text scheme ps)).scheme = scheme.toLower ∧
      ∀ name, (parse (text scheme ps)).params.get? name =
        (ps.reverse.find? (fun p => decide (p.name.toLower = name))).map Parameter.value) ∧
    ∀ s, (∀ found rest, param? s = some (found, rest) → ∃ taken, taken ≠ [] ∧ s = taken ++ rest) ∧
      Rounds s (paramsOf s) ∧ (paramsOf s).length ≤ s.length := by
  refine ⟨?_, fun s => ⟨fun found rest h => exists_taken h, rounds_paramsOf s⟩⟩
  rw [parse_text hscheme hps]
  refine ⟨rfl, fun name => ?_⟩
  rw [Table.get?_ofList, ← List.map_reverse, List.find?_map, Option.map_map]
  rfl

/-- Of two parameters with one name the later is read, and its value has commas, quotes,
backslashes and equals signs in it. -/
theorem read_as_written_twice :
    let ps : List Parameter :=
      [⟨"", "Scope", "pull"⟩, ⟨" ", "realm", "https://auth/t?a=b,c"⟩, ⟨"  ", "scope", "a\\\",b="⟩]
    text "Bearer" ps =
      "Bearer Scope=\"pull\", realm=\"https://auth/t?a=b,c\",  scope=\"a\\\\\\\",b=\"" ∧
    (parse (text "Bearer" ps)).scheme = "bearer" ∧
    (parse (text "Bearer" ps)).params.get? "scope" = some "a\\\",b=" ∧
    (parse (text "Bearer" ps)).params.get? "realm" = some "https://auth/t?a=b,c" ∧
    (parse (text "Bearer" ps)).params.get? "service" = none := by
  intro ps
  -- This is decided over the characters of a text, and not over all that there are.
  have hall : ∀ (P : Char → Prop) [DecidablePred P] (s : List Char),
      s.all (fun c => decide (P c)) = true → ∀ c ∈ s, P c :=
    fun P _ s h c hc => of_decide_eq_true (List.all_eq_true.1 h c hc)
  have hscheme : IsScheme "Bearer" := ⟨by decide, hall _ _ rfl⟩
  have hps : ∀ p ∈ ps, p.IsWritable := by
    intro p hp
    simp only [ps, List.mem_cons, List.not_mem_nil, or_false] at hp
    obtain rfl | rfl | rfl := hp
    · exact ⟨hall _ _ rfl, by decide, hall _ _ rfl⟩
    · exact ⟨hall _ _ rfl, by decide, hall _ _ rfl⟩
    · exact ⟨hall _ _ rfl, by decide, hall _ _ rfl⟩
  obtain ⟨⟨hlower, hread⟩, -⟩ := read_as_written hscheme hps
  exact ⟨by decide, hlower.trans (by decide +kernel), (hread "scope").trans (by decide +kernel),
    (hread "realm").trans (by decide +kernel), (hread "service").trans (by decide +kernel)⟩

end

end Prewarm.Challenge
