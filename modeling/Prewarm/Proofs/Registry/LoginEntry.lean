import Prewarm.Proofs.Base64
import Prewarm.Proofs.Text.Octets
import Prewarm.Registry.PullSecret

/-!
# Logins in one text

A login is written in one text, user and password with a colon between them, in base64
(`Login.written`). A user without a colon is told apart from the password by the first colon, octets
are written in base64 in one way, and no digit is a blank; so a text writes one login at most, with
whatever blanks around it (`decode?_eq_some_iff`), and a text that writes none has one of three
faults (`Unusable`). What an entry comes to follows (`login?_exact`).
-/

namespace Prewarm

/-- The text that writes a login. -/
def Login.written (l : Login) : List Char :=
  Base64.encode (Bytes.ofString (l.username ++ ":" ++ l.password))

namespace LoginEntry

/-- What keeps a text from being a login. -/
inductive Unusable (auth : String) : Prop
  /-- It is no base64, or not in the form in which octets are written. -/
  | notBase64 : (∀ b, Text.trim auth.toList ≠ Base64.encode b) → Unusable auth
  /-- The octets spell no text. -/
  | notText (b : Bytes) : Text.trim auth.toList = Base64.encode b →
      (∀ s, Bytes.ofString s ≠ b) → Unusable auth
  /-- The text has no colon in it. -/
  | noColon (s : String) : Text.trim auth.toList = Base64.encode (Bytes.ofString s) →
      ':' ∉ s.toList → Unusable auth

section
variable {before after : List Char} {auth : String} {l : Login} {e : LoginEntry}

/-! ## Blanks around base64 -/

/-- There are no blanks in base64. -/
theorem not_isBlank_of_mem_encode {b : Bytes} {c : Char} (h : c ∈ Base64.encode b) :
    Text.isBlank c = false :=
  Base64.forall_mem_encode (p := fun c => Text.isBlank c = false) (by decide) (by decide) b c h

/-- Blanks around base64 are dropped. -/
theorem trim_encode (hbefore : ∀ c ∈ before, Text.isBlank c = true)
    (hafter : ∀ c ∈ after, Text.isBlank c = true) (b : Bytes) :
    Text.trim (before ++ Base64.encode b ++ after) = Base64.encode b :=
  Text.trim_append hbefore hafter (fun _ hc => not_isBlank_of_mem_encode (List.mem_of_head? hc))
    (fun _ hc => not_isBlank_of_mem_encode (List.mem_of_getLast? hc))

/-! ## One text -/

/-- The login that a text writes is the one whose written form it is, but for blanks around it. -/
theorem decode?_eq_some_iff : decode? auth = some l ↔
    ':' ∉ l.username.toList ∧ Text.trim auth.toList = l.written := by
  simp only [decode?, Option.bind_eq_bind, Option.bind_eq_some_iff, Base64.decode_eq_some_iff,
    Bytes.toString?_eq_some_iff]
  constructor
  · rintro ⟨_, htrim, plain, rfl, ⟨user, password⟩, hcut, h⟩
    obtain rfl := Option.some.inj h
    obtain ⟨hplain, huser⟩ := Text.cutFirst_eq_some hcut
    refine ⟨by rwa [String.toList_ofList], ?_⟩
    have hsame : plain = String.ofList user ++ ":" ++ String.ofList password := by
      refine String.toList_inj.1 ?_
      simp [hplain]
    rw [htrim, Login.written, ← hsame]
  · rintro ⟨huser, htrim⟩
    refine ⟨_, htrim, _, rfl, (l.username.toList, l.password.toList), ?_, ?_⟩
    · have hplain : (l.username ++ ":" ++ l.password).toList =
          l.username.toList ++ ':' :: l.password.toList := by
        simp
      rw [hplain, Text.cutFirst_append huser]
    · rw [String.ofList_toList, String.ofList_toList]

/-- A text writes no login if and only if it is unusable. -/
theorem decode?_eq_none_iff : decode? auth = none ↔ Unusable auth := by
  constructor
  · intro h
    simp only [decode?, Option.bind_eq_bind, Option.bind_eq_none_iff] at h
    cases hoctets : Base64.decode (Text.trim auth.toList) with
    | none => exact .notBase64 (Base64.decode_eq_none_iff.1 hoctets)
    | some b =>
      have htrim := Base64.decode_eq_some_iff.1 hoctets
      cases hplain : Bytes.toString? b with
      | none => exact .notText b htrim (Bytes.toString?_eq_none_iff.1 hplain)
      | some plain =>
        have hsame := Bytes.toString?_eq_some_iff.1 hplain
        refine .noColon plain (hsame ▸ htrim) (Text.cutFirst_eq_none_iff.1 ?_)
        cases hcut : Text.cutFirst ':' plain.toList with
        | none => rfl
        | some p => cases h b hoctets plain hplain p hcut
  · intro h
    refine Option.eq_none_iff_forall_ne_some.2 fun l hl => ?_
    obtain ⟨-, htrim⟩ := decode?_eq_some_iff.1 hl
    cases h with
    | notBase64 hnot => exact hnot _ htrim
    | notText b hb hnot =>
      have hsame := Base64.encode_inj.1 (hb.symm.trans htrim)
      exact hnot _ hsame.symm
    | noColon s hs hcolon =>
      have hsame := Bytes.ofString_inj.1 (Base64.encode_inj.1 (hs.symm.trans htrim))
      refine hcolon (hsame ▸ ?_)
      simp

/-! ## Entries -/

theorem login?_of_both {u p : String} (hu : e.username = some u) (hp : e.password = some p) :
    e.login? = some ⟨u, p⟩ := by
  simp only [login?, hu, hp]

theorem login?_of_not_both (h : e.username = none ∨ e.password = none) :
    e.login? = e.auth.bind decode? := by
  rcases h with h | h
  · simp only [login?, h]
  · cases hu : e.username <;> simp only [login?, h, hu]

end

/-- **A login in one text is read as it was written, and nothing else is read.** An entry with a
user and a password comes to these, whatever its text is. Of any other entry the text decides: the
written form of a login whose user has no colon comes to that login, whatever blanks are around it;
a login that an entry comes to is written as its text says, but for blanks around it; and an entry
comes to none if and only if it has no text or an unusable one. -/
theorem login?_exact (e : LoginEntry) :
    (∀ u p, e.username = some u → e.password = some p → e.login? = some ⟨u, p⟩) ∧
    (e.username = none ∨ e.password = none →
      (∀ (l : Login) (auth : String) (before after : List Char), ':' ∉ l.username.toList →
        (∀ c ∈ before, Text.isBlank c = true) → (∀ c ∈ after, Text.isBlank c = true) →
        e.auth = some auth → auth.toList = before ++ l.written ++ after → e.login? = some l) ∧
      (∀ l : Login, e.login? = some l → ':' ∉ l.username.toList ∧
        ∃ auth, e.auth = some auth ∧ Text.trim auth.toList = l.written) ∧
      (e.login? = none ↔ ∀ auth, e.auth = some auth → Unusable auth)) := by
  refine ⟨fun u p => login?_of_both, fun hnot => ?_⟩
  rw [login?_of_not_both hnot]
  refine ⟨fun l auth before after huser hbefore hafter hauth hwritten => ?_, fun l hl => ?_, ?_⟩
  · rw [hauth, Option.bind_some]
    refine decode?_eq_some_iff.2 ⟨huser, ?_⟩
    rw [hwritten]
    exact trim_encode hbefore hafter _
  · obtain ⟨auth, hauth, hl⟩ := Option.bind_eq_some_iff.1 hl
    obtain ⟨huser, htrim⟩ := decode?_eq_some_iff.1 hl
    exact ⟨huser, auth, hauth, htrim⟩
  · rw [Option.bind_eq_none_iff]
    exact forall₂_congr fun auth _ => decode?_eq_none_iff

/-- A password with a colon in it is read from a text with blanks around it, and a user and a
password stand whatever the text is. -/
theorem login?_exact_colon :
    let e : LoginEntry := { username := some "robin", auth := some " YmF0Om06YW4=\n" }
    let f : LoginEntry := { username := some "bat", password := some "man", auth := some "=" }
    e.login? = some ⟨"bat", "m:an"⟩ ∧ f.login? = some ⟨"bat", "man"⟩ := by
  intro e f
  have hwritten : " YmF0Om06YW4=\n".toList =
      [' '] ++ Login.written ⟨"bat", "m:an"⟩ ++ ['\n'] := by
    decide +kernel
  have hblank : ∀ c ∈ [' '], Text.isBlank c = true := List.forall_mem_singleton.2 rfl
  have hbreak : ∀ c ∈ ['\n'], Text.isBlank c = true := List.forall_mem_singleton.2 rfl
  exact ⟨((login?_exact e).2 (.inr rfl)).1 _ _ _ _ (by decide) hblank hbreak rfl hwritten,
    (login?_exact f).1 _ _ rfl rfl⟩

end LoginEntry

end Prewarm
