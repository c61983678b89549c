import Prewarm.Proofs.Registry.Dialogue

/-!
# What a registry is asked

A registry may reply what it likes, so what it is asked is told by what was said before. `Follows`
says which request the protocol has next: the head of the manifest, with the login for the registry
if there is one; if that is refused for want of an authorization, a token where the challenge says,
and the head once more with what the challenge was answered with; and the manifest itself if the
last head was given but has no digest. No other request is made (`resolve_transcript`), and a tag
has a digest if and only if the protocol was gone through to its end, in the last head or of the
manifest (`asked_by_protocol`).
-/

namespace Prewarm.Registry

/-! ## The protocol -/

section
variable (t : TagReference) (login : Option Login)

/-- A challenge is answered: with what was said for it, and the authorization that it gave. -/
inductive Answered (c : Challenge) : List Exchange → Authorization → Prop
  /-- With the login for the registry, if there is one. -/
  | basic {l : Login} : c.scheme = "basic" → login = some l → Answered c [] (.basic l)
  /-- With the token that was asked for at the realm. -/
  | bearer {realm token : String} {reply : Reply} :
      c.scheme = "bearer" → c.params.get? "realm" = some realm →
      Status.isSuccess reply.code = true → tokenOf? (.ofBytes reply.body) = some (some token) →
      token ≠ "" → Answered c [⟨tokenRequest t login c realm, some reply⟩] (.bearer token)

/-- The last head has been replied to: with what was said until then, the authorization that went
with it and the reply. -/
inductive Headed : List Exchange → Option Authorization → Reply → Prop
  /-- The first head is the last one. -/
  | once {reply : Reply} :
      reply.code ≠ 401 →
      Headed [⟨headRequest t (login.map .basic), some reply⟩] (login.map .basic) reply
  /-- The registry wanted to know who asks, and was told. -/
  | again {first reply : Reply} {c : Challenge} {es : List Exchange} {a : Authorization} :
      first.code = 401 → first.challenge? = some c → Answered t login c es a →
      isHeaderValue a.text = true →
      Headed
        (⟨headRequest t (login.map .basic), some first⟩ ::
          (es ++ [⟨headRequest t (some a), some reply⟩])) (some a) reply

/-- The request that the protocol has after what was said. -/
inductive Follows : List Exchange → Request → Prop
  | head : Follows [] (headRequest t (login.map .basic))
  | token {first : Reply} {c : Challenge} {realm : String} :
      first.code = 401 → first.challenge? = some c → c.scheme = "bearer" →
      c.params.get? "realm" = some realm →
      Follows [⟨headRequest t (login.map .basic), some first⟩] (tokenRequest t login c realm)
  | headAgain {first : Reply} {c : Challenge} {es : List Exchange} {a : Authorization} :
      first.code = 401 → first.challenge? = some c → Answered t login c es a →
      Follows (⟨headRequest t (login.map .basic), some first⟩ :: es) (headRequest t (some a))
  | manifest {es : List Exchange} {a : Option Authorization} {reply : Reply} :
      Headed t login es a reply → Status.isSuccess reply.code = true → reply.digest? = none →
      Follows es (manifestRequest t a)

/-- The digest of a tag was found out. -/
inductive Resolved : List Exchange → String → Prop
  /-- The last head tells it. -/
  | told {es : List Exchange} {a : Option Authorization} {reply : Reply} {digest : String} :
      Headed t login es a reply → Status.isSuccess reply.code = true →
      reply.digest? = some digest → Resolved es digest
  /-- The last head does not tell it, and it was taken of the manifest. -/
  | taken {es : List Exchange} {a : Option Authorization} {reply got : Reply} :
      Headed t login es a reply → Status.isSuccess reply.code = true → reply.digest? = none →
      Status.isSuccess got.code = true →
      Resolved (es ++ [⟨manifestRequest t a, some got⟩])
        ("sha256:" ++ String.ofList (Sha256.hex (Sha256.digest got.body)))

end

section
variable {t : TagReference} {login : Option Login} {es : List Exchange} {q : Request}

/-- At most three requests are made before another one. -/
theorem Follows.length_le (h : Follows t login es q) : es.length ≤ 3 := by
  have hanswered : ∀ {c es a}, Answered t login c es a → es.length ≤ 1 := by
    intro c es a h
    cases h with
    | basic => exact Nat.zero_le 1
    | bearer => exact Nat.le_refl 1
  cases h with
  | head => exact Nat.zero_le 3
  | token => exact Nat.le_add_left 1 2
  | headAgain _ _ ha =>
    have := hanswered ha
    rw [List.length_cons]
    omega
  | manifest h =>
    cases h with
    | once => exact Nat.le_add_left 1 2
    | again _ _ ha =>
      have := hanswered ha
      rw [List.length_cons, List.length_append, List.length_singleton]
      omega

/-- All that is asked about the manifest is asked in one place. -/
theorem Follows.url_eq (h : Follows t login es q) (hq : q.target ≠ .token) :
    q.url = manifestUrl t := by
  cases h with
  | head | headAgain | manifest => rfl
  | token => exact absurd rfl hq

end

section
variable (t : TagReference) (login : Option Login)

/-- Exchanges go on with the protocol after what was said: each request follows all that was said
before it. -/
def GoesOn : List Exchange → List Exchange → Prop
  | _, [] => True
  | said, x :: es => Follows t login said x.1 ∧ GoesOn (said ++ [x]) es

end

section
variable {t : TagReference} {login : Option Login} {said es es' : List Exchange} {x : Exchange}

theorem GoesOn.append (h : GoesOn t login said es) (h' : GoesOn t login (said ++ es) es') :
    GoesOn t login said (es ++ es') := by
  induction es generalizing said with
  | nil => rwa [List.append_nil] at h'
  | cons x es ih =>
    refine ⟨h.1, ih h.2 ?_⟩
    rwa [List.append_assoc, List.singleton_append]

/-- At most four requests are made. -/
theorem GoesOn.length_le (h : GoesOn t login said es) (hne : es ≠ []) :
    said.length + es.length ≤ 4 := by
  induction es generalizing said with
  | nil => exact absurd rfl hne
  | cons x es ih =>
    cases es with
    | nil => exact Nat.succ_le_succ h.1.length_le
    | cons y es =>
      have hle := ih h.2 (List.cons_ne_nil y es)
      rw [List.length_append, List.length_singleton] at hle
      rw [List.length_cons]
      omega

theorem GoesOn.url_eq (h : GoesOn t login said es) (hx : x ∈ es) (hq : x.1.target ≠ .token) :
    x.1.url = manifestUrl t := by
  induction es generalizing said with
  | nil => cases hx
  | cons y es ih =>
    rcases List.mem_cons.1 hx with rfl | hx
    · exact h.1.url_eq hq
    · exact ih h.2 hx

end

/-! ## What is said -/

section
variable {t : TagReference} {login : Option Login} {es : List Exchange} {a : Authorization}
  {c : Challenge} {first reply : Reply} {url : String}

theorem tokenOutcome_eq_ok_iff {realm : String} : tokenOutcome realm reply = .ok a ↔
    ∃ token, a = .bearer token ∧ Status.isSuccess reply.code = true ∧
      tokenOf? (.ofBytes reply.body) = some (some token) ∧ token ≠ "" := by
  unfold tokenOutcome
  by_cases hcode : Status.isSuccess reply.code = true
  · rw [if_pos hcode]
    rcases tokenOf? (.ofBytes reply.body) with _ | _ | s
    · simp
    · simp
    · by_cases hs : s = ""
      · simp [hs, Option.filter]
      · have hs' : Option.filter (· ≠ "") (some s) = some s := by simp [Option.filter, hs]
        dsimp only
        rw [hs']
        constructor
        · rintro ⟨⟩
          exact ⟨s, rfl, hcode, rfl, hs⟩
        · rintro ⟨token, rfl, -, ⟨⟩, -⟩
          rfl
  · simp [hcode]

/-- To answer a challenge nothing but a token is asked for, and it ends well only if the challenge
was answered. -/
theorem authorize_transcript {r : Except ResolveError Authorization}
    (h : (authorize first url t login).run.Transcript es r) :
    (es = [] ∨ ∃ c realm x, first.challenge? = some c ∧ c.scheme = "bearer" ∧
      c.params.get? "realm" = some realm ∧ es = [⟨tokenRequest t login c realm, x⟩]) ∧
    ∀ a, r = .ok a → ∃ c, first.challenge? = some c ∧ Answered t login c es a := by
  rw [authorize_run] at h
  cases hc : first.challenge? with
  | none =>
    rw [hc] at h
    obtain ⟨rfl, rfl⟩ := Dialogue.transcript_done_iff.1 h
    exact ⟨.inl rfl, nofun⟩
  | some c =>
    simp only [hc] at h
    split at h
    · next hbasic =>
      obtain ⟨rfl, rfl⟩ := Dialogue.transcript_done_iff.1 h
      refine ⟨.inl rfl, fun a ha => ⟨c, rfl, ?_⟩⟩
      cases login with
      | none => cases ha
      | some l =>
        cases ha
        exact .basic hbasic rfl
    split at h
    · next hbearer =>
      rw [askToken_run] at h
      cases hrealm : c.params.get? "realm" with
      | none =>
        rw [hrealm] at h
        obtain ⟨rfl, rfl⟩ := Dialogue.transcript_done_iff.1 h
        exact ⟨.inl rfl, nofun⟩
      | some realm =>
        rw [hrealm] at h
        obtain ⟨x, es', rfl, hend⟩ := Dialogue.transcript_ask_iff.1 h
        obtain ⟨rfl, rfl⟩ := Dialogue.transcript_done_iff.1 hend
        refine ⟨.inr ⟨c, realm, x, rfl, hbearer, hrealm, rfl⟩, fun a ha => ⟨c, rfl, ?_⟩⟩
        cases x with
        | none => cases ha
        | some reply =>
          obtain ⟨token, rfl, hcode, htoken, hne⟩ := tokenOutcome_eq_ok_iff.1 ha
          exact .bearer hbearer hrealm hcode htoken hne
    · obtain ⟨rfl, rfl⟩ := Dialogue.transcript_done_iff.1 h
      exact ⟨.inl rfl, nofun⟩

/-- A challenge that can be answered is. -/
theorem Answered.transcript (hc : first.challenge? = some c) (h : Answered t login c es a) :
    (authorize first url t login).run.Transcript es (.ok a) := by
  rw [authorize_run, hc]
  cases h with
  | basic hbasic hlogin =>
    simp only [hbasic, hlogin, if_true]
    exact .done _
  | @bearer realm token reply hbearer hrealm hcode htoken hne =>
    have hscheme : c.scheme ≠ "basic" := by
      rw [hbearer]
      decide
    have hok : tokenOutcome realm reply = .ok (.bearer token) :=
      tokenOutcome_eq_ok_iff.2 ⟨token, rfl, hcode, htoken, hne⟩
    simp only [if_neg hscheme, if_pos hbearer, askToken_run, hrealm]
    exact Dialogue.transcript_ask_iff.2 ⟨some reply, [], rfl, hok ▸ .done _⟩

/-- After a head that was refused for want of an authorization requests are made that go on with the
protocol, and it ends well only if the head was replied to once more. -/
theorem askAgain_transcript {r : Except ResolveError (Reply × Option Authorization)}
    (hcode : first.code = 401) (h : (askAgain t login first).Transcript es r) :
    GoesOn t login [⟨headRequest t (login.map .basic), some first⟩] es ∧
      ∀ reply a, r = .ok (reply, a) →
        Headed t login (⟨headRequest t (login.map .basic), some first⟩ :: es) a reply := by
  obtain ⟨es₁, r₁, es₂, rfl, hauth, hrest⟩ := Dialogue.transcript_bind_iff.1 h
  obtain ⟨htoken, hanswered⟩ := authorize_transcript hauth
  have hgoes : GoesOn t login [⟨headRequest t (login.map .basic), some first⟩] es₁ := by
    rcases htoken with rfl | ⟨c, realm, x, hc, hbearer, hrealm, rfl⟩
    · trivial
    · exact ⟨.token hcode hc hbearer hrealm, trivial⟩
  cases r₁ with
  | error e =>
    obtain ⟨rfl, rfl⟩ := Dialogue.transcript_done_iff.1 hrest
    rw [List.append_nil]
    exact ⟨hgoes, nofun⟩
  | ok a =>
    obtain ⟨c, hc, ha⟩ := hanswered a rfl
    dsimp only at hrest
    split at hrest
    · next hvalue =>
      obtain ⟨x, es₃, rfl, hend⟩ := Dialogue.transcript_ask_iff.1 hrest
      obtain ⟨rfl, rfl⟩ := Dialogue.transcript_done_iff.1 hend
      refine ⟨hgoes.append ⟨.headAgain hcode hc ha, trivial⟩, fun reply a' he => ?_⟩
      cases x with
      | none => cases he
      | some reply =>
        cases he
        exact .again hcode hc ha hvalue
    · obtain ⟨rfl, rfl⟩ := Dialogue.transcript_done_iff.1 hrest
      rw [List.append_nil]
      exact ⟨hgoes, nofun⟩

/-- To get the head, requests are made that go on with the protocol, and it ends well only if the
last one was replied to. -/
theorem askHead_transcript {r : Except ResolveError (Reply × Option Authorization)}
    (h : (askHead (manifestUrl t) t login).run.Transcript es r) :
    GoesOn t login [] es ∧ ∀ reply a, r = .ok (reply, a) → Headed t login es a reply := by
  rw [askHead_run] at h
  obtain ⟨x, es', rfl, hnext⟩ := Dialogue.transcript_ask_iff.1 h
  cases x with
  | none =>
    obtain ⟨rfl, rfl⟩ := Dialogue.transcript_done_iff.1 hnext
    exact ⟨⟨.head, trivial⟩, nofun⟩
  | some first =>
    dsimp only at hnext
    split at hnext
    · next hcode =>
      obtain ⟨hgoes, hheaded⟩ := askAgain_transcript hcode hnext
      exact ⟨⟨.head, hgoes⟩, hheaded⟩
    · next hcode =>
      obtain ⟨rfl, rfl⟩ := Dialogue.transcript_done_iff.1 hnext
      refine ⟨⟨.head, trivial⟩, fun reply a he => ?_⟩
      cases he
      exact .once hcode

/-- The authorization that went with the last head can be told in a header. -/
theorem Headed.writable {a : Option Authorization} (h : Headed t login es a reply) :
    a.all (fun a => isHeaderValue a.text) = true := by
  cases h with
  | once =>
    cases login with
    | none => rfl
    | some l => exact isHeaderValue_basic l
  | again _ _ _ hvalue => exact hvalue

theorem Headed.transcript {a : Option Authorization} (h : Headed t login es a reply) :
    (askHead (manifestUrl t) t login).run.Transcript es (.ok (reply, a)) := by
  rw [askHead_run]
  cases h with
  | once hcode =>
    refine Dialogue.transcript_ask_iff.2 ⟨some reply, [], rfl, ?_⟩
    dsimp only
    rw [if_neg hcode]
    exact .done _
  | @again first _ c es a hcode hc ha hvalue =>
    refine Dialogue.transcript_ask_iff.2 ⟨some first, _, rfl, ?_⟩
    dsimp only
    rw [if_pos hcode]
    refine Dialogue.transcript_bind_iff.2 ⟨es, .ok a, _, rfl, ha.transcript hc, ?_⟩
    dsimp only
    rw [if_pos hvalue]
    exact Dialogue.transcript_ask_iff.2 ⟨some reply, [], rfl, .done _⟩

/-- After the last head the manifest is asked for if the head does not tell the digest, and it ends
well only if the digest was found out. -/
theorem conclude_transcript {a : Option Authorization} {es' : List Exchange}
    {r : Except ResolveError String} (hh : Headed t login es a reply)
    (h : (conclude t a reply).Transcript es' r) :
    GoesOn t login es es' ∧ ∀ digest, r = .ok digest → Resolved t login (es ++ es') digest := by
  unfold conclude at h
  split at h
  · next hcode =>
    cases hdigest : reply.digest? with
    | some digest =>
      rw [hdigest] at h
      obtain ⟨rfl, rfl⟩ := Dialogue.transcript_done_iff.1 h
      rw [List.append_nil]
      refine ⟨trivial, fun digest' he => ?_⟩
      cases he
      exact .told hh hcode hdigest
    | none =>
      simp only [hdigest, send_run, manifestRequest, if_pos hh.writable] at h
      obtain ⟨x, es'', rfl, hend⟩ := Dialogue.transcript_ask_iff.1 h
      cases x with
      | none =>
        obtain ⟨rfl, rfl⟩ := Dialogue.transcript_done_iff.1 hend
        exact ⟨⟨.manifest hh hcode hdigest, trivial⟩, nofun⟩
      | some got =>
        obtain ⟨rfl, rfl⟩ := Dialogue.transcript_done_iff.1 hend
        refine ⟨⟨.manifest hh hcode hdigest, trivial⟩, fun digest he => ?_⟩
        split at he
        · next hgot =>
          cases he
          exact .taken hh hcode hdigest hgot
        · cases he
  · obtain ⟨rfl, rfl⟩ := Dialogue.transcript_done_iff.1 h
    exact ⟨trivial, nofun⟩

end

section
variable {t : TagReference} {logins : Logins} {es : List Exchange}

/-- Requests for the digest of a tag go on with the protocol, and it ends well only if the digest
was found out. -/
theorem resolve_transcript {r : Except ResolveError String}
    (h : (resolve t logins).run.Transcript es r) :
    GoesOn t (logins.get? t.registryHost) [] es ∧
      ∀ digest, r = .ok digest → Resolved t (logins.get? t.registryHost) es digest := by
  rw [resolve_run] at h
  obtain ⟨es₁, r₁, es₂, rfl, hhead, hrest⟩ := Dialogue.transcript_bind_iff.1 h
  obtain ⟨hgoes, hheaded⟩ := askHead_transcript hhead
  cases r₁ with
  | error e =>
    obtain ⟨rfl, rfl⟩ := Dialogue.transcript_done_iff.1 hrest
    rw [List.append_nil]
    exact ⟨hgoes, nofun⟩
  | ok head =>
    obtain ⟨reply, a⟩ := head
    obtain ⟨hrestGoes, hresolved⟩ := conclude_transcript (hheaded reply a rfl) hrest
    exact ⟨hgoes.append hrestGoes, hresolved⟩

theorem Resolved.transcript {digest : String}
    (h : Resolved t (logins.get? t.registryHost) es digest) :
    (resolve t logins).run.Transcript es (.ok digest) := by
  rw [resolve_run, Dialogue.transcript_bind_iff]
  cases h with
  | told hh hcode hdigest =>
    refine ⟨es, _, [], (List.append_nil es).symm, hh.transcript, ?_⟩
    simp only [conclude, if_pos hcode, hdigest]
    exact .done _
  | @taken es a reply got hh hcode hdigest hgot =>
    refine ⟨es, _, _, rfl, hh.transcript, ?_⟩
    simp only [conclude, if_pos hcode, hdigest, send_run, manifestRequest, if_pos hh.writable]
    refine Dialogue.transcript_ask_iff.2 ⟨some got, [], rfl, ?_⟩
    simp only [Option.elim, Dialogue.bind_done, if_pos hgot]
    exact .done _

/-- **A registry is asked as the protocol has it.** Whatever is replied, or not, to the requests for
the digest of a tag, each of them is the one that the protocol has after what was said before, so
there are four at most, and all that is asked about the manifest is asked in one place. A digest is
found out if and only if the last head was given and tells it, or else the manifest was given and it
is the digest of that. -/
theorem asked_by_protocol (t : TagReference) (logins : Logins) :
    let login := logins.get? t.registryHost
    (∀ es r, (resolve t logins).run.Transcript es r →
      GoesOn t login [] es ∧ es.length ≤ 4 ∧
        ∀ x ∈ es, x.1.target ≠ .token → x.1.url = manifestUrl t) ∧
    ∀ es digest, (resolve t logins).run.Transcript es (.ok digest) ↔
      Resolved t login es digest := by
  intro login
  refine ⟨fun es r h => ?_, fun es digest => ⟨fun h => ?_, fun h => h.transcript⟩⟩
  · obtain ⟨hgoes, -⟩ := resolve_transcript h
    refine ⟨hgoes, ?_, fun x hx => hgoes.url_eq hx⟩
    cases es with
    | nil => exact Nat.zero_le 4
    | cons x es =>
      have hle := hgoes.length_le (List.cons_ne_nil x es)
      rwa [List.length_nil, Nat.zero_add] at hle
  · exact (resolve_transcript h).2 digest rfl

/-- A registry that wants a token and does not tell the digest is asked four times. -/
theorem asked_by_protocol_token :
    let t : TagReference := ⟨some "gcr.io", "app", "v1"⟩
    let login : Login := ⟨"robot", "hunter2"⟩
    let header := "Bearer realm=\"https://gcr.io/token\""
    let first : Reply := ⟨401, [("WWW-Authenticate", .ofString header)], []⟩
    let token : Reply := ⟨200, [], .ofString "\x7b\"token\":\"t0k3n\"\x7d"⟩
    let got : Reply := ⟨200, [], .ofString "\x7b\x7d"⟩
    let es : List Exchange := [
      ⟨headRequest t (some (.basic login)), some first⟩,
      ⟨tokenRequest t (some login) (.parse header) "https://gcr.io/token", some token⟩,
      ⟨headRequest t (some (.bearer "t0k3n")), some ⟨200, [], []⟩⟩,
      ⟨manifestRequest t (some (.bearer "t0k3n")), some got⟩]
    (resolve t (Logins.anonymous.insert "gcr.io" login)).run.Transcript es (.ok <|
        "sha256:44136fa355b3678a1146ad16f7e8649e94fb4fc21fe77e8310c060f61caaff8a") ∧
      GoesOn t (some login) [] es ∧
      ∀ x ∈ es, x.1.target ≠ .token → x.1.url = "https://gcr.io/v2/app/manifests/v1" := by
  intro t login header first token got es
  obtain ⟨hasked, hok⟩ := asked_by_protocol t (Logins.anonymous.insert "gcr.io" login)
  have hlogin : (Logins.anonymous.insert "gcr.io" login).get? t.registryHost = some login := by
    decide +kernel
  rw [hlogin] at hasked hok
  have hheader : first.header? "www-authenticate" = some header := by decide +kernel
  have hanswered : Answered t (some login) (.parse header) [es[1]] (.bearer "t0k3n") :=
    .bearer (by decide +kernel) (by decide +kernel) rfl
      (show tokenOf? (.ofBytes token.body) = some (some "t0k3n") by decide +kernel) (by decide)
  have hheaded : Headed t (some login) (es.take 3) (some (.bearer "t0k3n")) ⟨200, [], []⟩ :=
    .again rfl (congrArg (Option.map Challenge.parse) hheader) hanswered (by decide)
  have hdigest : "sha256:" ++ String.ofList (Sha256.hex (Sha256.digest got.body)) =
      "sha256:44136fa355b3678a1146ad16f7e8649e94fb4fc21fe77e8310c060f61caaff8a" := by
    decide +kernel
  have hgot : Status.isSuccess got.code = true := rfl
  have hresolved := hdigest ▸ Resolved.taken hheaded rfl rfl hgot
  have h := (hok es _).2 hresolved
  obtain ⟨hgoes, -, hurl⟩ := hasked es _ h
  have hplace : manifestUrl t = "https://gcr.io/v2/app/manifests/v1" := by decide +kernel
  exact ⟨h, hgoes, hplace ▸ hurl⟩

end

end Prewarm.Registry
