import Mathlib.Data.List.Induction
import Prewarm.Expectations

/-!
# Expectations answer from history

Expectations are told of children that were created and of those that were seen, and are asked
whether a child is expected, in any order and at any time (`Session`). The log of a session says
when each call was made, and what was answered. What is expected for a key is then known from the
log alone: it is the latest child that was taken down for the key, if nothing has ended the
expectation since (`Latest`). Three things end one: another child of the key is taken down, a child
of the key is seen, and a question about the key is answered with no (`Entry.Ends`). So a question
drops what it finds to be over, and `Sound` says that every call leaves the table in step with the
log. Calls for other keys do not matter (`Agree`).
-/

namespace Prewarm.Expectations

/-- Something that is asked of expectations, or time that passes. -/
inductive Call where
  | expect (k : Key) (version : String)
  | isPending (k : Key) (version : String)
  | observed (k : Key)
  | pass (d : Duration)
  deriving DecidableEq

/-- Whether a call matters to a key: it is made for the key, or time passes. -/
def Call.concerns (k : Key) : Call → Bool
  | expect k' _ | isPending k' _ | observed k' => k' = k
  | pass _ => true

/-- A call that was made, with its answer if it has one. -/
inductive Entry where
  | expected (k : Key) (version : String)
  | answered (k : Key) (version : String) (pending : Bool)
  | observed (k : Key)
  deriving DecidableEq

/-- Whether a call ends what was expected for a key before. -/
def Entry.Ends (k : Key) : Entry → Prop
  | expected k' _ | observed k' => k' = k
  | answered k' _ pending => k' = k ∧ pending = false

/-- The calls that were made, the first first, each with its instant. -/
abbrev Log := List (Instant × Entry)

/-- The reading of the clock, what is expected, and the calls that were made. -/
structure Session where
  now : Instant
  expectations : Expectations
  log : Log := []

namespace Session

/-- A session that begins, in which each child is expected for a time. -/
def opening (start : Instant) (lifetime : Duration) : Session := ⟨start, { lifetime }, []⟩

/-- Whether a child is expected for a version of a key, as one who asks now is told. -/
def isPending (s : Session) (k : Key) (version : String) : Bool :=
  (s.expectations.isPending k version s.now).1

/-- The session after a call. A child whose time ends later than the clock can show is not taken
down: the call breaks off. -/
def call (s : Session) : Call → Session
  | .expect k version =>
    if (s.now.add? s.expectations.lifetime).isSome then
      { s with
        expectations := s.expectations.expect k version s.now
        log := s.log ++ [(s.now, .expected k version)] }
    else s
  | .isPending k version =>
    { s with
      expectations := (s.expectations.isPending k version s.now).2
      log := s.log ++ [(s.now, .answered k version (s.isPending k version))] }
  | .observed k =>
    { s with
      expectations := s.expectations.observed k
      log := s.log ++ [(s.now, .observed k)] }
  | .pass d => { s with now := ⟨s.now.nanos + d.nanos⟩ }

/-- The session after calls, the first one first. -/
def after (s : Session) (cs : List Call) : Session := cs.foldl call s

end Session

/-- Whether the latest child that was taken down for a key is one of a version and was taken down at
an instant, and nothing has ended the expectation of it since. -/
def Latest (l : Log) (k : Key) (version : String) (t : Instant) : Prop :=
  ∃ τ σ, l = τ ++ (t, .expected k version) :: σ ∧ ∀ e ∈ σ, ¬ e.2.Ends k

section
variable {k : Key} {version : String} {lifetime : Duration} {t now start : Instant} {l : Log}
  {e : Entry} {s s' : Session} {x : Expectations} {c : Call} {cs : List Call}

/-! ## Logs -/

/-- Before any call no child was taken down. -/
theorem not_latest_nil : ¬ Latest [] k version t := by
  rintro ⟨τ, σ, h, -⟩
  exact absurd h.symm (List.append_ne_nil_of_right_ne_nil τ (List.cons_ne_nil _ σ))

/-- A call that does not end what is expected for a key leaves the latest child of the key so. -/
theorem latest_concat_of_not_ends (he : ¬ e.Ends k) :
    Latest (l ++ [(now, e)]) k version t ↔ Latest l k version t := by
  constructor
  · rintro ⟨τ, σ, h, hσ⟩
    rcases List.eq_nil_or_concat σ with rfl | ⟨σ, e', rfl⟩
    · obtain ⟨-, hlast⟩ := List.append_inj' h rfl
      cases hlast
      exact absurd rfl he
    · rw [List.concat_eq_append] at h hσ
      rw [← List.cons_append, ← List.append_assoc] at h
      obtain ⟨rfl, -⟩ := List.append_inj' h rfl
      exact ⟨τ, σ, rfl, fun e he => hσ e (List.mem_append_left _ he)⟩
  · rintro ⟨τ, σ, rfl, hσ⟩
    refine ⟨τ, σ ++ [(now, e)], by rw [List.append_assoc, List.cons_append], fun e' he' => ?_⟩
    rcases List.mem_append.1 he' with he' | he'
    · exact hσ e' he'
    · cases List.mem_singleton.1 he'
      exact he

/-- After a call that ends what was expected for a key, the latest child of the key is the one that
this call takes down. -/
theorem latest_concat_of_ends (he : e.Ends k) :
    Latest (l ++ [(now, e)]) k version t ↔ e = .expected k version ∧ now = t := by
  constructor
  · rintro ⟨τ, σ, h, hσ⟩
    rcases List.eq_nil_or_concat σ with rfl | ⟨σ, e', rfl⟩
    · obtain ⟨-, hlast⟩ := List.append_inj' h rfl
      cases hlast
      exact ⟨rfl, rfl⟩
    · rw [List.concat_eq_append] at h hσ
      rw [← List.cons_append, ← List.append_assoc] at h
      obtain ⟨-, hlast⟩ := List.append_inj' h rfl
      cases hlast
      exact absurd he (hσ _ (List.mem_append_right _ (List.mem_singleton_self _)))
  · rintro ⟨rfl, rfl⟩
    exact ⟨l, [], rfl, nofun⟩

/-! ## What every call keeps -/

/-- What is expected for a key is in step with the log. -/
structure Session.Sound (k : Key) (lifetime : Duration) (s : Session) : Prop where
  lifetime_eq : s.expectations.lifetime = lifetime
  past : ∀ t e, (t, e) ∈ s.log → t.nanos ≤ s.now.nanos
  pending : ∀ p, s.expectations.pending.get? k = some p ↔
    ∃ t, Latest s.log k p.version t ∧ p.deadline = ⟨t.nanos + lifetime.nanos⟩

/-- A session that begins is in step with its log, which has no calls. -/
theorem Session.sound_opening (k : Key) (start : Instant) (lifetime : Duration) :
    (opening start lifetime).Sound k lifetime := by
  refine ⟨rfl, nofun, fun p => ⟨nofun, ?_⟩⟩
  rintro ⟨t, hlatest, -⟩
  exact absurd hlatest not_latest_nil

/-- A call is taken down in the log. If it ends what was expected for the key, the table has what
the call itself gives, and otherwise what it had. -/
theorem Session.Sound.note (h : s.Sound k lifetime) (hlifetime : x.lifetime = lifetime)
    (hkept : ¬ e.Ends k → x.pending.get? k = s.expectations.pending.get? k)
    (hends : e.Ends k → ∀ p, x.pending.get? k = some p ↔
      e = .expected k p.version ∧ p.deadline = ⟨s.now.nanos + lifetime.nanos⟩) :
    Sound k lifetime { s with expectations := x, log := s.log ++ [(s.now, e)] } := by
  refine ⟨hlifetime, fun t e' hmem => ?_, fun p => ?_⟩
  · rcases List.mem_append.1 hmem with hmem | hmem
    · exact h.past t e' hmem
    · cases List.mem_singleton.1 hmem
      exact Nat.le_refl _
  · by_cases he : e.Ends k
    · simp only [hends he p, latest_concat_of_ends he]
      constructor
      · rintro ⟨hmade, hdeadline⟩
        exact ⟨s.now, ⟨hmade, rfl⟩, hdeadline⟩
      · rintro ⟨t, ⟨hmade, rfl⟩, hdeadline⟩
        exact ⟨hmade, hdeadline⟩
    · simp only [hkept he, latest_concat_of_not_ends he]
      exact h.pending p

/-- Every call keeps what is expected for a key in step with the log. -/
theorem Session.Sound.call (h : s.Sound k lifetime) (c : Call) : (s.call c).Sound k lifetime := by
  cases c with
  | expect k' version =>
    unfold Session.call
    dsimp only
    split
    · refine h.note h.lifetime_eq (fun hk => Table.get?_insert_of_ne (Ne.symm hk) ..) ?_
      rintro rfl p
      rw [show (s.expectations.expect k' version s.now).pending.get? k' =
        some ⟨version, ⟨s.now.nanos + s.expectations.lifetime.nanos⟩⟩ from
          Table.get?_insert_self .., h.lifetime_eq]
      obtain ⟨v, d⟩ := p
      simp [eq_comm]
    · exact h
  | isPending k' version =>
    refine h.note ((lifetime_isPending ..).trans h.lifetime_eq) (fun hk => ?_) ?_
    · by_cases hkk : k = k'
      · subst hkk
        rw [get?_isPending_self, if_pos]
        exact eq_true_of_ne_false fun hfalse => hk ⟨rfl, hfalse⟩
      · exact get?_isPending _ version s.now hkk
    · rintro ⟨rfl, hfalse⟩ p
      have hfalse : (s.expectations.isPending k' version s.now).1 = false := hfalse
      rw [get?_isPending_self, hfalse]
      simp
  | observed k' =>
    refine h.note h.lifetime_eq (fun hk => Table.get?_erase_of_ne (Ne.symm hk) ..) ?_
    rintro rfl p
    rw [show (s.expectations.observed k').pending.get? k' = none from
      Table.get?_erase_self ..]
    simp
  | pass d =>
    exact ⟨h.lifetime_eq, fun t e he => Nat.le_trans (h.past t e he) (Nat.le_add_right ..),
      h.pending⟩

/-- One more call comes after the others. -/
theorem Session.after_concat (s : Session) (cs : List Call) (c : Call) :
    s.after (cs ++ [c]) = (s.after cs).call c :=
  List.foldl_append

/-- After any calls, what is expected for a key is in step with the log. -/
theorem Session.sound_after (k : Key) (start : Instant) (lifetime : Duration) (cs : List Call) :
    ((opening start lifetime).after cs).Sound k lifetime := by
  induction cs using List.reverseRecOn with
  | nil => exact sound_opening k start lifetime
  | append_singleton cs c ih =>
    rw [after_concat]
    exact ih.call c

/-! ## Other keys -/

/-- Two sessions between which no one can tell who asks about one key. -/
structure Session.Agree (k : Key) (s s' : Session) : Prop where
  now_eq : s.now = s'.now
  lifetime_eq : s.expectations.lifetime = s'.expectations.lifetime
  pending_eq : s.expectations.pending.get? k = s'.expectations.pending.get? k

/-- Two sessions that agree about a key answer alike whether a child is expected for it. -/
theorem Session.Agree.isPending_eq (h : Agree k s s') (version : String) :
    s.isPending k version = s'.isPending k version := by
  unfold Session.isPending
  rw [h.now_eq, isPending_congr version s'.now h.pending_eq]

/-- A call for another key makes no difference. -/
theorem Session.Agree.call_left (h : Agree k s s') (hc : c.concerns k = false) :
    Agree k (s.call c) s' := by
  cases c with
  | expect k' version =>
    have hk : k ≠ k' := fun hkk => by simp [Call.concerns, hkk] at hc
    unfold Session.call
    dsimp only
    split
    · exact ⟨h.now_eq, h.lifetime_eq,
        (Table.get?_insert_of_ne hk ..).trans h.pending_eq⟩
    · exact h
  | isPending k' version =>
    have hk : k ≠ k' := fun hkk => by simp [Call.concerns, hkk] at hc
    exact ⟨h.now_eq, (lifetime_isPending ..).trans h.lifetime_eq,
      (get?_isPending _ version s.now hk).trans h.pending_eq⟩
  | observed k' =>
    have hk : k ≠ k' := fun hkk => by simp [Call.concerns, hkk] at hc
    exact ⟨h.now_eq, h.lifetime_eq, (Table.get?_erase_of_ne hk ..).trans h.pending_eq⟩
  | pass d => cases hc

/-- A call for the key leaves two sessions alike that were alike before. -/
theorem Session.Agree.call (h : Agree k s s') (hc : c.concerns k = true) :
    Agree k (s.call c) (s'.call c) := by
  cases c with
  | expect k' version =>
    obtain rfl : k' = k := of_decide_eq_true hc
    unfold Session.call
    dsimp only
    rw [h.now_eq, h.lifetime_eq]
    split
    · refine ⟨rfl, h.lifetime_eq, ?_⟩
      simp only [expect, Table.get?_insert_self, h.lifetime_eq]
    · exact h
  | isPending k' version =>
    obtain rfl : k' = k := of_decide_eq_true hc
    have hanswer := h.isPending_eq version
    unfold Session.isPending at hanswer
    refine ⟨h.now_eq, ?_, ?_⟩
    · simp only [Session.call, lifetime_isPending, h.lifetime_eq]
    · simp only [Session.call, get?_isPending_self, hanswer, h.pending_eq]
  | observed k' =>
    obtain rfl : k' = k := of_decide_eq_true hc
    refine ⟨h.now_eq, h.lifetime_eq, ?_⟩
    simp only [Session.call, observed, Table.get?_erase_self]
  | pass d => exact ⟨by simp only [Session.call, h.now_eq], h.lifetime_eq, h.pending_eq⟩

/-- What is expected for a key depends only on the calls that concern it. -/
theorem Session.agree_filter (k : Key) (s : Session) (cs : List Call) :
    Agree k (s.after cs) (s.after (cs.filter (·.concerns k))) := by
  induction cs using List.reverseRecOn with
  | nil => exact ⟨rfl, rfl, rfl⟩
  | append_singleton cs c ih =>
    rw [List.filter_append, after_concat]
    by_cases hc : c.concerns k
    · rw [show [c].filter (·.concerns k) = [c] by simp [hc], after_concat]
      exact ih.call hc
    · rw [show [c].filter (·.concerns k) = [] by simp [hc], List.append_nil]
      exact ih.call_left (Bool.eq_false_iff.2 hc)

/-! ## What is answered -/

/-- After any calls, a child is expected for a version of a key if and only if the latest child that
was taken down for the key is one of this version, its time is not over, and since then no child of
the key was seen and no question about the key was answered with no. Calls for other keys do not
matter. -/
theorem pending_by_history (start : Instant) (lifetime : Duration) (cs : List Call) (k : Key)
    (version : String) :
    let s := (Session.opening start lifetime).after cs
    (s.isPending k version = true ↔
      ∃ t, Latest s.log k version t ∧ (s.now.since t).nanos < lifetime.nanos) ∧
    s.isPending k version =
      ((Session.opening start lifetime).after (cs.filter (·.concerns k))).isPending k version := by
  intro s
  have hs : s.Sound k lifetime := Session.sound_after k start lifetime cs
  refine ⟨?_, (Session.agree_filter k _ cs).isPending_eq version⟩
  have hpast : ∀ t, Latest s.log k version t → t.nanos ≤ s.now.nanos := by
    rintro t ⟨τ, σ, hlog, -⟩
    exact hs.past t (.expected k version) (hlog ▸ List.mem_append_right τ (.head σ))
  unfold Session.isPending
  rw [isPending_eq_true_iff]
  constructor
  · rintro ⟨p, hp, rfl, hnow⟩
    obtain ⟨t, hlatest, hdeadline⟩ := (hs.pending p).1 hp
    have hle := hpast t hlatest
    rw [hdeadline] at hnow
    refine ⟨t, hlatest, ?_⟩
    simp only [Instant.since] at hnow ⊢
    omega
  · rintro ⟨t, hlatest, hsince⟩
    refine ⟨⟨version, ⟨t.nanos + lifetime.nanos⟩⟩, (hs.pending _).2 ⟨t, hlatest, rfl⟩, rfl, ?_⟩
    simp only [Instant.since] at hsince ⊢
    omega

/-- A question about another version drops what is expected. -/
example : ((Session.opening .start standardLifetime).after
    [.expect "ns/a" "1", .isPending "ns/a" "2"]).isPending "ns/a" "1" = false := by decide

end

end Prewarm.Expectations
