import Prewarm.Proofs.Reconcile.Healing

/-!
# Work on different keys does not interfere

Work on several keys shares the expectations and nothing else. Here the works go on question by
question, in the order of a schedule that says whose turn it is (`Weave.play`). What the stores hold
is fixed, the clock stands still, and all others answer a question in one way (`Collaborators`).
Then work on a key asks what it asks when it is alone, in the same order, and comes to the same,
whatever the schedule (`keys_do_not_interfere`).

Two facts carry this. What is asked in work on a key leaves the expectations for other keys alone
(`Answers.get?_pending`), and what work on a key is answered depends on the expectation for this key
only (`Collaborators.answer_agree`). So at any point the rest of a work would come to the same if
the others did not go on (`OnCourse`).
-/

namespace Prewarm.Reconcile

/-- Those whom work asks beside the expectations. What they answer depends on the question alone. -/
structure Collaborators where
  secret : String → String → Except ClusterError (Option Secret)
  digest : TagReference → Logins → Except ResolveError String
  create : String → DaemonSet → Except ClusterError Unit
  deleteCollection : String → Selector → Propagation → Except ClusterError Unit
  publish : ObjectReference → Event → Except ClusterError Unit

/-- What work on a key comes to: its result, all that it has asked, in order, and what is expected
then. -/
structure Ending where
  result : Except Failure Unit
  asked : List Query
  expectations : Expectations

/-- Work on a key on its way: what it has asked, in order, and what is left of it. -/
structure Strand where
  asked : List Query := []
  rest : Rest

/-- Work on several keys, which shares the expectations. -/
structure Weave where
  strands : Table Key Strand
  expectations : Expectations

/-- Work on a number of keys when it begins. -/
def Weave.begin (c : Context) (ks : List Key) (x : Expectations) : Weave where
  strands := ks.foldl (fun t k => t.insert k { rest := dialogue c k }) .empty
  expectations := x

namespace Collaborators

variable (h : Collaborators) (now : Instant)

/-- The answer to a question, and the expectations after it. -/
def answer : (q : Query) → StateM Expectations q.Answer
  | .isPending k v => fun x => x.isPending k v now
  | .expect k v => fun x => ((), x.expect k v now)
  | .observed k => fun x => ((), x.observed k)
  | .secret ns name => fun x => (h.secret ns name, x)
  | .digest t logins => fun x => (h.digest t logins, x)
  | .create ns child => fun x => (h.create ns child, x)
  | .deleteCollection ns sel p => fun x => (h.deleteCollection ns sel p, x)
  | .publish about e => fun x => (h.publish about e, x)

/-- The answer to a question, which is taken down. -/
def answerNoted (q : Query) : StateM (List Query × Expectations) q.Answer := fun (qs, x) =>
  let (a, x) := h.answer now q x
  (a, qs ++ [q], x)

/-- What work comes to that goes on alone, after what it has asked already. -/
def alone (s : Strand) (x : Expectations) : Ending :=
  let (r, qs, x) := (s.rest.run (h.answerNoted now)).run (s.asked, x)
  ⟨r, qs, x⟩

end Collaborators

/-- The turn of a key: the work on it asks its next question, if it has not come to its end. -/
def Weave.turn (h : Collaborators) (now : Instant) (w : Weave) (k : Key) : Weave :=
  match w.strands.get? k with
  | some ⟨qs, .ask q next⟩ =>
    let (a, x) := h.answer now q w.expectations
    ⟨w.strands.insert k ⟨qs ++ [q], next a⟩, x⟩
  | _ => w

/-- Work on several keys that have their turns in the order of a schedule. -/
def Weave.play (h : Collaborators) (now : Instant) (w : Weave) (schedule : List Key) : Weave :=
  schedule.foldl (Weave.turn h now) w

section
variable {h : Collaborators} {now : Instant} {c : Context} {k j : Key} {ks : List Key} {q : Query}
  {qs : List Query} {s : Strand} {w : Weave} {x x' x₀ : Expectations} {n : Nat}

/-! ## Answers -/

/-- Two states of the expectations between which work on a key cannot tell. -/
structure Agree (k : Key) (x x' : Expectations) : Prop where
  pending : x.pending.get? k = x'.pending.get? k
  lifetime : x.lifetime = x'.lifetime

/-- Collaborators answer as all do who can be asked. -/
theorem answers_answer (h : Collaborators) (now : Instant) (q : Query) (x : Expectations) :
    Answers now x q (h.answer now q x).1 (h.answer now q x).2 := by
  cases q with
  | isPending k v | expect k v | observed k => rfl
  | secret | digest | create | deleteCollection | publish => rfl

/-- A question of work on one key changes nothing for another. -/
theorem Collaborators.agree_answer {next : q.Answer → Rest} (hc : Course j (.ask q next))
    (hk : k ≠ j) : Agree k (h.answer now q x).2 x :=
  ⟨(answers_answer h now q x).get?_pending hc hk, (answers_answer h now q x).lifetime⟩

/-- The expectations answer work on a key by the one for this key. -/
theorem Agree.isPending {v : String} (hx : Agree k x x') :
    (x.isPending k v now).1 = (x'.isPending k v now).1 ∧
      Agree k (x.isPending k v now).2 (x'.isPending k v now).2 := by
  have hanswer := Expectations.isPending_congr v now hx.pending
  refine ⟨hanswer, ?_, ?_⟩
  · rw [Expectations.get?_isPending_self, Expectations.get?_isPending_self, hanswer, hx.pending]
  · rw [Expectations.lifetime_isPending, Expectations.lifetime_isPending, hx.lifetime]

theorem Collaborators.answer_agree (h : Collaborators) (now : Instant) {next : q.Answer → Rest}
    (hc : Course k (.ask q next)) (hx : Agree k x x') :
    (h.answer now q x).1 = (h.answer now q x').1 ∧
      Agree k (h.answer now q x).2 (h.answer now q x').2 := by
  rcases hc.asks with ⟨v, rfl⟩ | ⟨v, rfl⟩ | rfl | hq
  · exact hx.isPending
  · refine ⟨rfl, ?_, hx.lifetime⟩
    simp [Collaborators.answer, Expectations.expect, hx.lifetime]
  · refine ⟨rfl, ?_, hx.lifetime⟩
    simp [Collaborators.answer, Expectations.observed]
  · cases q with
    | isPending | expect | observed => cases hq
    | secret | digest | create | deleteCollection | publish => exact ⟨rfl, hx⟩

/-! ## Work that goes on alone -/

/-- Two endings between which no one can tell who looks at one key. -/
structure Ending.Agree (k : Key) (e e' : Ending) : Prop where
  result : e.result = e'.result
  asked : e.asked = e'.asked
  pending : e.expectations.pending.get? k = e'.expectations.pending.get? k

theorem Collaborators.alone_ask {next : q.Answer → Rest} :
    h.alone now ⟨qs, .ask q next⟩ x =
      h.alone now ⟨qs ++ [q], next (h.answer now q x).1⟩ (h.answer now q x).2 := rfl

/-- What the expectations hold for other keys does not matter. -/
theorem Collaborators.alone_agree (hc : Course k s.rest) (hx : Reconcile.Agree k x x') :
    Ending.Agree k (h.alone now s x) (h.alone now s x') := by
  obtain ⟨qs, d⟩ := s
  induction d generalizing qs x x' with
  | done r => exact ⟨rfl, rfl, hx.pending⟩
  | ask q next ih =>
    obtain ⟨hanswer, hx⟩ := h.answer_agree now hc hx
    rw [alone_ask, alone_ask, ← hanswer]
    exact ih _ hx (qs ++ [q]) (hc.next _)

/-- What was asked already stays asked. -/
theorem Collaborators.asked_prefix (h : Collaborators) (now : Instant) (s : Strand)
    (x : Expectations) : s.asked <+: (h.alone now s x).asked := by
  obtain ⟨qs, d⟩ := s
  induction d generalizing qs x with
  | done r => exact List.prefix_rfl
  | ask q next ih => exact (List.prefix_append qs [q]).trans (ih _ _ (qs ++ [q]))

/-! ## Schedules -/

/-- Where a work stands that has had its turn `n` times: it is on its course, alone from here it
would come to what it comes to alone from its beginning, and it has asked a question in each turn
unless it has come to its end. -/
structure OnCourse (h : Collaborators) (now : Instant) (k : Key) (e : Ending) (n : Nat) (s : Strand)
    (x : Expectations) : Prop where
  course : Course k s.rest
  ending : Ending.Agree k (h.alone now s x) e
  turns : s.asked.length = n ∨ s.asked.length ≤ n ∧ ∃ r, s.rest = .done r

/-- Work that has not come to its end asks in its turn. -/
theorem Weave.turn_of_ask {next : q.Answer → Rest}
    (hk : w.strands.get? k = some ⟨qs, .ask q next⟩) :
    w.turn h now k =
      ⟨w.strands.insert k ⟨qs ++ [q], next (h.answer now q w.expectations).1⟩,
        (h.answer now q w.expectations).2⟩ := by
  unfold Weave.turn
  rw [hk]
  rfl

theorem Weave.turn_of_done {r : Except Failure Unit} (hk : w.strands.get? k = some ⟨qs, .done r⟩) :
    w.turn h now k = w := by
  unfold Weave.turn
  rw [hk]

/-- The work on a key goes on in its turn. -/
theorem OnCourse.ask {e : Ending} {next : q.Answer → Rest}
    (hs : OnCourse h now k e n ⟨qs, .ask q next⟩ x) :
    OnCourse h now k e (n + 1) ⟨qs ++ [q], next (h.answer now q x).1⟩ (h.answer now q x).2 := by
  refine ⟨hs.course.next _, hs.ending, .inl ?_⟩
  rcases hs.turns with hturns | ⟨-, r, hr⟩
  · simpa using hturns
  · cases hr

/-- Work that has come to its end has its turn for nothing. -/
theorem OnCourse.done {e : Ending} {r : Except Failure Unit}
    (hs : OnCourse h now k e n ⟨qs, .done r⟩ x) : OnCourse h now k e (n + 1) ⟨qs, .done r⟩ x := by
  have hle : qs.length ≤ n := hs.turns.elim Nat.le_of_eq And.left
  exact ⟨hs.course, hs.ending, .inr ⟨Nat.le_succ_of_le hle, r, rfl⟩⟩

/-- The turn of another key does not matter. -/
theorem OnCourse.other {e : Ending} {next : q.Answer → Rest} (hs : OnCourse h now k e n s x)
    (hc : Course j (.ask q next)) (hk : k ≠ j) :
    OnCourse h now k e n s (h.answer now q x).2 := by
  have hx : Agree k (h.answer now q x).2 x := Collaborators.agree_answer hc hk
  have hend : Ending.Agree k (h.alone now s (h.answer now q x).2) (h.alone now s x) :=
    Collaborators.alone_agree hs.course hx
  exact ⟨hs.course, ⟨hend.result.trans hs.ending.result, hend.asked.trans hs.ending.asked,
    hend.pending.trans hs.ending.pending⟩, hs.turns⟩

/-- After a schedule, there is a work for each key, and each work is on its course. -/
structure Weave.Sound (h : Collaborators) (now : Instant) (c : Context) (ks : List Key)
    (x₀ : Expectations) (schedule : List Key) (w : Weave) : Prop where
  isSome : ∀ k ∈ ks, ∃ s, w.strands.get? k = some s
  onCourse : ∀ k s, w.strands.get? k = some s →
    OnCourse h now k (h.alone now ⟨[], dialogue c k⟩ x₀) (schedule.count k) s w.expectations

theorem Weave.get?_begin (c : Context) (ks : List Key) (x : Expectations) (k : Key) :
    (begin c ks x).strands.get? k = if k ∈ ks then some { rest := dialogue c k } else none :=
  Table.get?_foldl_insert (fun k => ({ rest := dialogue c k } : Strand)) ks .empty k

theorem Weave.sound_begin (h : Collaborators) (now : Instant) (c : Context) (ks : List Key)
    (x : Expectations) : Sound h now c ks x [] (begin c ks x) := by
  constructor
  · intro k hk
    exact ⟨_, (get?_begin c ks x k).trans (if_pos hk)⟩
  · intro k s hs
    rw [get?_begin] at hs
    split at hs
    · cases hs
      exact ⟨(opening_dialogue c k).course, ⟨rfl, rfl, rfl⟩, .inl rfl⟩
    · cases hs

theorem Weave.Sound.turn {σ : List Key} (hw : Sound h now c ks x₀ σ w) (j : Key) :
    Sound h now c ks x₀ (σ ++ [j]) (w.turn h now j) := by
  have hother : ∀ k, k ≠ j → (σ ++ [j]).count k = σ.count k := fun k hk => by
    simp [List.count_append, Ne.symm hk]
  have hself : (σ ++ [j]).count j = σ.count j + 1 := by simp
  -- without a question to ask, only the turns are counted
  have hidle : (∀ s, w.strands.get? j = some s → ∃ r, s.rest = .done r) →
      Sound h now c ks x₀ (σ ++ [j]) w := by
    intro hj
    refine ⟨hw.isSome, fun k s hs => ?_⟩
    by_cases hk : k = j
    · subst hk
      obtain ⟨r, hr⟩ := hj s hs
      obtain ⟨qs, d⟩ := s
      cases hr
      rw [hself]
      exact (hw.onCourse k _ hs).done
    · rw [hother k hk]
      exact hw.onCourse k s hs
  match hj : w.strands.get? j with
  | none =>
    have hturn : w.turn h now j = w := by
      unfold Weave.turn
      rw [hj]
    rw [hturn]
    exact hidle fun s hs => by rw [hj] at hs; cases hs
  | some ⟨qs, .done r⟩ =>
    rw [Weave.turn_of_done hj]
    exact hidle fun s hs => by rw [hj] at hs; cases hs; exact ⟨r, rfl⟩
  | some ⟨qs, .ask q next⟩ =>
    have hown := hw.onCourse j _ hj
    rw [Weave.turn_of_ask hj]
    constructor
    · intro k hk
      dsimp only
      rw [Table.get?_insert]
      split
      · exact ⟨_, rfl⟩
      · exact hw.isSome k hk
    · intro k s hs
      dsimp only at hs
      rw [Table.get?_insert] at hs
      split at hs
      · next hk =>
        cases hs
        subst hk
        rw [hself]
        exact hown.ask
      · next hk =>
        rw [hother k hk]
        exact (hw.onCourse k s hs).other hown.course hk

theorem Weave.Sound.play {τ : List Key} (hw : Sound h now c ks x₀ τ w) (σ : List Key) :
    Sound h now c ks x₀ (τ ++ σ) (w.play h now σ) := by
  induction σ generalizing τ w with
  | nil => rwa [List.append_nil]
  | cons j σ ih =>
    rw [List.append_cons]
    exact ih (hw.turn j)

/-- Work on several keys at once, in any order of its questions: what the work on a key has asked
after a schedule is what it asks first when it is alone, one question for each of its turns. It has
come to its end as soon as it has had as many turns as it asks questions alone, and then its result
and the expectation for its key are those that it comes to alone. -/
theorem keys_do_not_interfere (h : Collaborators) (now : Instant) (c : Context) (ks : List Key)
    (x : Expectations) (schedule : List Key) :
    ∀ k ∈ ks, ∃ s, ((Weave.begin c ks x).play h now schedule).strands.get? k = some s ∧
      s.asked = (h.alone now ⟨[], dialogue c k⟩ x).asked.take (schedule.count k) ∧
      ((∃ r, s.rest = .done r) ↔
        (h.alone now ⟨[], dialogue c k⟩ x).asked.length ≤ schedule.count k) ∧
      ∀ r, s.rest = .done r → r = (h.alone now ⟨[], dialogue c k⟩ x).result ∧
        ((Weave.begin c ks x).play h now schedule).expectations.pending.get? k =
          (h.alone now ⟨[], dialogue c k⟩ x).expectations.pending.get? k := by
  intro k hk
  have hw := (Weave.sound_begin h now c ks x).play schedule
  obtain ⟨⟨qs, d⟩, hs⟩ := hw.isSome k hk
  have hcourse := hw.onCourse k _ hs
  rw [List.nil_append] at hcourse
  refine ⟨_, hs, ?_⟩
  generalize h.alone now ⟨[], dialogue c k⟩ x = e at hcourse
  cases d with
  | done r =>
    -- alone from here, the work has come to its end already
    have hasked : qs = e.asked := hcourse.ending.asked
    have hle : qs.length ≤ schedule.count k := hcourse.turns.elim Nat.le_of_eq And.left
    rw [hasked] at hle
    refine ⟨hasked.trans (List.take_of_length_le hle).symm, ⟨fun _ => hle, fun _ => ⟨r, rfl⟩⟩, ?_⟩
    intro r' hr'
    cases hr'
    exact ⟨hcourse.ending.result, hcourse.ending.pending⟩
  | ask q next =>
    have hlen : qs.length = schedule.count k :=
      hcourse.turns.resolve_right fun ⟨_, r, hr⟩ => nomatch hr
    have hmore : qs ++ [q] <+: e.asked := by
      rw [← hcourse.ending.asked, Collaborators.alone_ask]
      exact h.asked_prefix now ⟨qs ++ [q], _⟩ _
    have hlt : schedule.count k < e.asked.length := by
      have := hmore.length_le
      rw [List.length_append, List.length_singleton] at this
      omega
    refine ⟨?_, ⟨?_, fun hle => absurd hle (Nat.not_le.2 hlt)⟩, nofun⟩
    · rw [← hlen]
      exact List.prefix_iff_eq_take.1 ((List.prefix_append qs [q]).trans hmore)
    · rintro ⟨r, hr⟩
      cases hr

/-- Two warm images, and no child of either. -/
def twoImages : Context :=
  let other : WarmImage := { sample with metadata := { sample.metadata with name := some "b" } }
  ⟨.forController, { items := .ofList [("ns/a", sample), ("ns/b", other)] }, {}, "sleeper"⟩

/-- Collaborators who refuse to create one child. -/
def refusing (child : DaemonSet) : Collaborators where
  secret _ _ := .ok none
  digest _ _ := .error .transport
  create _ d := if d = child then .error (.refused 500) else .ok ()
  deleteCollection _ _ _ := .ok ()
  publish _ _ := .ok ()

/-- The child of one warm image is refused while work on another goes on: the work on the one fails
at its second question, and that on the other ends well at its fourth. -/
theorem keys_do_not_interfere_refused :
    let schedule := ["ns/b", "ns/a", "ns/b", "ns/a", "ns/b", "ns/a", "ns/b"]
    let w := (Weave.begin twoImages ["ns/a", "ns/b"] .standard).play (refusing sampleChild) ⟨0⟩
      schedule
    (∃ s, w.strands.get? "ns/a" = some s ∧ s.asked.length = 2 ∧
      s.rest = .done (.error (.cluster (.refused 500)))) ∧
    ∃ s, w.strands.get? "ns/b" = some s ∧ s.asked.length = 4 ∧ s.rest = .done (.ok ()) := by
  intro schedule w
  have hends := keys_do_not_interfere (refusing sampleChild) ⟨0⟩ twoImages ["ns/a", "ns/b"]
    .standard schedule
  obtain ⟨s, hs, hasked, hdone, hresult⟩ := hends "ns/a" (by decide)
  obtain ⟨s', hs', hasked', hdone', hresult'⟩ := hends "ns/b" (by decide)
  refine ⟨⟨s, hs, ?_, ?_⟩, s', hs', ?_, ?_⟩
  · rw [hasked]
    rfl
  · obtain ⟨r, hr⟩ := hdone.2 (by decide)
    rw [hr, (hresult r hr).1]
    rfl
  · rw [hasked']
    rfl
  · obtain ⟨r, hr⟩ := hdone'.2 (by decide)
    rw [hr, (hresult' r hr).1]
    rfl

end

end Prewarm.Reconcile
