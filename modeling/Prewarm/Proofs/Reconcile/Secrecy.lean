import Prewarm.Json.Writer
import Prewarm.Proofs.Reconcile.Interleaving

/-!
# What secrets hold is not seen

A reconciler is a machine here, to which things happen one after the other (`Input`): work on a key
begins, it goes on with answers of others or ends, it breaks off, and time passes. What is seen of
it is a run, and there is no other run (`run_iff_play`).

Two of these machines are compared. The same happens to both, except that the secrets that are there
hold other data and that the registries are asked with other logins; they give the same replies
(`Matched`). Then nothing else is different: both ask the same questions of all others at the same
time, their work ends with the same results, and they expect the same children (`secrets_unseen`).

What is left of work in one machine and in the other are two dialogues that ask the same as long as
they are answered the same, up to what secrets hold and with which logins the registries are asked
(`Alike`). Work on a key is like itself in this way (`alike_dialogue`), since the data of a secret
goes into the logins and from there into the question for a digest, and nowhere else.
-/

namespace Prewarm.Reconcile

/-! ## The machine -/

/-- Something that happens to a reconciler. -/
inductive Input where
  /-- Work on a key begins, with what the stores hold. -/
  | begin (k : Key) (c : Context)
  /-- Work on a key gets an answer, from others unless it asks the expectations, or ends. -/
  | goOn (k : Key) (h : Collaborators)
  /-- Work on a key breaks off while others are asked. -/
  | breakOff (k : Key)
  | pass (d : Duration)

/-- What is seen of a reconciler when something happens to it, and its state then. -/
def State.react (s : State) : Input → Option Deed × State
  | .begin k c =>
    match s.work.get? k with
    | none => (some (.begun k (found c k)), { s with work := s.work.insert k (dialogue c k) })
    | some _ => (none, s)
  | .goOn k h =>
    match s.work.get? k with
    | some (.ask q next) =>
      (some (.answered k q (h.answer s.now q s.expectations).1),
        { s with
          expectations := (h.answer s.now q s.expectations).2
          work := s.work.insert k (next (h.answer s.now q s.expectations).1) })
    | some (.done r) => (some (.ended k r), { s with work := s.work.erase k })
    | none => (none, s)
  | .breakOff k =>
    match s.work.get? k with
    | some (.ask q _) =>
      if q.isOutside then (some (.brokenOff k), { s with work := s.work.erase k }) else (none, s)
    | _ => (none, s)
  | .pass d => (none, { s with now := ⟨s.now.nanos + d.nanos⟩ })

/-- What is seen of a reconciler when one thing after the other happens to it, and its state then.
-/
def State.play (s : State) : List Input → History × State
  | [] => ([], s)
  | i :: is =>
    let (τ, s') := (s.react i).2.play is
    ((s.react i).1.toList.map (s.now, ·) ++ τ, s')

/-- Whether work on a key has come to a question. -/
def State.Asks (s : State) (k : Key) (q : Query) : Prop :=
  ∃ next, s.work.get? k = some (.ask q next)

/-- Collaborators who refuse everything. -/
def refusingAll : Collaborators where
  secret _ _ := .error (.refused 500)
  digest _ _ := .error .transport
  create _ _ := .error (.refused 500)
  deleteCollection _ _ _ := .error (.refused 500)
  publish _ _ := .error (.refused 500)

/-- Collaborators who give an answer to a question, if it goes to them. -/
def answering : (q : Query) → q.Answer → Collaborators
  | .secret .., a => { refusingAll with secret := fun _ _ => a }
  | .digest .., a => { refusingAll with digest := fun _ _ => a }
  | .create .., a => { refusingAll with create := fun _ _ => a }
  | .deleteCollection .., a => { refusingAll with deleteCollection := fun _ _ _ => a }
  | .publish .., a => { refusingAll with publish := fun _ _ => a }
  | .isPending .., _ | .expect .., _ | .observed .., _ => refusingAll

/-! ## What is compared -/

/-- A question without the logins that it is asked with. -/
def Query.bare : Query → Query
  | .digest t _ => .digest t .anonymous
  | q => q

/-- What all can see of a deed: what is asked and what work comes to. -/
inductive Sight where
  | begun (k : Key) (f : Finding)
  | asked (k : Key) (q : Query)
  | brokenOff (k : Key)
  | ended (k : Key) (r : Except Failure Unit)

/-- What all can see of a deed, without answers and logins. -/
def Deed.sight : Deed → Sight
  | begun k f => .begun k f
  | answered k q _ => .asked k q.bare
  | brokenOff k => .brokenOff k
  | ended k r => .ended k r

/-- What all can see of a history, with the instants. -/
def sights (τ : History) : List (Instant × Sight) := τ.map fun e => (e.1, e.2.sight)

/-- Two answers to a question that differ at most in what a secret holds. -/
def Query.AnswersAlike : (q : Query) → q.Answer → q.Answer → Prop
  | .secret .., a, a' => a.map Option.isSome = a'.map Option.isSome
  | .isPending .., a, a' | .expect .., a, a' | .observed .., a, a' | .digest .., a, a'
  | .create .., a, a' | .deleteCollection .., a, a' | .publish .., a, a' => a = a'

/-- What happens to one reconciler and to another one, if the same happens to both, up to what
secrets hold that are there. To a question for the digest of a tag that both ask, the registries
reply the same. -/
inductive Input.Matches (s s' : State) : Input → Input → Prop
  | begin (k : Key) (c : Context) : Matches s s' (.begin k c) (.begin k c)
  | goOn {k : Key} {h : Collaborators}
      {secret : String → String → Except ClusterError (Option Secret)}
      {digest : TagReference → Logins → Except ResolveError String} :
      (∀ ns name, (Query.secret ns name).AnswersAlike (h.secret ns name) (secret ns name)) →
      (∀ t ls ls', s.Asks k (.digest t ls) → s'.Asks k (.digest t ls') →
        h.digest t ls = digest t ls') →
      Matches s s' (.goOn k h) (.goOn k { h with secret, digest })
  | breakOff (k : Key) : Matches s s' (.breakOff k) (.breakOff k)
  | pass (d : Duration) : Matches s s' (.pass d) (.pass d)

/-- The same happens to two reconcilers one after the other, up to what secrets hold that are there.
-/
inductive Matched : State → State → List Input → List Input → Prop
  | nil {s s' : State} : Matched s s' [] []
  | cons {s s' : State} {i i' : Input} {is is' : List Input} :
      i.Matches s s' i' → Matched (s.react i).2 (s'.react i').2 is is' →
      Matched s s' (i :: is) (i' :: is')

/-- Two dialogues that ask the same as long as they are answered the same, up to what secrets hold
and with which logins the registries are asked, and come to the same. -/
inductive Alike : Rest → Rest → Prop
  | done (r : Except Failure Unit) : Alike (.done r) (.done r)
  | ask {q : Query} {next next' : q.Answer → Rest} :
      (∀ a a', q.AnswersAlike a a' → Alike (next a) (next' a')) →
      Alike (.ask q next) (.ask q next')
  | digest {t : TagReference} {ls ls' : Logins} {next next' : Except ResolveError String → Rest} :
      (∀ a, Alike (next a) (next' a)) →
      Alike (.ask (.digest t ls) next) (.ask (.digest t ls') next')

section
variable {s s' : State} {i i' : Input} {is is' : List Input} {e : Deed} {τ : History}
  {c : Context} {k : Key} {ns name : String} {wi : WarmImage} {q : Query} {d d' : Rest}
  {h : Collaborators} {now : Instant} {x : Expectations}

/-! ## Plays are runs -/

theorem answer_answering {a : q.Answer} {x' : Expectations} (ha : Answers now x q a x') :
    (answering q a).answer now q x = (a, x') := by
  cases q with
  | isPending k v => exact Eq.symm ha
  | expect | observed | secret | digest | create | deleteCollection | publish =>
    rw [show x' = _ from ha]
    rfl

/-- What is seen of a machine is a step of it, and if nothing is seen only time may have passed. -/
theorem react_cases (s : State) (i : Input) :
    (∃ e, (s.react i).1 = some e ∧ Step s e (s.react i).2) ∨
    ((s.react i).1 = none ∧ ∃ now : Instant, s.now.nanos ≤ now.nanos ∧
      (s.react i).2 = { s with now := now }) := by
  have hidle : ∃ now : Instant, s.now.nanos ≤ now.nanos ∧ s = { s with now := now } :=
    ⟨s.now, Nat.le_refl _, rfl⟩
  cases i with
  | begin k c =>
    unfold State.react
    dsimp only
    split
    · next hk => exact .inl ⟨_, rfl, .begin c hk⟩
    · exact .inr ⟨rfl, hidle⟩
  | goOn k h =>
    unfold State.react
    dsimp only
    split
    · next q next hk => exact .inl ⟨_, rfl, .answer hk (answers_answer h s.now q s.expectations)⟩
    · next hk => exact .inl ⟨_, rfl, .finish hk⟩
    · exact .inr ⟨rfl, hidle⟩
  | breakOff k =>
    unfold State.react
    dsimp only
    split
    · next hk =>
      split
      · next hq => exact .inl ⟨_, rfl, .breakOff hk hq⟩
      · exact .inr ⟨rfl, hidle⟩
    · exact .inr ⟨rfl, hidle⟩
  | pass d => exact .inr ⟨rfl, _, Nat.le_add_right .., rfl⟩

/-- Whatever can be seen of a reconciler happens to the machine. -/
theorem Step.exists_input (hs : Step s e s') : ∃ i, s.react i = (some e, s') := by
  cases hs with
  | @begin k c hk => exact ⟨.begin k c, by simp only [State.react, hk]⟩
  | @answer k q _ a _ hk ha =>
    exact ⟨.goOn k (answering q a), by simp only [State.react, hk, answer_answering ha]⟩
  | @breakOff k _ _ hk hq => exact ⟨.breakOff k, by simp only [State.react, hk, hq, if_true]⟩
  | @finish k _ hk => exact ⟨.goOn k refusingAll, by simp only [State.react, hk]⟩

theorem play_concat (s : State) (is : List Input) (i : Input) :
    s.play (is ++ [i]) =
      ((s.play is).1 ++ ((s.play is).2.react i).1.toList.map ((s.play is).2.now, ·),
        ((s.play is).2.react i).2) := by
  induction is generalizing s with
  | nil => simp [State.play]
  | cons j is ih => simp only [List.cons_append, State.play, ih, List.append_assoc]

theorem Run.play (hr : Run τ s) (is : List Input) :
    Run (τ ++ (s.play is).1) (s.play is).2 := by
  induction is generalizing τ s with
  | nil =>
    rw [show τ ++ (s.play []).1 = τ from List.append_nil τ]
    exact hr
  | cons i is ih =>
    simp only [State.play]
    rw [← List.append_assoc]
    rcases react_cases s i with ⟨e, he, hs⟩ | ⟨he, now, hnow, hs⟩
    · rw [he]
      exact ih (hr.next hs)
    · rw [he, hs]
      exact ih (by simpa using hr.pass hnow)

/-- The runs of a reconciler are what is seen of the machine. -/
theorem run_iff_play : Run τ s ↔ ∃ start is, State.play { now := start } is = (τ, s) := by
  constructor
  · intro hr
    induction hr with
    | start now => exact ⟨now, [], rfl⟩
    | next _ hs ih =>
      obtain ⟨start, is, hplay⟩ := ih
      obtain ⟨i, hi⟩ := hs.exists_input
      exact ⟨start, is ++ [i], by simp [play_concat, hplay, hi]⟩
    | @pass τ s now _ hnow ih =>
      obtain ⟨start, is, hplay⟩ := ih
      have hpass : s.now.nanos + (now.since s.now).nanos = now.nanos := by
        simp only [Instant.since]
        omega
      exact ⟨start, is ++ [.pass (now.since s.now)], by
        simp [play_concat, hplay, State.react, hpass]⟩
  · rintro ⟨start, is, hplay⟩
    have hr := (Run.start start).play is
    rw [hplay] at hr
    exact hr

/-! ## Work is like itself -/

/-- Work that reads no secret is like itself. -/
theorem Closing.alike (hd : Closing d) : Alike d d := by
  induction hd with
  | done r => exact .done r
  | deleteCollection _ ih | publish _ ih =>
    refine .ask fun a a' ha => ?_
    cases show a = a' from ha
    exact ih a

/-- What secrets hold goes into the logins. -/
theorem alike_addLogins {f : Except ClusterError Logins → Rest}
    (hf : ∀ r r', r.map (fun _ => ()) = r'.map (fun _ => ()) → Alike (f r) (f r'))
    (ls ls' : Logins) (names : List String) :
    Alike ((sources.addLogins ns ls names).bind f) ((sources.addLogins ns ls' names).bind f) := by
  induction names generalizing ls ls' with
  | nil => exact hf _ _ rfl
  | cons name names ih =>
    refine .ask fun a a' ha => ?_
    rcases a with e | _ | s <;> rcases a' with e' | _ | s' <;> cases ha
    · exact hf _ _ rfl
    · exact ih ls ls'
    · exact ih _ _

/-- The logins go into the question for a digest, and nowhere else. -/
theorem alike_pin {f : Except ResolveError String → Rest} (hf : ∀ r, Alike (f r) (f r))
    (image : String) (secrets : List String) :
    Alike ((sources.pin ns image secrets).bind f) ((sources.pin ns image secrets).bind f) := by
  unfold PinSources.pin
  split
  · exact hf _
  · next t _ =>
    show Alike (Dialogue.bind (Dialogue.bind _ _) f) (Dialogue.bind (Dialogue.bind _ _) f)
    rw [Dialogue.bind_assoc]
    refine alike_addLogins (fun r r' hr => ?_) _ _ _
    rcases r with e | ls <;> rcases r' with e' | ls' <;> cases hr
    · exact hf _
    · exact .digest fun a => hf _

theorem alike_createChild (c : Context) (k : Key) (wi : WarmImage) (ns : String) :
    Alike ((createChild c wi ns).run.bind (andExpect c k wi ns))
      ((createChild c wi ns).run.bind (andExpect c k wi ns)) := by
  rw [createChild_run, Dialogue.bind_assoc]
  refine alike_pin (fun r => ?_) _ _
  cases r with
  | error e => exact .done _
  | ok image =>
    dsimp only
    split
    · exact .done _
    · refine .ask fun a a' ha => ?_
      cases show a = a' from ha
      cases a with
      | error e => exact .done _
      | ok u => exact .ask fun _ _ _ => (closing_settle c wi ns).alike

/-- Work on a key is like itself. -/
theorem alike_dialogue (c : Context) (k : Key) : Alike (dialogue c k) (dialogue c k) := by
  cases hk : k.split with
  | error e =>
    rw [dialogue_of_invalidKey hk]
    exact .done _
  | ok parts =>
    obtain ⟨ns, name⟩ := parts
    cases hwi : c.warmImages.get? ns name with
    | none =>
      rw [dialogue_of_absent hk hwi]
      exact .ask fun _ _ _ => .done _
    | some wi =>
      have hsettle := (closing_settle c wi ns).alike
      cases hcur : (childrenOf c wi ns).1.isEmpty with
      | false =>
        rw [dialogue_of_present hk hwi hcur]
        exact .ask fun _ _ _ => hsettle
      | true =>
        rw [dialogue_of_childless hk hwi hcur]
        refine .ask fun b b' hb => ?_
        cases show b = b' from hb
        cases b with
        | true => exact hsettle
        | false => exact alike_createChild c k wi ns

/-! ## Two machines -/

/-- Two reconcilers that have come to the same, up to what secrets hold. -/
structure Twins (s s' : State) : Prop where
  now_eq : s.now = s'.now
  expectations_eq : s.expectations = s'.expectations
  work : ∀ k, Option.Rel Alike (s.work.get? k) (s'.work.get? k)

/-- Work on a key goes on in the same way in both. -/
theorem Twins.insert (ht : Twins s s') (hd : Alike d d') (k : Key) (x : Expectations) :
    Twins { s with expectations := x, work := s.work.insert k d }
      { s' with expectations := x, work := s'.work.insert k d' } := by
  refine ⟨ht.now_eq, rfl, fun k' => ?_⟩
  dsimp only
  rw [Table.get?_insert, Table.get?_insert]
  split
  · exact .some hd
  · exact ht.work k'

/-- Work on a key is over in both. -/
theorem Twins.erase (ht : Twins s s') (k : Key) :
    Twins { s with work := s.work.erase k } { s' with work := s'.work.erase k } := by
  refine ⟨ht.now_eq, ht.expectations_eq, fun k' => ?_⟩
  dsimp only
  rw [Table.get?_erase, Table.get?_erase]
  split
  · exact .none
  · exact ht.work k'

/-- Others who differ in what secrets hold give answers that differ in what a secret holds. -/
theorem answersAlike_answer (q : Query) (now : Instant) (x : Expectations)
    {secret : String → String → Except ClusterError (Option Secret)}
    {digest : TagReference → Logins → Except ResolveError String}
    (hsecret : ∀ ns name, (Query.secret ns name).AnswersAlike (h.secret ns name) (secret ns name))
    (hdigest : ∀ t ls, q = .digest t ls → h.digest t ls = digest t ls) :
    q.AnswersAlike (h.answer now q x).1 (({ h with secret, digest }).answer now q x).1 ∧
      (h.answer now q x).2 = (({ h with secret, digest }).answer now q x).2 := by
  cases q with
  | secret ns name => exact ⟨hsecret ns name, rfl⟩
  | digest t ls => exact ⟨hdigest t ls rfl, rfl⟩
  | isPending | expect | observed | create | deleteCollection | publish => exact ⟨rfl, rfl⟩

/-- What happens to two machines leaves them as they were to each other, and the same is seen of
both. -/
theorem Twins.react (ht : Twins s s') (hi : i.Matches s s' i') :
    (s.react i).1.map Deed.sight = (s'.react i').1.map Deed.sight ∧
      Twins (s.react i).2 (s'.react i').2 := by
  obtain ⟨now, x, work⟩ := s
  obtain ⟨now', x', work'⟩ := s'
  obtain rfl : now = now' := ht.now_eq
  obtain rfl : x = x' := ht.expectations_eq
  cases hi with
  | begin k c =>
    have hrel := ht.work k
    unfold State.react
    dsimp only at hrel ⊢
    generalize work.get? k = w, work'.get? k = w' at hrel ⊢
    cases hrel with
    | none => exact ⟨rfl, ht.insert (alike_dialogue c k) k x⟩
    | some => exact ⟨rfl, ht⟩
  | @goOn k h secret digest hsecret hdigest =>
    have hrel := ht.work k
    unfold State.Asks at hdigest
    unfold State.react
    dsimp only at hrel hdigest ⊢
    generalize work.get? k = w, work'.get? k = w' at hrel hdigest ⊢
    cases hrel with
    | none => exact ⟨rfl, ht⟩
    | some hd =>
      cases hd with
      | done r => exact ⟨rfl, ht.erase k⟩
      | @ask q next next' hnext =>
        obtain ⟨hanswer, hx⟩ := answersAlike_answer q now x hsecret fun t ls hq => by
          subst hq
          exact hdigest t ls ls ⟨_, rfl⟩ ⟨_, rfl⟩
        dsimp only
        rw [← hx]
        exact ⟨rfl, ht.insert (hnext _ _ hanswer) k _⟩
      | @digest t ls ls' next next' hnext =>
        -- the one question that differs, in its logins; its answers match by assumption
        have hreply : h.digest t ls = digest t ls' := hdigest t ls ls' ⟨_, rfl⟩ ⟨_, rfl⟩
        refine ⟨rfl, ht.insert ?_ k x⟩
        rw [show (h.answer now (.digest t ls) x).1 = digest t ls' from hreply]
        exact hnext _
  | breakOff k =>
    have hrel := ht.work k
    unfold State.react
    dsimp only at hrel ⊢
    generalize work.get? k = w, work'.get? k = w' at hrel ⊢
    cases hrel with
    | none => exact ⟨rfl, ht⟩
    | some hd =>
      cases hd with
      | done r => exact ⟨rfl, ht⟩
      | ask hnext =>
        dsimp only
        split
        · exact ⟨rfl, ht.erase k⟩
        · exact ⟨rfl, ht⟩
      | digest hnext => exact ⟨rfl, ht.erase k⟩
  | pass d => exact ⟨rfl, rfl, rfl, ht.work⟩

@[simp] theorem sights_append (τ σ : History) : sights (τ ++ σ) = sights τ ++ sights σ :=
  List.map_append

/-- What happens to two machines one after the other, up to what secrets hold, leaves them as they
were to each other, and the same is seen of both. -/
theorem Twins.play (ht : Twins s s') (hm : Matched s s' is is') :
    sights (s.play is).1 = sights (s'.play is').1 ∧ Twins (s.play is).2 (s'.play is').2 := by
  induction hm with
  | nil => exact ⟨rfl, ht⟩
  | cons hi _ ih =>
    obtain ⟨hsight, ht'⟩ := ht.react hi
    obtain ⟨hsights, hend⟩ := ih ht'
    refine ⟨?_, hend⟩
    have hfirst : ∀ (t : Instant) (o : Option Deed),
        sights (o.toList.map (t, ·)) = (o.map Deed.sight).toList.map (t, ·) := by
      rintro t (_ | e) <;> rfl
    simp only [State.play, sights_append, hfirst, hsight, hsights, ht.now_eq]

/-- What secrets hold reaches nobody but the registries. The same happens to two reconcilers, one
thing after the other, except that secrets which are there hold other data in the one than in the
other; to a question for the digest of a tag the registries reply the same in both. Then both ask
the same questions at the same instants, but for the logins with which they ask a registry. Their
work ends with the same results, so that the same is said of its failures and the same becomes of
its keys, and in the end they expect the same children. -/
theorem secrets_unseen (start : Instant) (x : Expectations) (is is' : List Input)
    (hm : Matched { now := start, expectations := x } { now := start, expectations := x } is is') :
    let played := State.play { now := start, expectations := x } is
    let played' := State.play { now := start, expectations := x } is'
    sights played.1 = sights played'.1 ∧ played.2.now = played'.2.now ∧
      played.2.expectations = played'.2.expectations := by
  intro played played'
  have ht : Twins { now := start, expectations := x } { now := start, expectations := x } :=
    ⟨rfl, rfl, fun k => .none⟩
  obtain ⟨hsights, hend⟩ := ht.play hm
  exact ⟨hsights, hend.now_eq, hend.expectations_eq⟩

/-- A secret with a password for the default registry. -/
def secretWith (password : String) : Secret where
  data := some (.ofList [(".dockercfg", .ofString (Json.render (.record [("docker.io", .record
    [("username", .text "robin"), ("password", .text password)])])))])

/-- A warm image that is pulled with a secret. -/
def sampleWithSecret : WarmImage := { sample with image := "a", pullSecret := some "pull" }

/-- Others for whom all goes well, and who have a secret. -/
def obliging (secret : Secret) : Collaborators where
  secret _ _ := .ok (some secret)
  digest _ _ := .ok "sha256:1"
  create _ _ := .ok ()
  deleteCollection _ _ _ := .ok ()
  publish _ _ := .ok ()

/-- The warm image in a store, and no child. -/
def contextWithSecret : Context :=
  ⟨.forController, { items := .ofList [("ns/a", sampleWithSecret)] }, {}, "sleeper"⟩

/-- One work on the warm image, from its beginning to its end. -/
def oneWork (secret : Secret) : List Input :=
  .begin "ns/a" contextWithSecret :: List.replicate 7 (.goOn "ns/a" (obliging secret))

/-- With another password the registry is asked with another login, and the same is seen otherwise.
-/
theorem secrets_unseen_login :
    let played password := State.play { now := ⟨0⟩ } (oneWork (secretWith password))
    let logins password := Logins.anonymous.addSecret (secretWith password)
    Matched { now := ⟨0⟩ } { now := ⟨0⟩ } (oneWork (secretWith "x")) (oneWork (secretWith "y")) ∧
      sights (played "x").1 = sights (played "y").1 ∧
      (∀ password, (⟨0⟩, .answered "ns/a" (.digest ⟨none, "a", "latest"⟩ (logins password))
        (.ok "sha256:1")) ∈ (played password).1) ∧
      (logins "x").get? "docker.io" = some ⟨"robin", "x"⟩ ∧
      (logins "y").get? "docker.io" = some ⟨"robin", "y"⟩ := by
  intro played logins
  -- for any secrets, so that none has to be read
  have hgo : ∀ (r r' : Secret) (n : Nat) (s s' : State), Matched s s'
      (List.replicate n (.goOn "ns/a" (obliging r)))
      (List.replicate n (.goOn "ns/a" (obliging r'))) := by
    intro r r' n
    induction n with
    | zero => exact fun _ _ => .nil
    | succ n ih => exact fun _ _ => .cons (.goOn (fun _ _ => rfl) fun _ _ _ _ _ => rfl) (ih _ _)
  have hm : ∀ r r', Matched { now := ⟨0⟩ } { now := ⟨0⟩ } (oneWork r) (oneWork r') :=
    fun r r' => .cons (.begin _ _) (hgo r r' 7 _ _)
  have hasked : ∀ r, (⟨0⟩, .answered "ns/a"
      (.digest ⟨none, "a", "latest"⟩ (Logins.anonymous.addSecret r)) (.ok "sha256:1")) ∈
      (State.play { now := ⟨0⟩ } (oneWork r)).1 :=
    fun r => .tail _ (.tail _ (.tail _ (.head _)))
  refine ⟨hm _ _, (secrets_unseen ⟨0⟩ .standard _ _ (hm _ _)).1, fun password => hasked _, ?_, ?_⟩
  · decide +kernel
  · decide +kernel

end

end Prewarm.Reconcile
