import Prewarm.Proofs.Reflector.Server
import Prewarm.Reflector
import Prewarm.WarmImage

/-!
# A reflector mirrors a server

A reflector that begins with an empty store, at a server with a history. A `Run` is any course of
listings, watches, failures, ends and instants: a listing is not older than what was seen before,
and a watch tells of the changes after the version it was opened at, in order and none left out,
with bookmarks between them. `Faithful` is what every step keeps once there was a listing: the store
holds what the server held at the version of the reflector, and what was applied since the listing
are the changes up to that version, each once (`mirrors_server`).
-/

namespace Prewarm

/-- A reflector at a server, with a record of what the server has told it. -/
structure Mirror (α : Type) where
  reflector : Reflector α
  /-- The version up to which the watch that is open has told of all changes. -/
  told : Nat := 0
  /-- The version of the last listing that was taken, none before the first. -/
  listed : Option Nat := none
  /-- The changes that watches have told of since the last listing. -/
  applied : List (Nat × Act α) := []

namespace Reflector

section
variable {α : Type} {r : Reflector α} {now : Instant} {p : Phase}

/-- Whether a reflector waits for changes. -/
def Phase.IsWatching (p : Phase) : Prop := ∃ deadline heard, p = .watching deadline heard

/-- Whether a phase can come before the first listing. -/
def Phase.isEarly : Phase → Bool
  | .listing | .resting _ | .stopped => true
  | _ => false

/-- A phase that comes after another without a watch being opened. -/
structure Phase.Follows (p' p : Phase) : Prop where
  watching : p'.IsWatching → p.IsWatching
  early : p.isEarly = true → p'.isEarly = true

/-- Whether what happens says nothing of the objects: a failure, an end, an instant, the word to
stop. -/
def Input.isMute : Input α → Bool
  | .listed (.ok _) | .opened (.ok _) | .changed _ => false
  | _ => true

/-- How a watch tells of a change. -/
def Tells : Act α → Change α → Prop
  | .written a, .added b | .written a, .modified b | .deleted a, .deleted b => b = a
  | _, _ => False

/-! ## What a step does -/

theorem phase_of_request_list (h : r.request? = some .list) : r.phase = .listing := by
  unfold request? at h
  split at h
  · assumption
  · cases h
  · cases h

theorem of_request_watch {v : String} (h : r.request? = some (.watch v)) :
    (∃ deadline, r.phase = .opening deadline) ∧ r.version = v := by
  unfold request? at h
  split at h
  · cases h
  · next deadline hphase =>
    cases h
    exact ⟨⟨deadline, hphase⟩, rfl⟩
  · cases h

theorem Phase.IsWatching.isEarly_eq_false (h : p.IsWatching) : p.isEarly = false := by
  obtain ⟨deadline, heard, rfl⟩ := h
  rfl

/-- Listings, rests and the end can come at any time. -/
theorem Phase.follows_of_isEarly {p' : Phase} (h : p'.isEarly = true) (p : Phase) :
    p'.Follows p := by
  refine ⟨fun hw => ?_, fun _ => h⟩
  rw [hw.isEarly_eq_false] at h
  cases h

/-- An instant that is reached opens no watch. -/
theorem follows_afterTick (now : Instant) (p : Phase) : (afterTick now p).Follows p := by
  cases p with
  | listing | stopped | broken => exact ⟨id, id⟩
  | resting wake =>
    simp only [afterTick]
    split
    · exact Phase.follows_of_isEarly rfl _
    · exact ⟨id, id⟩
  | opening deadline | watching deadline heard =>
    simp only [afterTick]
    split
    · exact Phase.follows_of_isEarly rfl _
    · exact ⟨id, id⟩
  | pausing deadline wake =>
    simp only [afterTick]
    split
    · exact Phase.follows_of_isEarly rfl _
    · split
      · refine ⟨?_, fun h => (by cases h)⟩
        rintro ⟨_, _, h⟩
        cases h
      · exact ⟨id, id⟩

variable [Resource α] {c : Change α} {i : Input α}

theorem step_listed {as : List α} {v : String} (h : r.phase = .listing) :
    (r.step now (.listed (.ok (as, v)))).1 = (r.takeListing now as v).1 := by
  unfold step
  rw [h]

theorem step_opened {deadline : Instant} (h : r.phase = .opening deadline) :
    (r.step now (.opened (.ok ()))).1 = { r with phase := .watching deadline false } := by
  unfold step
  rw [h]

theorem step_changed (h : r.phase.IsWatching) (now : Instant) (c : Change α) :
    ∃ p, (r.step now (.changed c)).1 = ({ r with phase := p }.takeChange c).1 := by
  obtain ⟨deadline, heard, h⟩ := h
  refine ⟨.watching deadline true, ?_⟩
  unfold step
  rw [h]

/-- What says nothing of the objects leads to another phase, and opens no watch. -/
theorem step_mute (h : i.isMute = true) (r : Reflector α) (now : Instant) :
    ∃ p d, (r.step now i).1 = { r with phase := p, rest := d } ∧ p.Follows r.phase := by
  have hsame : ∃ p d, r = { r with phase := p, rest := d } ∧ p.Follows r.phase :=
    ⟨r.phase, r.rest, rfl, id, id⟩
  cases i with
  | listed res =>
    rcases res with e | res
    · unfold step
      dsimp only
      split
      · next heq => cases heq
      · exact ⟨_, _, rfl, Phase.follows_of_isEarly rfl _⟩
      · exact hsame
    · cases h
  | opened res =>
    rcases res with e | res
    · unfold step
      dsimp only
      split
      · next heq => cases heq
      · exact ⟨_, r.rest, rfl, Phase.follows_of_isEarly rfl _⟩
      · exact hsame
    · cases h
  | changed c => cases h
  | failed e =>
    unfold step
    dsimp only
    split
    · exact ⟨_, r.rest, rfl, Phase.follows_of_isEarly rfl _⟩
    · exact hsame
  | ended =>
    unfold step
    dsimp only
    split
    · next deadline heard hphase =>
      refine ⟨_, r.rest, rfl, fun _ => ⟨deadline, heard, hphase⟩, fun he => ?_⟩
      rw [hphase] at he
      cases he
    · exact hsame
  | tick => exact ⟨_, r.rest, rfl, follows_afterTick now r.phase⟩
  | stop =>
    unfold step
    dsimp only
    split
    · exact hsame
    · exact ⟨_, r.rest, rfl, Phase.follows_of_isEarly rfl _⟩

/-! ## What a change does to the store -/

/-- A change that a watch tells of is made in the store too, if its object is not older than the one
that is filed. -/
theorem getByKey?_takeChange {e : Nat × Act α} (ht : Tells e.2 c)
    (h : ∀ old, r.store.getByKey? (keyOf e.2.object) = some old →
      Store.isOlder e.2.object old = false) (k : Key) :
    (r.takeChange c).1.store.getByKey? k = Server.after r.store.getByKey? e k := by
  obtain ⟨v, a | a⟩ := e
  · cases c with
    | added b | modified b =>
      cases ht
      exact Store.getByKey?_upsert h k
    | deleted b | bookmark n => exact ht.elim
  · cases c with
    | deleted b =>
      cases ht
      exact Store.getByKey?_remove r.store a k
    | added b | modified b | bookmark n => exact ht.elim

/-- A change brings the version of its object. -/
theorem takeChange_version {a : Act α} {v : String} (ht : Tells a c)
    (hv : (metadata a.object).resourceVersion = some v) : (r.takeChange c).1.version = v := by
  have hc : c.version? = some v := by
    cases a <;> cases c <;> first | exact ht.elim | (cases ht; exact hv)
  show c.version?.getD r.version = v
  rw [hc]
  rfl

end

end Reflector

namespace Mirror

section
variable {α : Type} [Resource α]

/-- Something has happened to the reflector. -/
def feed (m : Mirror α) (now : Instant) (i : Reflector.Input α) : Mirror α :=
  { m with reflector := (m.reflector.step now i).1 }

/-- What can happen to a reflector at a server. -/
inductive Step (srv : Server α) (m : Mirror α) : Mirror α → Prop
  /-- The objects are listed at a version that is not less than the one seen last. -/
  | list {t : Instant} {n : Nat} {as : List α} :
      m.reflector.request? = some .list → srv.Lists n as →
      (∀ v, m.reflector.version = toString v → v ≤ n) →
      Step srv m { m.feed t (.listed (.ok (as, toString n))) with listed := some n, applied := [] }
  /-- A watch is opened at the version that is asked for. -/
  | watch {t : Instant} {n : Nat} :
      m.reflector.request? = some (.watch (toString n)) →
      Step srv m { m.feed t (.opened (.ok ())) with told := n }
  /-- A watch tells of the next change. -/
  | change {t : Instant} {e : Nat × Act α} {c : Change α} :
      m.reflector.phase.IsWatching → srv.Next m.told e → Reflector.Tells e.2 c →
      Step srv m { m.feed t (.changed c) with told := e.1, applied := m.applied ++ [e] }
  /-- A watch tells that nothing has changed up to a version. -/
  | bookmark {t : Instant} {n : Nat} :
      m.reflector.phase.IsWatching → m.told ≤ n → srv.Silent m.told n →
      Step srv m { m.feed t (.changed (.bookmark (toString n))) with told := n }
  /-- Something fails or ends, an instant is reached, or the reflector is told to stop. -/
  | mute {t : Instant} {i : Reflector.Input α} : i.isMute = true → Step srv m (m.feed t i)

/-- What a reflector at a server comes to. -/
inductive Run (srv : Server α) (m₀ : Mirror α) : Mirror α → Prop
  | start : Run srv m₀ m₀
  | next {m m' : Mirror α} : Run srv m₀ m → Step srv m m' → Run srv m₀ m'

/-- The store is that of the server at a version `n`, which is the one of the reflector and the one
the open watch is at, and the changes since the last listing, at the version `n₀`, were applied up
to it. -/
structure Faithful (srv : Server α) (m : Mirror α) (n₀ n : Nat) : Prop where
  listed : m.listed = some n₀
  le : n₀ ≤ n
  version : m.reflector.version = toString n
  content : ∀ k, m.reflector.store.getByKey? k = srv.state n k
  told : m.reflector.phase.IsWatching → m.told = n
  applied : m.applied = srv.between n₀ n

/-- There was no listing yet: the store is empty, and no watch is open or opened. -/
structure Early (m : Mirror α) : Prop where
  listed : m.listed = none
  content : ∀ k, m.reflector.store.getByKey? k = none
  phase : m.reflector.phase.isEarly = true

/-- There was no listing yet, or the reflector is faithful at some version. -/
def Sound (srv : Server α) (m : Mirror α) : Prop := Early m ∨ ∃ n₀ n, Faithful srv m n₀ n

variable {srv : Server α} {m m' : Mirror α} {n₀ n : Nat} {now : Instant}

/-! ## What a reflector hears -/

theorem Sound.exists_faithful (h : Sound srv m) (hphase : m.reflector.phase.isEarly = false) :
    ∃ n₀ n, Faithful srv m n₀ n := by
  refine h.resolve_left fun he => ?_
  rw [he.phase] at hphase
  cases hphase

/-- After a listing that is not older than what the store holds, the reflector is faithful. -/
theorem faithful_list {as : List α} (h : Sound srv m) (hreq : m.reflector.request? = some .list)
    (hlist : srv.Lists n as) (hn : ∀ v, m.reflector.version = toString v → v ≤ n) :
    Faithful srv
      { m.feed now (.listed (.ok (as, toString n))) with listed := some n, applied := [] } n n := by
  have hnew : ∀ a ∈ as, ∀ old, m.reflector.store.getByKey? (keyOf a) = some old →
      Store.isOlder a old = false := fun a ha old hold => by
    rcases h with he | ⟨n₀, n', hf⟩
    · rw [he.content] at hold
      cases hold
    · rw [hf.content] at hold
      exact Server.not_isOlder hold ((hlist.mem_iff a).1 ha) (hn n' hf.version)
  have hstep : (m.feed now (.listed (.ok (as, toString n)))).reflector =
      (m.reflector.takeListing now as (toString n)).1 :=
    Reflector.step_listed (Reflector.phase_of_request_list hreq)
  refine ⟨rfl, Nat.le_refl _, congrArg (·.version) hstep, fun k => ?_, fun hw => ?_,
    (Server.between_self srv n).symm⟩
  · refine (congrArg (·.store.getByKey? k) hstep).trans ?_
    exact (Store.getByKey?_replace hlist.nodup hnew k).trans (hlist.find? k)
  · -- a listing is followed by the opening of a watch, or by nothing
    obtain ⟨deadline, heard, hw⟩ := hw
    have hphase := (congrArg (·.phase) hstep).symm.trans hw
    unfold Reflector.takeListing at hphase
    cases hadd : now.add? m.reflector.resync with
    | none | some t =>
      simp [hadd] at hphase

/-- A watch is opened at the version of the reflector, so it tells of what the store lacks. -/
theorem Faithful.watch {n' : Nat} (h : Faithful srv m n₀ n)
    (hreq : m.reflector.request? = some (.watch (toString n'))) :
    Faithful srv { m.feed now (.opened (.ok ())) with told := n' } n₀ n := by
  obtain ⟨⟨deadline, hphase⟩, hversion⟩ := Reflector.of_request_watch hreq
  have hstep : (m.feed now (.opened (.ok ()))).reflector =
      { m.reflector with phase := .watching deadline false } := Reflector.step_opened hphase
  refine ⟨h.listed, h.le, (congrArg (·.version) hstep).trans h.version, fun k => ?_, fun _ => ?_,
    h.applied⟩
  · exact (congrArg (·.store.getByKey? k) hstep).trans (h.content k)
  · exact Text.toString_injective (hversion.symm.trans h.version)

/-- A reflector that is faithful stays so when it hears of the next change. -/
theorem Faithful.change {e : Nat × Act α} {c : Change α} (h : Faithful srv m n₀ n)
    (hw : m.reflector.phase.IsWatching) (hnext : srv.Next m.told e) (ht : Reflector.Tells e.2 c) :
    Faithful srv
      { m.feed now (.changed c) with told := e.1, applied := m.applied ++ [e] } n₀ e.1 := by
  rw [h.told hw] at hnext
  have hlt := hnext.lt
  have hstamp := srv.stamped e hnext.mem
  have hnew : ∀ old, m.reflector.store.getByKey? (keyOf e.2.object) = some old →
      Store.isOlder e.2.object old = false := fun old hold => by
    rw [h.content] at hold
    obtain ⟨-, v, hv, hvn, -, -⟩ := Server.exists_version hold
    exact Server.isOlder_eq_false hv hstamp (by omega)
  obtain ⟨p, hstep⟩ : ∃ p, (m.feed now (.changed c)).reflector =
      ({ m.reflector with phase := p }.takeChange c).1 := Reflector.step_changed hw now c
  refine ⟨h.listed, Nat.le_trans h.le (Nat.le_of_lt hlt), ?_, fun k => ?_, fun _ => rfl, ?_⟩
  · exact (congrArg (·.version) hstep).trans (Reflector.takeChange_version ht hstamp)
  · rw [Server.state_of_next hnext, ← funext h.content]
    refine (congrArg (·.store.getByKey? k) hstep).trans ?_
    exact Reflector.getByKey?_takeChange (r := { m.reflector with phase := p }) ht hnew k
  · show m.applied ++ [e] = srv.between n₀ e.1
    rw [Server.between_of_next hnext h.le, h.applied]

/-- A reflector that is faithful stays so when it hears that nothing has changed. -/
theorem Faithful.bookmark {n' : Nat} (h : Faithful srv m n₀ n)
    (hw : m.reflector.phase.IsWatching) (hle : m.told ≤ n') (hsilent : srv.Silent m.told n') :
    Faithful srv
      { m.feed now (.changed (.bookmark (toString n'))) with told := n' } n₀ n' := by
  rw [h.told hw] at hle hsilent
  obtain ⟨p, hstep⟩ : ∃ p, (m.feed now (.changed (.bookmark (toString n')))).reflector =
      ({ m.reflector with phase := p }.takeChange (.bookmark (toString n'))).1 :=
    Reflector.step_changed hw now _
  refine ⟨h.listed, Nat.le_trans h.le hle, congrArg (·.version) hstep, fun k => ?_, fun _ => rfl,
    ?_⟩
  · rw [Server.state_of_silent hsilent hle, ← h.content k]
    exact congrArg (·.store.getByKey? k) hstep
  · show m.applied = srv.between n₀ n'
    rw [Server.between_of_silent hsilent hle, h.applied]

/-- What says nothing of the objects leaves the store and the version as they are. -/
theorem Sound.mute {i : Reflector.Input α} (h : Sound srv m) (hi : i.isMute = true) :
    Sound srv (m.feed now i) := by
  obtain ⟨p, d, hstep, hp⟩ := Reflector.step_mute hi m.reflector now
  replace hstep : (m.feed now i).reflector = { m.reflector with phase := p, rest := d } := hstep
  rcases h with h | ⟨n₀, n, h⟩
  · refine .inl ⟨h.listed, ?_, ?_⟩
    · rw [hstep]
      exact h.content
    · rw [hstep]
      exact hp.early h.phase
  · refine .inr ⟨n₀, n, h.listed, h.le, ?_, ?_, ?_, h.applied⟩
    · rw [hstep]
      exact h.version
    · rw [hstep]
      exact h.content
    · rw [hstep]
      exact fun hw => h.told (hp.watching hw)

/-! ## Along a run -/

/-- Everything that can happen to a sound reflector keeps it sound. -/
theorem Sound.step (h : Sound srv m) (hstep : Step srv m m') : Sound srv m' := by
  cases hstep with
  | list hreq hlist hn => exact .inr ⟨_, _, faithful_list h hreq hlist hn⟩
  | watch hreq =>
    obtain ⟨⟨deadline, hphase⟩, -⟩ := Reflector.of_request_watch hreq
    obtain ⟨n₀, n, hf⟩ := h.exists_faithful (by rw [hphase]; rfl)
    exact .inr ⟨n₀, n, hf.watch hreq⟩
  | change hw hnext ht =>
    obtain ⟨n₀, n, hf⟩ := h.exists_faithful hw.isEarly_eq_false
    exact .inr ⟨n₀, _, hf.change hw hnext ht⟩
  | bookmark hw hle hsilent =>
    obtain ⟨n₀, n, hf⟩ := h.exists_faithful hw.isEarly_eq_false
    exact .inr ⟨n₀, _, hf.bookmark hw hle hsilent⟩
  | mute hi => exact h.mute hi

theorem Run.sound {m₀ : Mirror α} (h₀ : Sound srv m₀) (h : Run srv m₀ m) : Sound srv m := by
  induction h with
  | start => exact h₀
  | next _ hstep ih => exact ih.step hstep

/-- Once a reflector that began with an empty store has taken a listing, its store is at any time
what the server holds at the version of the reflector. It asks for watches from that version on, and
what it took over from watches since the last listing are the changes of the server up to that
version, none left out and none taken twice. -/
theorem mirrors_server {resync : Duration} {observers : List String}
    (h : Run srv { reflector := { resync, store := { observers } } } m) (hl : m.listed = some n₀) :
    ∃ n, m.reflector.version = toString n ∧
      (∀ k, m.reflector.store.getByKey? k = srv.state n k) ∧
      (∀ v, m.reflector.request? = some (.watch v) → v = toString n) ∧
      n₀ ≤ n ∧ m.applied = srv.between n₀ n := by
  have hearly : Early { reflector := { resync, store := { observers } } : Mirror α } :=
    ⟨rfl, fun _ => rfl, rfl⟩
  rcases h.sound (.inl hearly) with he | ⟨n₁, n, hf⟩
  · rw [he.listed] at hl
    cases hl
  · rw [hf.listed] at hl
    cases hl
    refine ⟨n, hf.version, hf.content, fun v hv => ?_, hf.le, hf.applied⟩
    exact (Reflector.of_request_watch hv).2.symm.trans hf.version

/-- A reflector that lists nothing and then hears of a warm image. -/
theorem mirrors_server_added :
    ∃ (srv : Server WarmImage) (m : Mirror WarmImage),
      Run srv { reflector := { resync := .ofSeconds 60, store := { observers := [] } } } m ∧
      m.listed = some 0 ∧ m.reflector.version = "1" ∧
      ∃ n, m.reflector.version = toString n ∧
        (∀ k, m.reflector.store.getByKey? k = srv.state n k) ∧
        (∀ v, m.reflector.request? = some (.watch v) → v = toString n) ∧
        0 ≤ n ∧ m.applied = srv.between 0 n := by
  let wi : WarmImage :=
    { metadata := { name := some "a", ns := some "ns", resourceVersion := some "1" }, image := "" }
  let srv : Server WarmImage :=
    { changes := [(1, .written wi)]
      increasing := by simp
      stamped := by
        simp only [List.forall_mem_singleton]
        rfl }
  have hnone : ∀ a, a ∈ ([] : List WarmImage) ↔ srv.state 0 (keyOf a) = some a := fun a => by
    simp [srv, Server.state, Server.upTo]
  have hempty : ∀ v : Nat, "" = toString v → v ≤ 0 := fun v hv =>
    absurd (congrArg String.toList hv) (by simp)
  have hlist : srv.Lists 0 [] := ⟨.nil, hnone⟩
  have h₀ : Run srv { reflector := { resync := .ofSeconds 60, store := { observers := [] } } } _ :=
    .start
  have h₁ := h₀.next (.list (t := ⟨0⟩) rfl hlist hempty)
  have h₂ := h₁.next (.watch (t := ⟨1⟩) (n := 0) rfl)
  have h₃ := h₂.next (.change (t := ⟨2⟩) (e := (1, .written wi)) (c := .added wi)
    ⟨_, _, rfl⟩ ⟨.head _, by decide, by simp [srv]⟩ rfl)
  exact ⟨srv, _, h₃, rfl, rfl, mirrors_server h₃ rfl⟩

end

end Mirror

end Prewarm
