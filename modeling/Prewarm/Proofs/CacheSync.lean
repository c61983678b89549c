import Prewarm.Controller

/-!
# How a wait for stores ends

A wait looks at the stores when it begins, and then whenever its ticker fires, until its time is up
or it is cancelled. `Step` is what can happen to one: of the things that are due at an instant any
may come first, and time passes no further than to the next of them. A look that finds a flag unset
leaves the interval after it to see that the flag is set (`Unseen`), so the next look is never later
than that (`Sound`), and every course of a wait comes to an end (`inevitably_ended`). Together,
`wait_sound_prompt` says when a wait ends, and how; the course that `follow` takes is one of those
that it can take (`Run.wait`). A wait whose end the clock cannot show does not begin at all
(`unshown_end_not_begun`).
-/

namespace Prewarm

/-- The instant at which a timer fires. -/
def Instant.fired (t : Instant) : Instant := .ofMillis t.ceilMillis

namespace CacheSync

/-- What happens around a wait: when the flag of each store is set, for good, and when the wait is
cancelled, if ever. -/
structure Surround (κ : Type) where
  stores : List κ
  set? : κ → Option Instant
  cancel? : Option Instant

/-- Where a wait stands at an instant. -/
inductive Stand where
  | waiting (now : Instant) (w : CacheSync)
  | ended (now : Instant) (synced : Bool)

/-- Where a wait stands after an instant has come to a verdict. -/
def Verdict.stand (now : Instant) : Verdict → Stand
  | .synced => .ended now true
  | .late => .ended now false
  | .waiting w => .waiting now w

section
variable {κ : Type} {e : Surround κ} {now t start : Instant} {timeout : Duration} {w : CacheSync}
  {read : κ → Bool} {x x' x'' : Stand} {P Q : Stand → Prop}

/-- Whether flags can be read so at an instant. At the instant at which a flag is set it can be read
either way. -/
structure Reads (e : Surround κ) (now : Instant) (read : κ → Bool) : Prop where
  set : ∀ k, read k = true → ∃ t, e.set? k = some t ∧ t.nanos ≤ now.nanos
  unset : ∀ k t, read k = false → e.set? k = some t → now.nanos ≤ t.nanos

/-- Something that can happen to a wait: time passes as long as no timer fires and it is not
cancelled, and what is due at an instant happens at it, in any order. -/
inductive Step (e : Surround κ) : Stand → Stand → Prop
  | pass {now now' : Instant} {w : CacheSync} :
      now.nanos < now'.nanos → now'.nanos ≤ (Instant.ofMillis w.alarm).nanos →
      (∀ c, e.cancel? = some c → now'.nanos ≤ c.nanos) →
      Step e (.waiting now w) (.waiting now' w)
  | look {now : Instant} {w : CacheSync} {read : κ → Bool} :
      w.next.fired.nanos ≤ now.nanos → Reads e now read →
      Step e (.waiting now w) ((w.look now (e.stores.all read)).stand now)
  | expire {now : Instant} {w : CacheSync} :
      w.deadline.fired.nanos ≤ now.nanos →
      Step e (.waiting now w) (.ended now false)
  | cancel {now c : Instant} {w : CacheSync} :
      e.cancel? = some c → c.nanos ≤ now.nanos → Step e (.waiting now w) (.ended now false)

/-- A course of a wait, with where it leads to. -/
inductive Run (e : Surround κ) (x₀ : Stand) : Stand → Prop
  | start : Run e x₀ x₀
  | next {x x' : Stand} : Run e x₀ x → Step e x x' → Run e x₀ x'

/-- Whether a wait that begins can stand so: it looks at the flags at once. -/
inductive Begins (e : Surround κ) (start : Instant) (timeout : Duration) : Stand → Prop
  | mk {w : CacheSync} {read : κ → Bool} :
      begin? start timeout = some w → Reads e start read →
      Begins e start timeout (if e.stores.all read then .ended start true else .waiting start w)

/-- Whether every course of a wait comes to stand in a way, whatever happens. -/
inductive Inevitably (e : Surround κ) (P : Stand → Prop) : Stand → Prop
  | done {x : Stand} : P x → Inevitably e P x
  | later {x : Stand} :
      (∃ x', Step e x x') → (∀ x', Step e x x' → Inevitably e P x') → Inevitably e P x

/-- A step of a wait and a course from there on make one course. -/
theorem Step.run (h : Step e x x') (hr : Run e x' x'') : Run e x x'' := by
  induction hr with
  | start => exact .next .start h
  | next _ hs ih => exact ih.next hs

/-- What is inevitable is found at the end of a course, if the course makes it so. -/
theorem Inevitably.imp (h : Inevitably e P x) (hPQ : ∀ x', Run e x x' → P x' → Q x') :
    Inevitably e Q x := by
  induction h with
  | done hP => exact .done (hPQ _ .start hP)
  | later hstep _ ih =>
    exact .later hstep fun x' hs => ih x' hs fun x'' hr => hPQ x'' (hs.run hr)

/-! ## Looks -/

/-- A wait that begins looks at once, and its time is up when its timeout has passed. -/
theorem begin?_eq_some (h : begin? start timeout = some w) :
    w = ⟨start, ⟨start.nanos + timeout.nanos⟩⟩ := by
  obtain ⟨deadline, hadd, rfl⟩ := Option.map_eq_some_iff.1 h
  unfold Instant.add? at hadd
  split at hadd
  · cases hadd
    rfl
  · cases hadd

/-- What a look that is due comes to: the flags come first, then the time, and otherwise the next
look is one interval later. -/
theorem look_of_reached (h : w.next.reached now = true) (synced : Bool) : w.look now synced =
    if synced then .synced
    else if w.deadline.reached now then .late
    else .waiting { w with next := ⟨w.next.nanos + interval.nanos⟩ } := by
  simp [look, h]

/-- A timer that has fired was set to an instant that is reached. -/
theorem reached_of_fired (h : t.fired.nanos ≤ now.nanos) :
    t.reached now = true :=
  decide_eq_true (Nat.le_trans t.le_ceilMillis h)

/-- The ticker fires a whole interval after it has fired. -/
theorem fired_next (t : Instant) :
    (Instant.fired ⟨t.nanos + interval.nanos⟩).nanos = t.fired.nanos + interval.nanos := by
  simp only [Instant.fired, Instant.ofMillis, Instant.ceilMillis, interval, Duration.ofMillis]
  omega

/-- A wait goes on when the first of its timers fires. -/
theorem alarm_nanos (w : CacheSync) :
    (Instant.ofMillis w.alarm).nanos = min w.next.fired.nanos w.deadline.fired.nanos := by
  simp only [alarm, Instant.fired, Instant.ofMillis]
  omega

/-- A flag can be read as set from the instant on at which it is set. -/
def Surround.shown (e : Surround κ) (now : Instant) (k : κ) : Bool :=
  (e.set? k).any (·.reached now)

/-- At each instant the flags can be read as those that are set by then. -/
theorem reads_shown (e : Surround κ) (now : Instant) : Reads e now (e.shown now) := by
  refine ⟨fun k h => ?_, fun k t h ht => ?_⟩
  · cases hset : e.set? k with
    | none => simp [Surround.shown, hset] at h
    | some t => exact ⟨t, rfl, by simpa [Surround.shown, hset, Instant.reached] using h⟩
  · have hlt : now.nanos < t.nanos := by simpa [Surround.shown, ht, Instant.reached] using h
    exact Nat.le_of_lt hlt

/-! ## What holds in every course -/

/-- Whether the flag of some store is not set earlier than the interval before an instant. -/
def Unseen (e : Surround κ) (now : Instant) : Prop :=
  ∃ k ∈ e.stores, ∀ t, e.set? k = some t → now.nanos ≤ t.nanos + interval.nanos

/-- A flag that is not set at an instant was not set earlier either. -/
theorem Unseen.mono (h : Unseen e now) (ht : t.nanos ≤ now.nanos) : Unseen e t := by
  obtain ⟨k, hk, hset⟩ := h
  exact ⟨k, hk, fun u hu => Nat.le_trans ht (hset u hu)⟩

/-- A look that finds some flag unset leaves the interval after it to see that the flag is set. -/
theorem Reads.unseen (h : Reads e now read) (hread : e.stores.all read = false)
    (ht : t.nanos ≤ now.nanos + interval.nanos) : Unseen e t := by
  obtain ⟨k, hk, hno⟩ := List.all_eq_false.1 hread
  refine ⟨k, hk, fun u hu => ?_⟩
  have hlate := h.unset k u (Bool.eq_false_iff.2 hno) hu
  omega

/-- If all flags are read as set, all of them are. -/
theorem Reads.set_of_all (h : Reads e now read) (hread : e.stores.all read = true) :
    ∀ k ∈ e.stores, ∃ t, e.set? k = some t ∧ t.nanos ≤ now.nanos :=
  fun k hk => h.set k (List.all_eq_true.1 hread k hk)

/-- How a wait stands that began at `start` and whose time is up at `deadline`: its next look is not
missed and not later than the interval after some flag is set; and it ends with all flags set, or
because of its time or the cancellation, and not later than that look. -/
inductive Sound (e : Surround κ) (start deadline : Instant) : Stand → Prop
  | waiting {now : Instant} {w : CacheSync} :
      w.deadline = deadline → now.nanos ≤ w.next.fired.nanos →
      Unseen e w.next.fired → Sound e start deadline (.waiting now w)
  | synced {now : Instant} :
      (∀ k ∈ e.stores, ∃ t, e.set? k = some t ∧ t.nanos ≤ now.nanos) →
      now = start ∨ Unseen e now → Sound e start deadline (.ended now true)
  | unsynced {now : Instant} :
      (∃ c, e.cancel? = some c ∧ c.nanos ≤ now.nanos) ∨ deadline.nanos ≤ now.nanos →
      Unseen e now → Sound e start deadline (.ended now false)

/-- A wait that stands as it should does so after anything that happens to it. -/
theorem Step.sound {deadline : Instant} (hs : Step e x x') (hx : Sound e start deadline x) :
    Sound e start deadline x' := by
  cases hs with
  | pass _ halarm _ =>
    cases hx with
    | waiting hdeadline _ hunseen =>
      rw [alarm_nanos] at halarm
      exact .waiting hdeadline (by omega) hunseen
  | @look now w read hfired hread =>
    cases hx with
    | waiting hdeadline hnow hunseen =>
      rw [look_of_reached (reached_of_fired hfired)]
      cases hall : e.stores.all read with
      | true => exact .synced (hread.set_of_all hall) (.inr (hunseen.mono hnow))
      | false =>
        simp only [Bool.false_eq_true, if_false]
        split
        · next hlate =>
          refine .unsynced (.inr ?_) (hunseen.mono hnow)
          rw [← hdeadline]
          exact of_decide_eq_true hlate
        · have hnext := fired_next w.next
          exact .waiting hdeadline (by simp only; omega) (hread.unseen hall (by simp only; omega))
  | @expire now w hfired =>
    cases hx with
    | waiting hdeadline hnow hunseen =>
      refine .unsynced (.inr ?_) (hunseen.mono hnow)
      rw [← hdeadline]
      exact Nat.le_trans w.deadline.le_ceilMillis hfired
  | cancel hc hnow =>
    cases hx with
    | waiting _ hle hunseen => exact .unsynced (.inl ⟨_, hc, hnow⟩) (hunseen.mono hle)

/-- A wait that stands as it should does so ever after. -/
theorem Run.sound {deadline : Instant} (hr : Run e x x') (hx : Sound e start deadline x) :
    Sound e start deadline x' := by
  induction hr with
  | start => exact hx
  | next _ hs ih => exact hs.sound ih

/-- A wait that begins stands as it should. -/
theorem Begins.sound (hb : Begins e start timeout x) :
    Sound e start ⟨start.nanos + timeout.nanos⟩ x := by
  obtain ⟨hw, hread⟩ := hb
  obtain rfl := begin?_eq_some hw
  split
  · next hall => exact .synced (hread.set_of_all hall) (.inl rfl)
  · next hall =>
    refine .waiting rfl start.le_ceilMillis (hread.unseen (Bool.eq_false_iff.2 hall) ?_)
    simp only [Instant.fired, Instant.ofMillis, Instant.ceilMillis, interval, Duration.ofMillis]
    omega

/-! ## Every course ends -/

/-- A wait that has not ended goes on. -/
theorem exists_step (e : Surround κ) (now : Instant) (w : CacheSync) :
    ∃ x, Step e (.waiting now w) x := by
  by_cases hnext : w.next.fired.nanos ≤ now.nanos
  · exact ⟨_, .look hnext (reads_shown e now)⟩
  by_cases hdeadline : w.deadline.fired.nanos ≤ now.nanos
  · exact ⟨_, .expire hdeadline⟩
  by_cases hcancel : ∃ c, e.cancel? = some c ∧ c.nanos ≤ now.nanos
  · obtain ⟨c, hc, hnow⟩ := hcancel
    exact ⟨_, .cancel hc hnow⟩
  · refine ⟨.waiting ⟨now.nanos + 1⟩ w, .pass (by simp) ?_ fun c hc => ?_⟩
    · rw [alarm_nanos]
      simp only
      omega
    · have hnow : ¬ c.nanos ≤ now.nanos := fun hle => hcancel ⟨c, hc, hle⟩
      simp only
      omega

/-- What is left to a wait until its time is up, of its own time and of that of its ticker. -/
def left (now : Instant) (w : CacheSync) : Nat :=
  (w.deadline.fired.nanos - now.nanos) +
    (w.deadline.fired.nanos + interval.nanos - w.next.nanos)

/-- Each step of a wait that goes on leaves it less. -/
theorem Step.left_lt {now' : Instant} {w' : CacheSync}
    (h : Step e (.waiting now w) (.waiting now' w')) : left now' w' < left now w := by
  generalize hx' : Stand.waiting now' w' = x' at h
  cases h with
  | pass hlt halarm _ =>
    cases hx'
    rw [alarm_nanos] at halarm
    unfold left
    omega
  | @look _ _ read hfired _ =>
    rw [look_of_reached (reached_of_fired hfired)] at hx'
    split at hx'
    · cases hx'
    · split at hx'
      · cases hx'
      · next hin =>
        cases hx'
        -- The ticker fires later next time, and had fired before the time was up.
        have hnext : w.next.nanos ≤ w.next.fired.nanos := w.next.le_ceilMillis
        have hdeadline : w.deadline.nanos ≤ w.deadline.fired.nanos := w.deadline.le_ceilMillis
        have hnow : now.nanos < w.deadline.nanos := by simpa [Instant.reached] using hin
        have hinterval : 0 < interval.nanos := by decide
        simp only [left]
        omega
  | expire | cancel => cases hx'

/-- Every course of a wait ends. -/
theorem inevitably_ended (e : Surround κ) (x : Stand) :
    Inevitably e (fun x => ∃ t b, x = .ended t b) x := by
  cases x with
  | ended t b => exact .done ⟨t, b, rfl⟩
  | waiting now w =>
    induction hleft : left now w using Nat.strongRecOn generalizing now w with
    | ind n ih =>
      refine .later (exists_step e now w) fun x' hs => ?_
      cases x' with
      | ended t b => exact .done ⟨t, b, rfl⟩
      | waiting now' w' => exact ih _ (hleft ▸ hs.left_lt) now' w' rfl

/-! ## The course that is followed -/

/-- Two courses of a wait, one after the other, make one. -/
theorem Run.trans (h : Run e x x') (h' : Run e x' x'') : Run e x x'' := by
  induction h' with
  | start => exact h
  | next _ hs ih => exact ih.next hs

/-- Whether all stores are seen to be synced in a millisecond. -/
def Surround.synced (e : Surround κ) (m : Nat) : Bool := e.stores.all (e.shown (.ofMillis m))

/-- An instant at a whole millisecond is in that millisecond. -/
@[simp] theorem ceilMillis_ofMillis (m : Nat) : (Instant.ofMillis m).ceilMillis = m := by
  simp only [Instant.ofMillis, Instant.ceilMillis]
  omega

/-- Of two instants at whole milliseconds one is reached at the other if it is not later. -/
@[simp] theorem reached_ofMillis (m m' : Nat) :
    (Instant.ofMillis m).reached (.ofMillis m') = decide (m ≤ m') := by
  simp only [Instant.reached, Instant.ofMillis]
  congr 1
  rw [eq_iff_iff]
  omega

/-- What a look at a whole millisecond comes to, for a wait whose next look it is. -/
theorem look_ofMillis (m deadline : Nat) (synced : Bool) :
    look ⟨.ofMillis m, .ofMillis deadline⟩ (.ofMillis m) synced =
      if synced then .synced
      else if deadline ≤ m then .late
      else .waiting ⟨.ofMillis (m + 100), .ofMillis deadline⟩ := by
  have hnext : (⟨(Instant.ofMillis m).nanos + interval.nanos⟩ : Instant) = .ofMillis (m + 100) := by
    simp only [Instant.ofMillis, interval, Duration.ofMillis, Instant.mk.injEq]
    omega
  rw [look_of_reached (by simp)]
  simp only [reached_ofMillis, decide_eq_true_eq, hnext]

/-- The timer of a wait fires at its next look or when its time is up, whichever comes first. -/
@[simp] theorem alarm_ofMillis (next deadline : Nat) :
    alarm ⟨.ofMillis next, .ofMillis deadline⟩ = min next deadline := by
  simp only [alarm, ceilMillis_ofMillis]

/-- How a wait is followed through one look and to the next alarm, or to its cancellation if that is
not later. -/
theorem follow_succ (synced : Nat → Bool) (cancel : Option Nat) (n m : Nat) (w : CacheSync) :
    CacheSync.follow synced cancel (n + 1) m w =
      match w.look (.ofMillis m) (synced m) with
      | .synced => ⟨true, m⟩
      | .late => ⟨false, m⟩
      | .waiting w =>
        match cancel with
        | none => CacheSync.follow synced cancel n w.alarm w
        | some c =>
          if c ≤ w.alarm then ⟨false, c⟩ else CacheSync.follow synced cancel n w.alarm w :=
  rfl

/-- Time passes in a wait up to its next timer and the cancellation. -/
theorem Run.pass {cancel : Option Nat} (hcancel : e.cancel? = cancel.map .ofMillis)
    {m m' next deadline : Nat} (hle : m ≤ m') (halarm : m' ≤ min next deadline)
    (hc : ∀ c, cancel = some c → m' ≤ c) :
    Run e (.waiting (.ofMillis m) ⟨.ofMillis next, .ofMillis deadline⟩)
      (.waiting (.ofMillis m') ⟨.ofMillis next, .ofMillis deadline⟩) := by
  rcases Nat.eq_or_lt_of_le hle with rfl | hlt
  · exact .start
  · refine .next .start (.pass ?_ ?_ fun c hset => ?_)
    · simp only [Instant.ofMillis]
      omega
    · rw [alarm_ofMillis]
      simp only [Instant.ofMillis]
      omega
    · rw [hcancel] at hset
      obtain ⟨c, hsome, rfl⟩ := Option.map_eq_some_iff.1 hset
      have hle := hc c hsome
      simp only [Instant.ofMillis]
      omega

/-- What is followed is a course of the wait: at the instant of the cancellation the wait is
cancelled before it looks, and otherwise looks before its time is up. -/
theorem Run.follow {cancel : Option Nat} (hcancel : e.cancel? = cancel.map .ofMillis)
    {next deadline : Nat} (n : Nat) {m : Nat} (hm : m = min next deadline)
    (hle : ∀ c, cancel = some c → m ≤ c) (hn : deadline + 100 ≤ 100 * n + m) {o : Outcome}
    (ho : CacheSync.follow e.synced cancel n m ⟨.ofMillis next, .ofMillis deadline⟩ = o) :
    Run e (.waiting (.ofMillis m) ⟨.ofMillis next, .ofMillis deadline⟩)
      (.ended (.ofMillis o.millis) o.synced) := by
  induction n generalizing m next with
  | zero => omega
  | succ n ih =>
    rw [follow_succ] at ho
    -- the alarm is the next look, or the time is up before it
    by_cases hnext : next ≤ m
    · obtain rfl : m = next := by omega
      have hfired : (Instant.ofMillis m).fired.nanos ≤ (Instant.ofMillis m).nanos := by
        simp [Instant.fired]
      have hlook : Step e (.waiting (.ofMillis m) ⟨.ofMillis m, .ofMillis deadline⟩)
          ((look _ _ (e.synced m)).stand (.ofMillis m)) :=
        .look hfired (reads_shown e (.ofMillis m))
      rw [look_ofMillis] at ho hlook
      split at ho
      · next hverdict =>
        rw [hverdict] at hlook
        subst ho
        exact .next .start hlook
      · next hverdict =>
        rw [hverdict] at hlook
        subst ho
        exact .next .start hlook
      · next w hverdict =>
        obtain ⟨hin, rfl⟩ : m < deadline ∧ w = ⟨.ofMillis (m + 100), .ofMillis deadline⟩ := by
          split at hverdict
          · cases hverdict
          · split at hverdict
            · cases hverdict
            · cases hverdict
              exact ⟨by omega, rfl⟩
        rw [hverdict] at hlook
        refine hlook.run ?_
        rw [alarm_ofMillis] at ho
        -- the wait goes on to its next alarm, unless it is cancelled by then
        split at ho
        · exact (Run.pass hcancel (by omega) (Nat.le_refl _) nofun).trans
            (ih rfl nofun (by omega) ho)
        · next c =>
          have hmc := hle c rfl
          split at ho
          · next hc =>
            subst ho
            refine .next (.pass hcancel hmc hc fun c' hc' => ?_) (.cancel hcancel (Nat.le_refl _))
            exact Nat.le_of_eq (Option.some.inj hc')
          · next hc =>
            have hlater : ∀ c', some c = some c' → min (m + 100) deadline ≤ c' := by
              rintro _ ⟨⟩
              omega
            exact (Run.pass hcancel (by omega) (Nat.le_refl _) hlater).trans
              (ih rfl hlater (by omega) ho)
    · obtain rfl : m = deadline := by omega
      have hlook : look ⟨.ofMillis next, .ofMillis m⟩ (.ofMillis m) (e.synced m) = .late := by
        simp [look, hnext]
      rw [hlook] at ho
      subst ho
      refine .next .start (.expire ?_)
      simp [Instant.fired]

/-- How a wait ends by `wait` is how a course of it ends. -/
theorem Run.wait {cancel : Option Nat} (hcancel : e.cancel? = cancel.map .ofMillis) {timeout : Nat}
    (hbegin : begin? .start (.ofMillis timeout) = some w) {o : Outcome}
    (ho : CacheSync.wait e.synced timeout cancel = o) : ∃ x,
      Begins e .start (.ofMillis timeout) x ∧ Run e x (.ended (.ofMillis o.millis) o.synced) := by
  have hstart : Instant.start = .ofMillis 0 := rfl
  have hbegins := Begins.mk hbegin (reads_shown e .start)
  obtain rfl : w = ⟨.ofMillis 0, .ofMillis timeout⟩ := by
    rw [begin?_eq_some hbegin, hstart]
    simp [Instant.ofMillis, Duration.ofMillis]
  rw [hstart] at hbegins
  unfold CacheSync.wait at ho
  rw [hbegin, Option.elim_some] at ho
  generalize hn : timeout / 100 + 2 = n at ho
  split at hbegins
  · next hall =>
    have hsynced : e.synced 0 = true := hall
    cases n with
    | zero => omega
    | succ n =>
      rw [follow_succ, look_ofMillis, if_pos hsynced] at ho
      subst ho
      exact ⟨_, hbegins, .start⟩
  · refine ⟨_, hbegins, .follow hcancel n ?_ (fun _ _ => Nat.zero_le _) (by omega) ho⟩
    exact (Nat.zero_min _).symm

/-! ## When a wait ends, and how -/

/-- A wait whose end the clock can show begins, whenever flags are set and it is cancelled. It ends
with `true` only once all flags are set, and with `false` only once it is cancelled or its time is
up. If all flags are set in its first `s`, and a tenth of a second later it is not cancelled and its
time is not up, every course of it ends with `true` by then. -/
theorem wait_sound_prompt (e : Surround κ) (h : begin? start timeout = some w) :
    (∃ x, Begins e start timeout x) ∧
    ∀ x, Begins e start timeout x →
      (∀ t, Run e x (.ended t true) →
        ∀ k ∈ e.stores, ∃ u, e.set? k = some u ∧ u.nanos ≤ t.nanos) ∧
      (∀ t, Run e x (.ended t false) → (∃ c, e.cancel? = some c ∧ c.nanos ≤ t.nanos) ∨
        start.nanos + timeout.nanos ≤ t.nanos) ∧
      ∀ s : Duration,
        (∀ k ∈ e.stores, ∃ u, e.set? k = some u ∧ u.nanos ≤ start.nanos + s.nanos) →
        (∀ c, e.cancel? = some c →
          start.nanos + s.nanos + (Duration.ofMillis 100).nanos < c.nanos) →
        s.nanos + (Duration.ofMillis 100).nanos < timeout.nanos →
        Inevitably e (fun x => ∃ t, x = .ended t true ∧
          t.nanos ≤ start.nanos + s.nanos + (Duration.ofMillis 100).nanos) x := by
  refine ⟨⟨_, .mk h (reads_shown e start)⟩, fun x hx => ⟨fun t hr => ?_, fun t hr => ?_,
    fun s hset hcancel htimeout => ?_⟩⟩
  · cases hr.sound hx.sound with
    | synced hall _ => exact hall
  · cases hr.sound hx.sound with
    | unsynced hwhy _ => exact hwhy
  · have hprompt : ∀ t, Unseen e t →
        t.nanos ≤ start.nanos + s.nanos + (Duration.ofMillis 100).nanos := by
      rintro t ⟨k, hk, hunseen⟩
      obtain ⟨u, hu, hle⟩ := hset k hk
      have hlate := hunseen u hu
      unfold interval at hlate
      omega
    refine (inevitably_ended e x).imp fun x' hr hended => ?_
    obtain ⟨t, b, rfl⟩ := hended
    cases hr.sound hx.sound with
    | synced _ hwhen =>
      refine ⟨t, rfl, ?_⟩
      rcases hwhen with rfl | hunseen
      · omega
      · exact hprompt t hunseen
    | unsynced hwhy hunseen =>
      have ht := hprompt t hunseen
      rcases hwhy with ⟨c, hc, hct⟩ | hdeadline
      · have hlater := hcancel c hc
        omega
      · simp only at hdeadline
        omega

end

/-- Of two stores the later one is synced a quarter of a second after a wait of a minute begins, and
the wait is cancelled after a second. -/
theorem wait_sound_prompt_two :
    let e : Surround Bool :=
      { stores := [false, true]
        set? := fun later => some (.ofMillis (if later then 250 else 30))
        cancel? := some (.ofMillis 1000) }
    let start : Instant := ⟨500000⟩
    begin? start (.ofSeconds 60) = some ⟨start, ⟨60000500000⟩⟩ ∧
      ∃ x, Begins e start (.ofSeconds 60) x ∧
        (∀ t, Run e x (.ended t true) → (Instant.ofMillis 250).nanos ≤ t.nanos) ∧
        Inevitably e (fun x => ∃ t, x = .ended t true ∧ t.nanos ≤
          start.nanos + (Duration.ofMillis 250).nanos + (Duration.ofMillis 100).nanos) x := by
  intro e start
  have hbegin : begin? start (.ofSeconds 60) = some ⟨start, ⟨60000500000⟩⟩ := by decide
  obtain ⟨⟨x, hx⟩, hall⟩ := wait_sound_prompt e hbegin
  obtain ⟨hset, -, hprompt⟩ := hall x hx
  refine ⟨hbegin, x, hx, fun t hr => ?_, hprompt (.ofMillis 250) ?_ ?_ (by decide)⟩
  · obtain ⟨u, hu, hle⟩ := hset t hr true (by decide)
    obtain rfl : Instant.ofMillis 250 = u := Option.some.inj hu
    exact hle
  · intro later _
    refine ⟨_, rfl, ?_⟩
    cases later <;> decide
  · rintro c ⟨⟩
    decide

/-- A wait does not begin if the clock cannot show its end, so that it does not end either, though
its store is synced from the beginning; and a controller that is to wait so long does not begin to
work. -/
theorem unshown_end_not_begun :
    let e : Surround Unit := { stores := [()], set? := fun _ => some .start, cancel? := none }
    let timeout : Duration := .ofSeconds 18446744073709551615
    let config : Config := ⟨"sleeper", 1, 600, 18446744073709551615, none, 30, 8080⟩
    (∀ k ∈ e.stores, ∃ u, e.set? k = some u ∧ u.nanos ≤ Instant.start.nanos) ∧
      (Duration.ofMillis 100).nanos < timeout.nanos ∧
      ¬ (∃ x, Begins e .start timeout x) ∧
      config.cacheSyncTimeout = timeout ∧
      (Controller.opening config .start ()).stage = .ended .noDeadline := by
  intro e timeout config
  have hnone : begin? .start timeout = none := by decide
  refine ⟨fun k _ => ⟨_, rfl, Nat.le_refl _⟩, by decide, ?_, rfl, ?_⟩
  · rintro ⟨x, hw, -⟩
    cases hnone.symm.trans hw
  · simp only [Controller.opening]
    rw [show begin? .start config.cacheSyncTimeout = none from hnone]
    rfl

end CacheSync

end Prewarm
