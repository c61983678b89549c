import Prewarm.Proofs.Reflector.Mirror

/-!
# How listings follow each other

What paces the listings of a reflector. A listing that fails is tried again after a rest, and after
one that is taken the next is due at the end of the resync period; a watch that ends without a
change is followed by a pause, and then by a watch. So from one listing to any later one there is
the resync period or the first rest, whichever is shorter (`listings_apart`), but for a listing that
is asked for because a watch has failed: nothing paces that one (`exists_listings_at_once`).

A `Run` is any course of things that happen to a reflector, with what it asks for each time. What it
does not wait for has no effect, so runs are not bound to what a server answers.
-/

namespace Prewarm.Reflector

/-- One thing that happens to a reflector, and what the reflector asks for in consequence. -/
structure Turn (α : Type) where
  /-- What happens, none when it begins. -/
  heard : Option (Input α)
  asked : Option Request

/-- The turns of a reflector with their instants, the first one first. -/
abbrev History (α : Type) := List (Instant × Turn α)

section
variable {α : Type}

/-- Whether a watch has failed, when it was opened or later. -/
def Input.isWatchFailure : Input α → Bool
  | .opened (.error _) | .failed _ => true
  | _ => false

/-- The instant at which a phase ends in a new listing, if nothing else happens. -/
def Phase.due? : Phase → Option Instant
  | .resting due | .opening due | .watching due _ | .pausing due _ => some due
  | _ => none

variable [Resource α]

/-- What happens to a reflector when something does, with what it asks for then: a request is made
when its phase begins. -/
def turn (r : Reflector α) (now : Instant) (i : Input α) : Turn α where
  heard := some i
  asked := if (r.step now i).1.phase = r.phase then none else (r.step now i).1.request?

/-- What a reflector with a resync period comes to: its turns, and the instant of the last one. It
begins with a listing. -/
inductive Run (resync : Duration) : History α → Instant → Reflector α → Prop
  | start (t : Instant) (store : Store α) :
      Run resync [(t, ⟨none, some .list⟩)] t { resync, store }
  | next {τ : History α} {now t : Instant} {r : Reflector α} (i : Input α) :
      Run resync τ now r → now.nanos ≤ t.nanos →
      Run resync (τ ++ [(t, r.turn t i)]) t (r.step t i).1

variable {r : Reflector α} {now t t' : Instant} {i : Input α} {resync : Duration} {τ σ : History α}
  {e e' : Turn α}

/-! ## What a step does -/

/-- An instant that is reached leads to a new listing when it is due, and leaves it due as it was
before. -/
theorem afterTick_cases (now : Instant) (p : Phase) :
    (afterTick now p = .listing ∧ ∃ due, p.due? = some due ∧ due.nanos ≤ now.nanos) ∨
      (afterTick now p = .listing ↔ p = .listing) ∧ (afterTick now p).due? = p.due? := by
  cases p with
  | listing | stopped | broken => exact .inr ⟨Iff.rfl, rfl⟩
  | resting due | opening due | watching due heard =>
    simp only [afterTick]
    split
    · next hdue => exact .inl ⟨rfl, due, rfl, of_decide_eq_true hdue⟩
    · exact .inr ⟨Iff.rfl, rfl⟩
  | pausing due wake =>
    simp only [afterTick]
    split
    · next hdue => exact .inl ⟨rfl, due, rfl, of_decide_eq_true hdue⟩
    · split
      · exact .inr ⟨by simp, rfl⟩
      · exact .inr ⟨Iff.rfl, rfl⟩

/-- What a step does to the phase. -/
inductive Moves (r : Reflector α) (now : Instant) (i : Input α) : Phase → Prop
  /-- Nothing changes, or all that matters is that a listing is as far ahead as before. -/
  | stay {p : Phase} : (p = .listing ↔ r.phase = .listing) → p.due? = r.phase.due? →
      Moves r now i p
  /-- A watch has failed. -/
  | fail : i.isWatchFailure = true → Moves r now i .listing
  /-- A listing is due. -/
  | due {due : Instant} : r.phase.due? = some due → due.nanos ≤ now.nanos → Moves r now i .listing
  /-- A listing is taken or fails, which says when the next one is due. -/
  | plan {p : Phase} {due : Instant} : p ≠ .listing → p.due? = some due →
      due = later now r.resync ∨ due = later now r.rest → Moves r now i p
  /-- The reflector ends. -/
  | finish {p : Phase} : p ≠ .listing → p.due? = none → Moves r now i p

theorem moves_step (r : Reflector α) (now : Instant) (i : Input α) :
    Moves r now i (r.step now i).1.phase := by
  have hsame : Moves r now i r.phase := .stay Iff.rfl rfl
  cases i with
  | listed res =>
    unfold step
    dsimp only
    split
    · next as version _ =>
      unfold takeListing Instant.add?
      dsimp only
      -- the reflector breaks off where the clock cannot show the end of the period
      split
      · exact .plan nofun rfl (.inl rfl)
      · exact .finish nofun rfl
    · exact .plan nofun rfl (.inr rfl)
    · exact hsame
  | opened res =>
    unfold step
    dsimp only
    split
    · next deadline hp => exact .stay (by simp [hp]) (by rw [hp]; rfl)
    · exact .fail rfl
    · exact hsame
  | changed c =>
    unfold step
    dsimp only
    split
    · next deadline heard hp => exact .stay (by simp [hp, takeChange]) (by rw [hp]; rfl)
    · exact hsame
  | failed e =>
    unfold step
    dsimp only
    split
    · exact .fail rfl
    · exact hsame
  | ended =>
    unfold step
    dsimp only
    split
    · next deadline heard hp =>
      unfold afterWatch
      split
      · exact .stay (by simp [hp]) (by rw [hp]; rfl)
      · exact .stay (by simp [hp]) (by rw [hp]; rfl)
    · exact hsame
  | tick =>
    rcases afterTick_cases now r.phase with ⟨hlist, due, hdue, hle⟩ | ⟨hlist, hdue⟩
    · have hphase : (r.step now .tick).1.phase = .listing := hlist
      rw [hphase]
      exact .due hdue hle
    · exact .stay hlist hdue
  | stop =>
    unfold step
    dsimp only
    split
    · exact hsame
    · exact .finish nofun rfl

/-- A step leaves the resync period as it is, and no rest is shorter than the first one. -/
structure Steady (resync : Duration) (r : Reflector α) : Prop where
  resync_eq : r.resync = resync
  firstRest_le : firstRest.nanos ≤ r.rest.nanos

theorem firstRest_le_double {d : Duration} (h : firstRest.nanos ≤ d.nanos) :
    firstRest.nanos ≤ (d.double.shorter longestRest).nanos := by
  have hlong : firstRest.nanos ≤ longestRest.nanos := by decide
  unfold Duration.shorter Duration.double
  split
  · dsimp only
    omega
  · exact hlong

theorem Steady.step (h : Steady resync r) (now : Instant) (i : Input α) :
    Steady resync (r.step now i).1 := by
  cases i with
  | listed res =>
    unfold Reflector.step
    dsimp only
    split
    · exact ⟨h.resync_eq, Nat.le_refl _⟩
    · exact ⟨h.resync_eq, firstRest_le_double h.firstRest_le⟩
    · exact h
  | opened | changed | failed | ended | stop =>
    unfold Reflector.step
    dsimp only
    split
    all_goals exact ⟨h.resync_eq, h.firstRest_le⟩
  | tick => exact ⟨h.resync_eq, h.firstRest_le⟩

/-! ## Along a run -/

theorem Run.steady (h : Run resync τ now r) : Steady resync r := by
  induction h with
  | start t store => exact ⟨rfl, Nat.le_refl _⟩
  | next i _ _ ih => exact ih.step _ i

/-- A listing is asked for when the phase of listings begins. -/
theorem phase_of_asked (h : (r.turn now i).asked = some .list) :
    (r.step now i).1.phase = .listing ∧ r.phase ≠ .listing := by
  unfold turn at h
  dsimp only at h
  split at h
  · cases h
  · next hne =>
    have hlist := phase_of_request_list h
    exact ⟨hlist, fun hr => hne (hlist.trans hr.symm)⟩

/-- The last turn of a run is the beginning, or it is that of a step. -/
theorem Run.last (h : Run resync (τ ++ [(t, e)]) now r) :
    now = t ∧ (τ = [] ∧ r.phase = .listing ∨ ∃ now₀ r₀ i, Run resync τ now₀ r₀ ∧
      now₀.nanos ≤ t.nanos ∧ e = r₀.turn t i ∧ r = (r₀.step t i).1) := by
  generalize hρ : τ ++ [(t, e)] = ρ at h
  cases h with
  | start t store =>
    obtain ⟨rfl, he⟩ := List.append_inj' (hρ.trans (List.nil_append _).symm) rfl
    cases he
    exact ⟨rfl, .inl ⟨rfl, rfl⟩⟩
  | next i hrun hle =>
    obtain ⟨rfl, he⟩ := List.append_inj' hρ rfl
    cases he
    exact ⟨rfl, .inr ⟨_, _, i, hrun, hle, rfl, rfl⟩⟩

/-- What holds after a turn of a run and is kept by what happens since holds at the end. -/
theorem Run.since {motive : Instant → Reflector α → Prop} (h : Run resync (τ ++ (t, e) :: σ) now r)
    (hfirst : ∀ {r₁}, Run resync (τ ++ [(t, e)]) t r₁ → motive t r₁)
    (hnext : ∀ {ρ now₁ t₁ r₁} (i : Input α), Run resync ρ now₁ r₁ → now₁.nanos ≤ t₁.nanos →
      motive now₁ r₁ → motive t₁ (r₁.step t₁ i).1) : motive now r := by
  generalize hρ : τ ++ (t, e) :: σ = ρ at h
  induction h generalizing σ with
  | start t₀ store =>
    obtain ⟨rfl, he⟩ | ⟨_, -, hnil⟩ := List.append_eq_cons_iff.1 hρ
    · cases he
      exact hfirst (.start t store)
    · cases (List.append_eq_nil_iff.1 hnil.symm).2
  | @next ρ now₁ t₁ r₁ i hrun hle ih =>
    rcases List.eq_nil_or_concat σ with rfl | ⟨σ, e', rfl⟩
    · obtain ⟨rfl, he⟩ := List.append_inj' hρ rfl
      cases he
      exact hfirst (hrun.next i hle)
    · rw [List.concat_eq_append, ← List.cons_append, ← List.append_assoc] at hρ
      obtain ⟨rfl, -⟩ := List.append_inj' hρ rfl
      exact hnext i hrun hle (ih rfl)

/-- How far ahead the next listing is, after one at an instant, if no watch fails. -/
structure Ahead (resync : Duration) (t now : Instant) (r : Reflector α) : Prop where
  le : t.nanos ≤ now.nanos
  due : ∀ due, r.phase.due? = some due →
    t.nanos + (resync.shorter firstRest).nanos ≤ due.nanos

theorem Ahead.step {t₁ : Instant} (h : Ahead resync t now r) (hr : Steady resync r)
    (hle : now.nanos ≤ t₁.nanos) (i : Input α) : Ahead resync t t₁ (r.step t₁ i).1 := by
  have ht : t.nanos ≤ t₁.nanos := Nat.le_trans h.le hle
  refine ⟨ht, fun due hdue => ?_⟩
  generalize hp : (r.step t₁ i).1.phase = p at hdue
  have hmoves := moves_step r t₁ i
  rw [hp] at hmoves
  cases hmoves with
  | stay _ hsame => exact h.due due (hsame.symm.trans hdue)
  | fail _ => cases hdue
  | due _ _ => cases hdue
  | plan _ hplan hlater =>
    cases hplan.symm.trans hdue
    rcases hlater with rfl | rfl
    · have := resync.shorter_le_left firstRest
      rw [hr.resync_eq, later]
      dsimp only
      omega
    · have := resync.shorter_le_right firstRest
      have := hr.firstRest_le
      rw [later]
      dsimp only
      omega
  | finish _ hnone => cases hnone.symm.trans hdue

/-- From a request for a listing on, the next listing is due after the resync period or the first
rest, or later. -/
theorem Run.ahead (h : Run resync (τ ++ (t, e) :: σ) now r) (he : e.asked = some .list) :
    Ahead resync t now r := by
  refine h.since (motive := Ahead resync t) (fun {r₁} hrun => ?_) fun i hrun hle ih =>
    ih.step hrun.steady hle i
  have hphase : r₁.phase = .listing := by
    obtain ⟨-, ⟨-, hr⟩ | ⟨now₀, r₀, i, -, -, rfl, rfl⟩⟩ := hrun.last
    · exact hr
    · exact (phase_of_asked he).1
  refine ⟨Nat.le_refl _, fun due hdue => ?_⟩
  rw [hphase] at hdue
  cases hdue

/-- A request for a listing comes the resync period or the first rest after any earlier one,
whichever is shorter, or a watch has failed at its instant. -/
theorem listings_apart {τ₁ τ₂ τ₃ : History α} (hresync : 0 < resync.nanos)
    (h : Run resync τ now r) (hτ : τ = τ₁ ++ (t, e) :: τ₂ ++ (t', e') :: τ₃)
    (he : e.asked = some .list) (he' : e'.asked = some .list) :
    (t.nanos < t'.nanos ∧ t.nanos + (resync.shorter firstRest).nanos ≤ t'.nanos) ∨
      ∃ i, e'.heard = some i ∧ i.isWatchFailure = true := by
  subst hτ
  obtain ⟨r', hrun⟩ : ∃ r', Run resync (τ₁ ++ (t, e) :: τ₂ ++ [(t', e')]) t' r' :=
    h.since (motive := fun _ _ => ∃ r', Run resync _ t' r') (fun hrun => ⟨_, hrun⟩)
      fun _ _ _ hrun => hrun
  obtain ⟨-, ⟨hnil, -⟩ | ⟨now₀, r₀, i, hbefore, hle, rfl, -⟩⟩ := hrun.last
  · simp at hnil
  obtain ⟨hphase, hphase₀⟩ := phase_of_asked he'
  have hmoves := moves_step r₀ t' i
  rw [hphase] at hmoves
  cases hmoves with
  | stay hlist _ => exact absurd (hlist.1 rfl) hphase₀
  | fail hfail => exact .inr ⟨i, rfl, hfail⟩
  | @due due hdue hreached =>
    have hgap : t.nanos + (resync.shorter firstRest).nanos ≤ due.nanos :=
      (hbefore.ahead he).due due hdue
    have hpos : 0 < (resync.shorter firstRest).nanos := by
      unfold Duration.shorter
      split
      · exact hresync
      · decide
    exact .inl ⟨by omega, by omega⟩
  | plan hne _ _ => exact absurd rfl hne
  | finish hne _ => exact absurd rfl hne

/-- A listing is taken, no watch fails, and the next listing is asked for at the end of the resync
period. -/
theorem listings_apart_resync :
    let τ : History WarmImage :=
      [(⟨0⟩, ⟨none, some .list⟩), (⟨0⟩, ⟨some (.listed (.ok ([], "1"))), some (.watch "1")⟩),
        (.ofMillis 60_000, ⟨some .tick, some .list⟩)]
    (∃ r, Run (.ofSeconds 60) τ (.ofMillis 60_000) r) ∧
      ((Duration.ofSeconds 60).shorter firstRest).nanos ≤ (Instant.ofMillis 60_000).nanos := by
  intro τ
  have h₀ : Run (.ofSeconds 60) _ _ ({ resync := .ofSeconds 60 } : Reflector WarmImage) :=
    .start ⟨0⟩ {}
  have h₁ := h₀.next (t := ⟨0⟩) (.listed (.ok ([], "1"))) (Nat.le_refl _)
  have h₂ := h₁.next (t := .ofMillis 60_000) .tick (Nat.zero_le _)
  have hτ : τ = [] ++ (⟨0⟩, ⟨none, some .list⟩) ::
      [(⟨0⟩, ⟨some (.listed (.ok ([], "1"))), some (.watch "1")⟩)] ++
      (.ofMillis 60_000, ⟨some .tick, some .list⟩) :: [] := rfl
  refine ⟨⟨_, h₂⟩, ?_⟩
  rcases listings_apart (by decide) h₂ hτ rfl rfl with ⟨-, hgap⟩ | ⟨i, hi, hfail⟩
  · rwa [Nat.zero_add] at hgap
  · cases hi
    cases hfail

/-- A listing is taken, the watch cannot be opened, and the next listing is asked for at the same
instant. No change was heard of. -/
theorem listing_at_once :
    let τ : History WarmImage :=
      [(⟨0⟩, ⟨none, some .list⟩), (⟨0⟩, ⟨some (.listed (.ok ([], "1"))), some (.watch "1")⟩),
        (⟨0⟩, ⟨some (.opened (.error (.refused 500))), some .list⟩)]
    (∃ r, Run (.ofSeconds 3600) τ ⟨0⟩ r) ∧ ∀ d ∈ τ, ∀ c, d.2.heard ≠ some (.changed c) := by
  intro τ
  have h₀ : Run (.ofSeconds 3600) _ _ ({ resync := .ofSeconds 3600 } : Reflector WarmImage) :=
    .start ⟨0⟩ {}
  have h₁ := h₀.next (t := ⟨0⟩) (.listed (.ok ([], "1"))) (Nat.le_refl _)
  have h₂ := h₁.next (t := ⟨0⟩) (.opened (.error (.refused 500))) (Nat.le_refl _)
  exact ⟨⟨_, h₂⟩, by simp [τ]⟩

/-- After a request for a listing there can be any number of others at the same instant, if all
watches fail. -/
theorem exists_listings_at_once (α : Type) [Resource α] {due : Instant} (t : Instant)
    (hdue : t.add? resync = some due) (n : Nat) :
    ∃ (τ : History α) (r : Reflector α), Run resync τ t r ∧ r.phase = .listing ∧
      (∀ d ∈ τ, d.1 = t ∧ ∀ c, d.2.heard ≠ some (.changed c)) ∧
      τ.countP (fun d => d.2.asked == some .list) = n + 1 := by
  induction n with
  | zero =>
    have h₀ : Run resync _ _ ({ resync } : Reflector α) := .start t {}
    exact ⟨_, _, h₀, rfl, by simp, rfl⟩
  | succ n ih =>
    obtain ⟨τ, r, h₀, hphase, hquiet, hcount⟩ := ih
    have hopening : (r.step t (.listed (.ok ([], "")))).1.phase = .opening due := by
      rw [step_listed hphase, takeListing, h₀.steady.resync_eq, hdue]
      rfl
    have h₁ := h₀.next (t := t) (.listed (.ok ([], ""))) (Nat.le_refl _)
    have h₂ := h₁.next (t := t) (.opened (.error .unreadable)) (Nat.le_refl _)
    have hlisting :
        ((r.step t (.listed (.ok ([], "")))).1.step t (.opened (.error .unreadable))).1.phase =
          .listing := by
      generalize (r.step t (.listed (.ok ([], "")))).1 = r₁ at hopening
      unfold Reflector.step
      rw [hopening]
    refine ⟨_, _, h₂, hlisting, ?_, ?_⟩
    · simpa [turn, or_imp, forall_and] using hquiet
    · simp [turn, hcount, hopening, hlisting, hphase, request?]

end

end Prewarm.Reflector
