import Mathlib.Data.List.Basic
import Prewarm.Proofs.WorkQueue.Run

/-!
# Keys come off a queue as they came on it

A key comes on a queue at its end when it is added, or becomes due, and no worker has it, and when
it is done and was added meanwhile (`Deed.puts`). It comes off at the front when it is handed out,
and nothing else takes keys off a queue or moves them (`Step.queue_eq`).
-/

namespace Prewarm.WorkQueue

section
variable {L : Type} {q q' : WorkQueue L} {now : Instant} {e : Deed} {k x : Key} {ks : List Key}

/-- The keys that come on the queue when a key is added. -/
def putByAdd (q : WorkQueue L) (k : Key) : List Key :=
  if q.shuttingDown ∨ k ∈ q.dirty ∨ k ∈ q.processing then [] else [k]

/-- The keys that come on the queue by a deed, in their order. -/
def Deed.puts [Limiter L] (now : Instant) (q : WorkQueue L) : Deed → List Key
  | add k => q.putByAdd k
  | addAfter k d => if d = .zero then q.putByAdd k else []
  | addRateLimited k =>
    if (Limiter.delay k now q.limiter).1 = some .zero then q.putByAdd k else []
  | done k => if k ∈ q.dirty then [k] else []
  | fire => if .ready ∈ q.timers then (q.due now).flatMap q.putByAdd else []
  | _ => []

/-- The key that a deed hands out. -/
def Deed.handed? : Deed → Option Key
  | handOut _ k => some k
  | _ => none

/-- The keys that are handed out by the history of a queue, in their order. -/
def handed (τ : History) : List Key := τ.filterMap fun e => e.2.handed?

/-- The key that a deed hands out comes after those that were handed out before. -/
@[simp] theorem handed_concat (τ : History) (now : Instant) (e : Deed) :
    handed (τ ++ [(now, e)]) = handed τ ++ e.handed?.toList := by
  unfold handed
  rw [List.filterMap_append]
  cases e <;> rfl

/-! ## Additions -/

/-- A key that is added comes to the end of the queue, if it comes on it at all. -/
theorem add_queue (q : WorkQueue L) (k : Key) : (q.add k).queue = q.queue ++ q.putByAdd k := by
  unfold putByAdd
  rcases add_cases q k with ⟨h, he⟩ | ⟨hs, hd, hp, he⟩ | ⟨hs, hd, hp, he⟩ <;> rw [he]
  · rw [if_pos (h.imp_right .inl), List.append_nil]
  · rw [if_pos (.inr (.inr hp)), List.append_nil]
  · rw [if_neg (by simp [hs, hd, hp])]

/-- What a key puts on the queue does not depend on other keys that are added. -/
theorem putByAdd_add (hne : x ≠ k) : (q.add k).putByAdd x = q.putByAdd x := by
  have hdirty : x ∈ (q.add k).dirty ↔ x ∈ q.dirty := by
    rcases add_cases q k with ⟨-, he⟩ | ⟨-, -, -, he⟩ | ⟨-, -, -, he⟩ <;> rw [he] <;>
      simp [hne]
  have hadds := adds_add q k
  simp only [putByAdd, hdirty, hadds.shuttingDown, hadds.processing]

/-- Keys that are added one after the other come on the queue in that order. -/
theorem foldl_add_queue (h : ks.Nodup) :
    (ks.foldl WorkQueue.add q).queue = q.queue ++ ks.flatMap q.putByAdd := by
  induction ks generalizing q with
  | nil => exact (List.append_nil _).symm
  | cons k ks ih =>
    obtain ⟨hk, hks⟩ := List.nodup_cons.1 h
    have hrest : ks.flatMap (q.add k).putByAdd = ks.flatMap q.putByAdd :=
      List.flatMap_congr fun x hx => putByAdd_add fun hxk => hk (hxk ▸ hx)
    rw [List.foldl_cons, ih hks, hrest, add_queue, List.flatMap_cons, List.append_assoc]

/-- No key is due twice. -/
theorem nodup_due (q : WorkQueue L) (now : Instant) : (q.due now).Nodup := by
  have hsub := List.filter_sublist (p := fun e : Key × Instant => e.2.reached now)
    (l := q.waiting.entries)
  have hperm := List.mergeSort_perm (q.waiting.entries.filter fun e => e.2.reached now)
    (fun a b => decide (a.2.nanos ≤ b.2.nanos))
  exact ((hperm.map Prod.fst).nodup_iff).2 (q.waiting.nodup.sublist (hsub.map _))

/-- A key that is added after a delay comes on the queue at once only if the delay is no time at
all. -/
theorem addAfter_queue (q : WorkQueue L) (k : Key) (now : Instant) (d : Duration) :
    (q.addAfter k now d).2.queue = q.queue ++ if d = .zero then q.putByAdd k else [] := by
  rcases addAfter_cases q k now d with ⟨hd, he⟩ | ⟨hd, -, he⟩ | ⟨hd, t, -, he⟩ <;> rw [he]
  · rw [if_pos hd, add_queue]
  · rw [if_neg hd, List.append_nil]
  · rw [if_neg hd, List.append_nil]
    rcases addAt_cases q k t with ⟨-, he⟩ | ⟨-, -, w, ts, b, -, he⟩ <;> rw [he]

/-- A dirty key that is done comes to the end of the queue. -/
theorem done_queue (q : WorkQueue L) (k : Key) :
    (q.done k).queue = q.queue ++ if k ∈ q.dirty then [k] else [] := by
  rcases done_cases q k with ⟨hk, he⟩ | ⟨hk, he⟩ <;> rw [he]
  · rw [if_neg hk, List.append_nil]
  · rw [if_pos hk]

/-- A key that is added after the delay of the limiter comes on the queue at once only if that is no
time at all. -/
theorem addRateLimited_queue [Limiter L] (q : WorkQueue L) (k : Key) (now : Instant) :
    (q.addRateLimited k now).2.queue = q.queue ++
      if (Limiter.delay k now q.limiter).1 = some .zero then q.putByAdd k else [] := by
  rcases addRateLimited_cases q k now with ⟨l, hl, he⟩ | ⟨d, l, hl, he⟩ <;> rw [he, hl]
  · exact (List.append_nil _).symm
  · rw [addAfter_queue]
    simp only [Option.some.injEq]
    rfl

/-- The keys that are due come to the end of the queue in the order of their instants when the timer
runs. -/
theorem runTimer_queue (q : WorkQueue L) (now : Instant) : (q.runTimer now).queue =
    q.queue ++ if .ready ∈ q.timers then (q.due now).flatMap q.putByAdd else [] := by
  have hadd : ∀ p : WorkQueue L, p.queue = q.queue → p.putByAdd = q.putByAdd →
      ((q.due now).foldl WorkQueue.add p).queue =
        q.queue ++ (q.due now).flatMap q.putByAdd := fun p hq hput => by
    rw [foldl_add_queue (nodup_due q now), hq, hput]
  unfold runTimer
  split
  · dsimp only
    split
    · next hs =>
      have hnone : (q.due now).flatMap q.putByAdd = [] :=
        List.flatMap_eq_nil_iff.2 fun _ _ => if_pos (.inl hs)
      rw [hnone, List.append_nil]
    · split
      · exact hadd _ rfl rfl
      · exact hadd _ rfl rfl
  · exact (List.append_nil _).symm

variable [Limiter L]

/-- What stands on a queue and what comes on it is handed out from the front. -/
theorem Step.queue_eq (hs : Step now q e q') :
    q.queue ++ e.puts now q = e.handed?.toList ++ q'.queue := by
  cases hs with
  | add k => exact (add_queue q k).symm
  | addAfter k d => exact (addAfter_queue q k now d).symm
  | addRateLimited k => exact (addRateLimited_queue q k now).symm
  | @handOut g k q' ha =>
    rcases ask_cases q g with ⟨-, h⟩ | ⟨-, -, h⟩ | ⟨-, x, ks, hq, h⟩ <;> rw [h] at ha <;> cases ha
    exact (List.append_nil _).trans hq
  | @turnAway g a q' ha hno =>
    rcases ask_cases q g with ⟨-, h⟩ | ⟨-, -, h⟩ | ⟨-, x, ks, -, h⟩ <;> rw [h] at ha <;> cases ha
    · exact List.append_nil _
    · exact List.append_nil _
    · exact absurd rfl (hno x)
  | done k => exact (done_queue q k).symm
  | fire => exact (runTimer_queue q now).symm
  | shutDown => exact (List.append_nil _).trans (shutDown_queue q).symm
  | leave | forget | tick => exact List.append_nil _

end

end Prewarm.WorkQueue
