import Prewarm.Proofs.Reconcile.Effects
import Prewarm.Proofs.Reconcile.Healing

/-!
# Attempts at a key

Work on a key that has failed is attempted again. In an attempt every question is answered after
some time: the expectations say whether a child is expected, the secrets and the registry give the
same replies at every attempt, and anything can fail (`Told`). What is done to the expectations for
other keys in the meantime does not matter.

What the attempts have still to create is known at any moment (`due`): an attempt takes off it what
it creates, however far it comes (`created_append_due`). So any number of attempts that fail and one
that goes well create, delete and tell what one attempt does that goes well at once
(`retries_amount_to_one`).
-/

namespace Prewarm.Reconcile

/-- The reading of the clock, and what is expected. -/
structure Moment where
  now : Instant
  expectations : Expectations

namespace Moment

/-- Whether a child of a version is expected for a key, as work would be told. -/
def expects (s : Moment) (k : Key) (v : String) : Bool := (s.expectations.isPending k v s.now).1

/-- The version of the child that is expected for a key, if one is. -/
def expected? (s : Moment) (k : Key) : Option String :=
  (s.expectations.pending.get? k).map Expected.version

/-- Time passes and nothing is done about the expectation for a key. -/
structure Quiet (k : Key) (s s' : Moment) : Prop where
  now_le : s.now.nanos ≤ s'.now.nanos
  lifetime_eq : s'.expectations.lifetime = s.expectations.lifetime
  pending_eq : s'.expectations.pending.get? k = s.expectations.pending.get? k

/-- The expectation for a key, if it is not over, is not over at the end either. -/
def Lasts (k : Key) (last : Instant) (s : Moment) : Prop :=
  ∀ e, s.expectations.pending.get? k = some e → s.now.nanos < e.deadline.nanos →
    last.nanos < e.deadline.nanos

end Moment

/-- What is said in work on a key, with the moments before and after it. The secrets and the
registry give their replies or fail, and what is expected for the key from then on is so until the
end. -/
inductive Told (R : Replies) (k : Key) (last : Instant) :
    Moment → List Exchange → Moment → Prop
  | silent {s s' : Moment} : s.Quiet k s' → Told R k last s [] s'
  | said {s s₁ s' : Moment} {q : Query} {a : q.Answer} {x : Expectations} {es : List Exchange} :
      s.Quiet k s₁ → Answers s₁.now s₁.expectations q a x → R.Gives ⟨q, a⟩ →
      (∀ v, q = .expect k v → last.nanos < s₁.now.nanos + s₁.expectations.lifetime.nanos) →
      Told R k last ⟨s₁.now, x⟩ es s' → Told R k last s (⟨q, a⟩ :: es) s'

/-- Attempts at work on a key, one after the other, each with what is said in it and what it comes
to. -/
inductive Attempts (c : Context) (R : Replies) (k : Key) (last : Instant) :
    Moment → List (List Exchange × Except Failure Unit) → Moment → Prop
  | stop (s : Moment) : Attempts c R k last s [] s
  | next {s s₁ s' : Moment} {es : List Exchange} {r : Except Failure Unit}
      {l : List (List Exchange × Except Failure Unit)} :
      (dialogue c k).Transcript es r → Told R k last s es s₁ → Attempts c R k last s₁ l s' →
      Attempts c R k last s ((es, r) :: l) s'

/-- All that is said in attempts. -/
def wholeOf (l : List (List Exchange × Except Failure Unit)) : List Exchange := l.flatMap Prod.fst

/-- All that is said in attempts is what is said in the first one and then in the others. -/
@[simp] theorem wholeOf_cons (es : List Exchange) (r : Except Failure Unit)
    (l : List (List Exchange × Except Failure Unit)) :
    wholeOf ((es, r) :: l) = es ++ wholeOf l :=
  List.flatMap_cons

section
variable {c : Context} {R : Replies} {k : Key} {last : Instant} {s s₁ s' : Moment}
  {es es₁ es₂ : List Exchange} {r : Except Failure Unit} {wi : WarmImage} {ns name v : String}
  {g : GroupVersionKind} {l l₁ l₂ : List (List Exchange × Except Failure Unit)}

/-! ## Moments -/

theorem Moment.Quiet.refl (k : Key) (s : Moment) : s.Quiet k s := ⟨Nat.le_refl _, rfl, rfl⟩

/-- A child is expected just until its time is over. -/
theorem Moment.expects_eq_true_iff : s.expects k v = true ↔
    ∃ e, s.expectations.pending.get? k = some e ∧ e.version = v ∧
      s.now.nanos < e.deadline.nanos :=
  Expectations.isPending_eq_true_iff

/-- What is expected for a key stays so for all the time that it lasts. -/
theorem Moment.Lasts.expects_eq (h : s.Lasts k last) (hnow : s.now.nanos ≤ s'.now.nanos)
    (hlast : s'.now.nanos ≤ last.nanos)
    (hpending : s'.expectations.pending.get? k = s.expectations.pending.get? k) :
    s'.expects k v = s.expects k v := by
  rw [Bool.eq_iff_iff, expects_eq_true_iff, expects_eq_true_iff, hpending]
  refine exists_congr fun e => and_congr_right fun he => and_congr_right fun _ => ⟨?_, ?_⟩
  · exact Nat.lt_of_le_of_lt hnow
  · exact fun hlt => Nat.lt_of_le_of_lt hlast (h e he hlt)

/-- An expectation that is not over at the end is not so later on either, if nothing is done about
it. -/
theorem Moment.Lasts.of_pending_eq (h : s.Lasts k last) (hnow : s.now.nanos ≤ s'.now.nanos)
    (hpending : s'.expectations.pending.get? k = s.expectations.pending.get? k) :
    s'.Lasts k last := by
  intro e he hlt
  rw [hpending] at he
  exact h e he (Nat.lt_of_le_of_lt hnow hlt)

/-- Where nothing was taken down, no child is expected. -/
theorem Moment.expects_of_none (h : s.expectations.pending.get? k = none) :
    s.expects k v = false := by
  rw [expects, Expectations.isPending_of_none h]

/-- Where nothing was taken down, nothing can be over too early. -/
theorem Moment.lasts_of_none (h : s.expectations.pending.get? k = none) : s.Lasts k last := by
  intro e he
  rw [h] at he
  cases he

/-- A child that is expected is the one that was taken down. -/
theorem Moment.expected?_of_expects (h : s.expects k v = true) : s.expected? k = some v := by
  obtain ⟨e, he, hv, -⟩ := expects_eq_true_iff.1 h
  rw [expected?, he, Option.map_some, hv]

/-! ## What is said -/

/-- The clock does not go back while work is done. -/
theorem Told.now_le (h : Told R k last s es s') : s.now.nanos ≤ s'.now.nanos := by
  induction h with
  | silent hq => exact hq.now_le
  | said hq _ _ _ _ ih => exact Nat.le_trans hq.now_le ih

/-- All answers in work are those of the secrets and the registry, or failures. -/
theorem Told.gives (h : Told R k last s es s') : ∀ x ∈ es, R.Gives x := by
  induction h with
  | silent => exact List.forall_mem_nil _
  | said _ _ hR _ _ ih => exact List.forall_mem_cons.2 ⟨hR, ih⟩

/-- What is said in work can be cut in two, with a moment between. -/
theorem Told.append (h : Told R k last s (es₁ ++ es₂) s') :
    ∃ s₁, Told R k last s es₁ s₁ ∧ Told R k last s₁ es₂ s' := by
  induction es₁ generalizing s with
  | nil => exact ⟨s, .silent (.refl k s), h⟩
  | cons x es₁ ih =>
    cases h with
    | said hq ha hR hexpect h =>
      obtain ⟨s₁, h₁, h₂⟩ := ih h
      exact ⟨s₁, .said hq ha hR hexpect h₁, h₂⟩

/-- Nothing is done about the expectation for a key when others are asked. -/
theorem Told.pending_eq (h : Told R k last s es s') (hes : ∀ x ∈ es, x.1.isOutside = true) :
    s'.expectations.pending.get? k = s.expectations.pending.get? k := by
  induction h with
  | silent hq => exact hq.pending_eq
  | said hq ha _ _ _ ih =>
    obtain ⟨houtside, hes⟩ := List.forall_mem_cons.1 hes
    rw [ih hes]
    dsimp only
    rw [ha.eq_of_isOutside houtside, hq.pending_eq]

/-- What is expected for the key is what work is told, and afterwards nothing that it does not wait
for. -/
theorem Told.isPending {b : Bool} (h : Told R k last s (⟨.isPending k v, b⟩ :: es) s')
    (hlasts : s.Lasts k last) (hlast : s'.now.nanos ≤ last.nanos) :
    b = s.expects k v ∧ ∃ s₁, Told R k last s₁ es s' ∧ s.now.nanos ≤ s₁.now.nanos ∧
      s₁.expectations.pending.get? k =
        if b then s.expectations.pending.get? k else none := by
  cases h with
  | @said _ s₀ _ _ _ x _ hq ha _ _ h =>
    have hb : (b, x) = s₀.expectations.isPending k v s₀.now := ha
    have hexpects : s₀.expects k v = s.expects k v :=
      hlasts.expects_eq hq.now_le (Nat.le_trans h.now_le hlast) hq.pending_eq
    obtain rfl : b = s₀.expects k v := congrArg Prod.fst hb
    refine ⟨hexpects, ⟨s₀.now, x⟩, h, hq.now_le, ?_⟩
    obtain rfl : x = (s₀.expectations.isPending k v s₀.now).2 := congrArg Prod.snd hb
    rw [← hq.pending_eq]
    exact Expectations.get?_isPending_self _ k v _

/-- Once work has seen a child, or that there is nothing to do, nothing is expected for its key. -/
theorem Told.observed {u : Unit} (h : Told R k last s (⟨.observed k, u⟩ :: es) s') :
    ∃ s₁, Told R k last s₁ es s' ∧ s₁.expectations.pending.get? k = none := by
  cases h with
  | said _ ha _ _ h =>
    refine ⟨_, h, ?_⟩
    rw [show _ = _ from ha]
    exact Table.get?_erase_self ..

/-- A child that work has made is expected, until after the end. -/
theorem Told.expect {u : Unit} (h : Told R k last s (⟨.expect k v, u⟩ :: es) s') :
    ∃ s₁ e, Told R k last s₁ es s' ∧ s₁.expectations.pending.get? k = some e ∧ e.version = v ∧
      last.nanos < e.deadline.nanos := by
  cases h with
  | said _ ha _ hexpect h =>
    refine ⟨_, ⟨v, ⟨_⟩⟩, h, ?_, rfl, hexpect v rfl⟩
    rw [show _ = _ from ha]
    exact Table.get?_insert_self ..

/-! ## One attempt -/

/-- What is still to be created: the child, unless there is one or it is expected. -/
def due (c : Context) (R : Replies) (k : Key) (wi : WarmImage) (ns : String) (s : Moment) :
    List (String × DaemonSet) :=
  if (childrenOf c wi ns).1.isEmpty && !s.expects k wi.metadata.version then R.child c wi ns else []

/-- Nothing is to be created where there is a current child. -/
theorem due_of_present (hcur : (childrenOf c wi ns).1.isEmpty = false) (s : Moment) :
    due c R k wi ns s = [] := by
  rw [due, hcur]
  rfl

/-- Nothing is to be created while a child is expected. -/
theorem due_of_expects (h : s.expects k wi.metadata.version = true) :
    due c R k wi ns s = [] := by
  rw [due, h, Bool.not_true, Bool.and_false]
  rfl

/-- The child is to be created where there is none and none is expected. -/
theorem due_of_childless (hcur : (childrenOf c wi ns).1.isEmpty = true)
    (h : s.expects k wi.metadata.version = false) : due c R k wi ns s = R.child c wi ns := by
  rw [due, hcur, h]
  rfl

/-- An attempt takes off what is to be created what it creates. If it goes well, nothing is left to
be created, and a child is expected unless there is one. -/
theorem Told.created_append_due (hk : k.split = .ok (ns, name))
    (hwi : c.warmImages.get? ns name = some wi) (hg : c.scheme.kindOf .warmImage = .ok g)
    (hd : (dialogue c k).Transcript es r) (h : Told R k last s es s') (hlasts : s.Lasts k last)
    (hlast : s'.now.nanos ≤ last.nanos) :
    s'.Lasts k last ∧ created es ++ due c R k wi ns s' = due c R k wi ns s ∧
      (r = .ok () → due c R k wi ns s' = [] ∧ s'.expected? k =
        if (childrenOf c wi ns).1.isEmpty then some wi.metadata.version else none) := by
  cases dialogue_transcript hk hwi hd with
  | present hcur hend =>
    obtain ⟨houtside, hcreated, -⟩ := hend.effects hg
    obtain ⟨s₁, h₁, hnone⟩ := h.observed
    have hpending := (h₁.pending_eq houtside).trans hnone
    refine ⟨Moment.lasts_of_none hpending, ?_, fun _ => ⟨due_of_present hcur s', ?_⟩⟩
    · rw [due_of_present hcur, due_of_present hcur, List.append_nil]
      exact hcreated
    · rw [hcur, Moment.expected?, hpending]
      rfl
  | expected hcur hend =>
    obtain ⟨houtside, hcreated, -⟩ := hend.effects hg
    obtain ⟨hexpects, s₁, h₁, hnow, hpending₁⟩ := h.isPending hlasts hlast
    have hpending := (h₁.pending_eq houtside).trans hpending₁
    have hexpects' : s'.expects k wi.metadata.version = true :=
      (hlasts.expects_eq h.now_le hlast hpending).trans hexpects.symm
    refine ⟨hlasts.of_pending_eq h.now_le hpending, ?_, fun _ => ⟨due_of_expects hexpects', ?_⟩⟩
    · rw [due_of_expects hexpects', due_of_expects hexpects.symm, List.append_nil]
      exact hcreated
    · rw [hcur, Moment.expected?_of_expects hexpects']
      rfl
  | failed hcur hcreate =>
    obtain ⟨hexpects, s₁, h₁, hnow, hpending₁⟩ := h.isPending hlasts hlast
    obtain ⟨houtside, -, -, ⟨hr, -⟩ | ⟨-, hcreated, -⟩⟩ := createChild_effects hg h₁.gives hcreate
    · cases hr
    · -- nothing was created and nothing is expected, so the same is still due
      have hpending := (h₁.pending_eq houtside).trans hpending₁
      refine ⟨Moment.lasts_of_none hpending, ?_, nofun⟩
      rw [due_of_childless hcur hexpects.symm,
        due_of_childless hcur (Moment.expects_of_none hpending)]
      exact congrArg (· ++ R.child c wi ns) hcreated
  | made hcur hcreate hend =>
    obtain ⟨hexpects, s₁, h₁, hnow, hpending₁⟩ := h.isPending hlasts hlast
    obtain ⟨s₂, h₂, h₃⟩ := h₁.append
    obtain ⟨-, -, -, ⟨-, hcreated₁⟩ | ⟨⟨e, hr⟩, -⟩⟩ := createChild_effects hg h₂.gives hcreate
    · obtain ⟨houtside, hcreated₂, -⟩ := hend.effects hg
      obtain ⟨s₃, e, h₄, hpending₃, hv, he⟩ := h₃.expect
      -- what is said after the child was taken down does not touch the expectation
      have hpending := (h₄.pending_eq houtside).trans hpending₃
      have hexpects' : s'.expects k wi.metadata.version = true :=
        Moment.expects_eq_true_iff.2 ⟨e, hpending, hv, Nat.lt_of_le_of_lt hlast he⟩
      refine ⟨?_, ?_, fun _ => ⟨due_of_expects hexpects', ?_⟩⟩
      · intro e' he' _
        rw [hpending] at he'
        cases he'
        exact he
      · rw [due_of_childless hcur hexpects.symm, due_of_expects hexpects', List.append_nil]
        refine (created_append _ _).trans ?_
        rw [hcreated₁]
        exact (congrArg (R.child c wi ns ++ ·) hcreated₂).trans (List.append_nil _)
      · rw [hcur, Moment.expected?_of_expects hexpects']
        rfl
    · cases hr

/-! ## Any number of attempts -/

/-- The clock does not go back from one attempt to the next. -/
theorem Attempts.now_le (h : Attempts c R k last s l s') : s.now.nanos ≤ s'.now.nanos := by
  induction h with
  | stop => exact Nat.le_refl _
  | next _ ht _ ih => exact Nat.le_trans ht.now_le ih

/-- A number of attempts that have failed and one more. All that was created is what was to be
created before, if the last one went well. -/
theorem Attempts.effects (hk : k.split = .ok (ns, name))
    (hwi : c.warmImages.get? ns name = some wi) (hg : c.scheme.kindOf .warmImage = .ok g)
    (h : Attempts c R k last s (l ++ [(es, r)]) s') (hlasts : s.Lasts k last)
    (hlast : s'.now.nanos ≤ last.nanos) (hfailed : ∀ p ∈ l, ∃ e, p.2 = .error e)
    (hfree : ∀ x ∈ es, x.failed = false) :
    r = .ok () ∧ created (wholeOf (l ++ [(es, r)])) = due c R k wi ns s ∧
      deleted (wholeOf (l ++ [(es, r)])) = cleaned c wi ns ∧
      (∃ about, c.scheme.objectReference .warmImage wi.metadata = .ok about ∧
        published (wholeOf (l ++ [(es, r)])) = [(about, .synced)]) ∧
      s'.expected? k =
        if (childrenOf c wi ns).1.isEmpty then some wi.metadata.version else none := by
  induction l generalizing s with
  | nil =>
    cases h with
    | next hd ht hrest =>
      cases hrest
      obtain ⟨-, hcreated, hdue⟩ := ht.created_append_due hk hwi hg hd hlasts hlast
      obtain ⟨rfl, hdone⟩ | ⟨-, -, -, x, hx, hx'⟩ :=
        (dialogue_transcript hk hwi hd).effects hg ht.gives
      · obtain ⟨hnone, hexpected⟩ := hdue rfl
        rw [hnone, List.append_nil] at hcreated
        simpa [wholeOf, hcreated, hexpected] using hdone
      · rw [hfree x hx] at hx'
        cases hx'
  | cons p l ih =>
    cases h with
    | @next _ s₁ _ es₁ r₁ _ hd ht hrest =>
      obtain ⟨⟨e, rfl⟩, hfailed₂⟩ := List.forall_mem_cons.1 hfailed
      have hlast₁ := Nat.le_trans hrest.now_le hlast
      obtain ⟨hlasts₁, hcreated, -⟩ := ht.created_append_due hk hwi hg hd hlasts hlast₁
      obtain ⟨hr, -⟩ | ⟨-, hdeleted, hpublished, -⟩ :=
        (dialogue_transcript hk hwi hd).effects hg ht.gives
      · cases hr
      · obtain ⟨hr, hall, hrest⟩ := ih hrest hlasts₁ hfailed₂
        rw [List.cons_append, wholeOf_cons, created_append, deleted_append, published_append,
          hall, hcreated, hdeleted, hpublished]
        exact ⟨hr, rfl, hrest⟩

/-- Every question can be answered without a failure. -/
theorem exists_answer (R : Replies) (now : Instant) (x : Expectations) (q : Query) :
    ∃ a x', Answers now x q a x' ∧ R.Gives ⟨q, a⟩ ∧ Exchange.failed ⟨q, a⟩ = false := by
  cases q with
  | isPending k v => exact ⟨_, _, rfl, trivial, rfl⟩
  | expect k v => exact ⟨(), _, rfl, trivial, rfl⟩
  | observed k => exact ⟨(), _, rfl, trivial, rfl⟩
  | secret ns name => exact ⟨.ok (R.secret ns name), _, rfl, rfl, rfl⟩
  | digest t ls => exact ⟨.ok (R.digest t ls), _, rfl, rfl, rfl⟩
  | create ns d => exact ⟨.ok (), _, rfl, trivial, rfl⟩
  | deleteCollection ns sel p => exact ⟨.ok (), _, rfl, trivial, rfl⟩
  | publish about e => exact ⟨.ok (), _, rfl, trivial, rfl⟩

/-- Everything can be said at once and without a failure. -/
theorem exists_told {α : Type} (d : Talk α) (R : Replies) (k : Key) (s : Moment)
    (hlifetime : 0 < s.expectations.lifetime.nanos) :
    ∃ es a s', d.Transcript es a ∧ Told R k s.now s es s' ∧ s'.now = s.now ∧
      ∀ x : Exchange, x ∈ es → x.failed = false := by
  induction d generalizing s with
  | done a => exact ⟨[], a, s, .done a, .silent (.refl k s), rfl, List.forall_mem_nil _⟩
  | ask q next ih =>
    obtain ⟨a, x, ha, hR, hfree⟩ := exists_answer R s.now s.expectations q
    obtain ⟨es, r, s', hd, ht, hnow, hrest⟩ := ih a ⟨s.now, x⟩ (by rwa [ha.lifetime])
    refine ⟨⟨q, a⟩ :: es, r, s', .ask q a hd, ?_, hnow, List.forall_mem_cons.2 ⟨hfree, hrest⟩⟩
    exact .said (.refl k s) ha hR (fun _ _ => Nat.lt_add_of_pos_right hlifetime) ht

/-- Work on the key of a warm image is attempted a number of times and fails, and then once more
without a failure, while the stores and the replies stay the same and what is expected for the key
does not end. The last attempt goes well. All of them together create one child at most, and tell
once that all is well. What they create, what they delete and the version that is expected in the
end are those of one attempt without a failure from the beginning, and there is such an attempt. -/
theorem retries_amount_to_one (hk : k.split = .ok (ns, name))
    (hwi : c.warmImages.get? ns name = some wi) (hg : c.scheme.kindOf .warmImage = .ok g)
    (h : Attempts c R k last s (l ++ [(es, r)]) s') (hlasts : s.Lasts k last)
    (hlast : s'.now.nanos ≤ last.nanos) (hfailed : ∀ p ∈ l, ∃ e, p.2 = .error e)
    (hfree : ∀ x ∈ es, x.failed = false) :
    r = .ok () ∧ (created (wholeOf (l ++ [(es, r)]))).length ≤ 1 ∧
      (∃ about, c.scheme.objectReference .warmImage wi.metadata = .ok about ∧
        published (wholeOf (l ++ [(es, r)])) = [(about, .synced)]) ∧
      (∀ last₁ es₁ r₁ s₁, Attempts c R k last₁ s [(es₁, r₁)] s₁ → s.Lasts k last₁ →
        s₁.now.nanos ≤ last₁.nanos → (∀ x ∈ es₁, x.failed = false) →
          created (wholeOf (l ++ [(es, r)])) = created es₁ ∧
            deleted (wholeOf (l ++ [(es, r)])) = deleted es₁ ∧
            s'.expected? k = s₁.expected? k) ∧
      (0 < s.expectations.lifetime.nanos →
        ∃ es₁ r₁ s₁, Attempts c R k s.now s [(es₁, r₁)] s₁ ∧ s.Lasts k s.now ∧ s₁.now = s.now ∧
          ∀ x ∈ es₁, x.failed = false) := by
  obtain ⟨hr, hcreated, hdeleted, hpublished, hexpected⟩ :=
    h.effects hk hwi hg hlasts hlast hfailed hfree
  refine ⟨hr, ?_, hpublished, ?_, ?_⟩
  · rw [hcreated]
    unfold due Replies.child
    split
    · split <;> simp
    · simp
  · intro last₁ es₁ r₁ s₁ h₁ hlasts₁ hlast₁ hfree₁
    obtain ⟨-, hcreated₁, hdeleted₁, -, hexpected₁⟩ :=
      Attempts.effects (l := []) hk hwi hg h₁ hlasts₁ hlast₁ nofun hfree₁
    have hwhole : wholeOf ([] ++ [(es₁, r₁)]) = es₁ := List.append_nil es₁
    rw [hwhole] at hcreated₁ hdeleted₁
    exact ⟨hcreated.trans hcreated₁.symm, hdeleted.trans hdeleted₁.symm,
      hexpected.trans hexpected₁.symm⟩
  · intro hlifetime
    obtain ⟨es₁, r₁, s₁, hd, ht, hnow, hfree₁⟩ := exists_told (dialogue c k) R k s hlifetime
    exact ⟨es₁, r₁, s₁, .next hd ht (.stop s₁), fun _ _ hlt => hlt, hnow, hfree₁⟩

/-- The first attempt creates the child and then cannot delete an old one. The second one waits for
the child and deletes the old one. -/
theorem retries_amount_to_one_twice :
    let old : DaemonSet :=
      { metadata :=
          { name := some "b0"
            ns := some "ns"
            labels := some (.ofList [("controller", "u"), ("version", "0")]) } }
    let c := sampleContext { items := .ofList [("ns/b0", old)] }
    let R : Replies := ⟨fun _ _ => none, fun _ _ => "sha256:0"⟩
    let sel := Generation.staleSelector sample
    let first : List Exchange :=
      [⟨.isPending "ns/a" "1", false⟩, ⟨.create "ns" sampleChild, .ok ()⟩,
        ⟨.expect "ns/a" "1", ()⟩, ⟨.deleteCollection "ns" sel .foreground, .error .unreadable⟩]
    let second : List Exchange :=
      [⟨.isPending "ns/a" "1", true⟩, ⟨.deleteCollection "ns" sel .foreground, .ok ()⟩,
        ⟨.publish sampleReference .synced, .ok ()⟩]
    ∃ s', Attempts c R "ns/a" ⟨0⟩ ⟨⟨0⟩, .standard⟩
        [(first, .error (.cluster .unreadable)), (second, .ok ())] s' ∧
      (created (first ++ second)).length ≤ 1 ∧
      ∃ about, published (first ++ second) = [(about, .synced)] := by
  intro old c R sel first second
  have hfirst : (dialogue c "ns/a").Transcript first (.error (.cluster .unreadable)) :=
    .ask _ _ (.ask _ _ (.ask _ _ (.ask _ _ (.done _))))
  have hsecond : (dialogue c "ns/a").Transcript second (.ok ()) :=
    .ask _ _ (.ask _ _ (.ask _ _ (.done _)))
  let s₁ : Moment := ⟨⟨0⟩, Expectations.standard.expect "ns/a" "1" ⟨0⟩⟩
  have htold₁ : Told R "ns/a" ⟨0⟩ ⟨⟨0⟩, .standard⟩ first s₁ := by
    refine .said (.refl ..) rfl trivial nofun ?_
    refine .said (.refl ..) rfl trivial nofun ?_
    refine .said (.refl ..) rfl trivial (fun _ _ => by decide) ?_
    refine .said (.refl ..) rfl trivial nofun ?_
    exact .silent (.refl ..)
  have htold₂ : Told R "ns/a" ⟨0⟩ s₁ second s₁ := by
    refine .said (.refl ..) rfl trivial nofun ?_
    refine .said (.refl ..) rfl trivial nofun ?_
    refine .said (.refl ..) rfl trivial nofun ?_
    exact .silent (.refl ..)
  have h : Attempts c R "ns/a" ⟨0⟩ ⟨⟨0⟩, .standard⟩
      ([(first, .error (.cluster .unreadable))] ++ [(second, .ok ())]) s₁ :=
    .next hfirst htold₁ (.next hsecond htold₂ (.stop s₁))
  have hk : Key.split "ns/a" = .ok ("ns", "a") := rfl
  obtain ⟨-, hone, ⟨about, -, htold⟩, -⟩ := retries_amount_to_one hk rfl rfl h nofun (Nat.le_refl _)
    (by simp) (by decide)
  exact ⟨s₁, h, hone, about, htold⟩

end

end Prewarm.Reconcile
