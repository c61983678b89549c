import Prewarm.Dialogue

/-!
# Transcripts of dialogues

A transcript of a dialogue is what was said in it from its beginning to its end: the questions that
were asked, each with its answer, and what the dialogue came to. Any answers make a transcript, so a
statement about all transcripts is one about all who can be asked. The transcripts of a dialogue
that goes on after another are those of the one followed by those of the other
(`transcript_bind_iff`).
-/

namespace Prewarm.Dialogue

variable {Q : Type} {A : Q → Type} {α β : Type} {d : Dialogue Q A α} {q : Q}
  {next : A q → Dialogue Q A α} {es : List ((q : Q) × A q)} {a : α} {b : β}

/-- What was said in a dialogue, and what it came to. -/
inductive Transcript : Dialogue Q A α → List ((q : Q) × A q) → α → Prop
  | done (a : α) : Transcript (.done a) [] a
  | ask (q : Q) {next : A q → Dialogue Q A α} {es : List ((q : Q) × A q)} {a : α} (x : A q) :
      Transcript (next x) es a → Transcript (.ask q next) (⟨q, x⟩ :: es) a

/-- In a dialogue that is over nothing is said, and it comes to its result. -/
@[simp] theorem transcript_done_iff {a' : α} :
    (done a : Dialogue Q A α).Transcript es a' ↔ es = [] ∧ a' = a := by
  constructor
  · intro h
    cases h
    exact ⟨rfl, rfl⟩
  · rintro ⟨rfl, rfl⟩
    exact .done a'

/-- What is said in a dialogue that asks is its question with some answer, and what is said after
that answer. -/
theorem transcript_ask_iff :
    (ask q next).Transcript es a ↔ ∃ x es', es = ⟨q, x⟩ :: es' ∧ (next x).Transcript es' a := by
  constructor
  · intro h
    cases h with
    | ask q x h => exact ⟨x, _, rfl, h⟩
  · rintro ⟨x, es', rfl, h⟩
    exact .ask q x h

/-- What was said in a dialogue that goes on after another is what was said in the other and then in
the rest. -/
theorem transcript_bind_iff {f : α → Dialogue Q A β} :
    (d.bind f).Transcript es b ↔
      ∃ es₁ a es₂, es = es₁ ++ es₂ ∧ d.Transcript es₁ a ∧ (f a).Transcript es₂ b := by
  constructor
  · intro h
    induction d generalizing es with
    | done a => exact ⟨[], a, es, rfl, .done a, h⟩
    | ask q next ih =>
      obtain ⟨x, es', rfl, hnext⟩ := transcript_ask_iff.1 h
      obtain ⟨es₁, a, es₂, rfl, h₁, h₂⟩ := ih x hnext
      exact ⟨_, a, es₂, rfl, .ask q x h₁, h₂⟩
  · rintro ⟨es₁, a, es₂, rfl, h₁, h₂⟩
    induction h₁ with
    | done a => exact h₂
    | ask q x _ ih => exact .ask q x (ih h₂)

/-- What is said in a dialogue if every question has one answer, and what it comes to. -/
def record (answer : (q : Q) → A q) : Dialogue Q A α → List ((q : Q) × A q) × α
  | done a => ([], a)
  | ask q next => ((next (answer q)).record answer).map (⟨q, answer q⟩ :: ·) id

/-- What is recorded of a dialogue can be said in it. -/
theorem transcript_record (answer : (q : Q) → A q) (d : Dialogue Q A α) :
    d.Transcript (d.record answer).1 (d.record answer).2 := by
  induction d with
  | done a => exact .done a
  | ask q next ih => exact .ask q (answer q) (ih (answer q))

end Prewarm.Dialogue
