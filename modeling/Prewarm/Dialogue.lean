/-!
# Dialogues

A program that depends on others is written as a dialogue: it asks a question, and how it goes on
depends on the answer. Who answers is left open, so the same dialogue is held with a live cluster,
with a recorded one, and with the arbitrary answers that a statement about all runs ranges over.
-/

namespace Prewarm

/-- A computation that asks questions, with the type of its answer for each of them. -/
inductive Dialogue (Q : Type) (A : Q → Type) (α : Type) where
  | done (a : α)
  | ask (q : Q) (next : A q → Dialogue Q A α)

namespace Dialogue

variable {Q : Type} {A : Q → Type} {α β : Type}

/-- Goes on with the result of a dialogue. -/
def bind : Dialogue Q A α → (α → Dialogue Q A β) → Dialogue Q A β
  | done a, f => f a
  | ask q next, f => ask q (fun a => (next a).bind f)

instance : Monad (Dialogue Q A) where
  pure := done
  bind := bind

/-- Asks one question. -/
def question (q : Q) : Dialogue Q A (A q) := ask q done

/-- Holds a dialogue with one who answers. -/
def run {m : Type → Type} [Monad m] (answer : (q : Q) → m (A q)) : Dialogue Q A α → m α
  | done a => pure a
  | ask q next => do (next (← answer q)).run answer

/-- What goes on after a dialogue that is over goes on with its result. -/
@[simp] theorem bind_done (a : α) (f : α → Dialogue Q A β) : (done a).bind f = f a := rfl

/-- What goes on after a dialogue that asks first asks the same, and goes on after the answer. -/
@[simp] theorem bind_ask (q : Q) (next : A q → Dialogue Q A α) (f : α → Dialogue Q A β) :
    (ask q next).bind f = ask q (fun a => (next a).bind f) := rfl

/-- Going on with the result as it is leaves a dialogue as it is. -/
@[simp] theorem bind_pure (d : Dialogue Q A α) : d.bind done = d := by
  induction d with
  | done a => rfl
  | ask q next ih => simp only [bind_ask, ih]

/-- It does not matter how steps that follow each other are grouped. -/
theorem bind_assoc {γ : Type} (d : Dialogue Q A α) (f : α → Dialogue Q A β)
    (g : β → Dialogue Q A γ) : (d.bind f).bind g = d.bind (fun a => (f a).bind g) := by
  induction d with
  | done a => rfl
  | ask q next ih => simp only [bind_ask, ih]

instance : LawfulMonad (Dialogue Q A) :=
  .mk' _ (fun d => bind_pure d) (fun _ _ => rfl) bind_assoc

end Dialogue

end Prewarm
