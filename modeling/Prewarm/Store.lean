import Prewarm.Key

/-!
# Stores

A store is a local copy of the objects of a kind, filed under their keys. One writer keeps it up to
date and observers are told of every change, each of them of the same changes in the same order. An
object that is older than the one a store has is left aside; versions are compared only if both are
numbers.
-/

namespace Prewarm

/-- A change of a store. -/
inductive Note (α : Type) where
  | added (new : α)
  | updated (old new : α)
  | deleted (old : α)
  deriving DecidableEq

/-- The object a change leaves, or has removed. -/
def Note.object {α : Type} : Note α → α
  | added a | updated _ a | deleted a => a

/-- A local copy of the objects of a kind. -/
structure Store (α : Type) where
  items : Table Key α := .empty
  /-- Those who are told of changes, in the order in which they subscribed. -/
  observers : List String := []
  /-- Whether the store has held a whole listing. -/
  synced : Bool := false

namespace Store

variable {α : Type} [Resource α]

/-- Whether an object is older than another. -/
def isOlder (new old : α) : Bool :=
  match (metadata old).versionNumber?, (metadata new).versionNumber? with
  | some o, some n => n < o
  | _, _ => false

/-- Adds one who is told of changes. -/
def subscribe (s : Store α) (observer : String) : Store α :=
  { s with observers := s.observers ++ [observer] }

/-- The object with a key. -/
def getByKey? (s : Store α) (k : Key) : Option α := s.items.get? k

/-- The object with a name in a namespace. -/
def get? (s : Store α) (ns name : String) : Option α := s.getByKey? (Key.ofParts ns name)

/-- Whether an object is in a namespace, if one is given. -/
def isIn (ns : Option String) (a : α) : Bool :=
  match ns with
  | none => true
  | some ns => (metadata a).ns == some ns

/-- The number of objects. -/
def size (s : Store α) : Nat := s.items.size

/-- Files an object, unless it is older than the one that is filed. -/
def upsert (s : Store α) (a : α) : Store α × List (Note α) :=
  match s.items.get? (keyOf a) with
  | some old =>
    if isOlder a old then (s, [])
    else ({ s with items := s.items.insert (keyOf a) a }, [.updated old a])
  | none => ({ s with items := s.items.insert (keyOf a) a }, [.added a])

/-- Takes out the object with the key of the one given. Observers see the one given. -/
def remove (s : Store α) (a : α) : Store α × List (Note α) :=
  match s.items.get? (keyOf a) with
  | some _ => ({ s with items := s.items.erase (keyOf a) }, [.deleted a])
  | none => (s, [])

/-- A listing on its way into a store: the objects that were there and have not been listed yet,
those that will be there, and the changes so far. -/
structure Relisting (α : Type) where
  before : Table Key α
  after : Table Key α
  notes : List (Note α)

/-- Takes one listed object into account. -/
def Relisting.take (r : Relisting α) (a : α) : Relisting α :=
  match r.before.get? (keyOf a) with
  | some old =>
    if isOlder a old then
      { r with before := r.before.erase (keyOf a), after := r.after.insert (keyOf a) old }
    else
      { before := r.before.erase (keyOf a)
        after := r.after.insert (keyOf a) a
        notes := r.notes ++ [.updated old a] }
  | none => { r with after := r.after.insert (keyOf a) a, notes := r.notes ++ [.added a] }

/-- The objects that are gone, in the order of their keys. -/
def Relisting.gone (r : Relisting α) : List α :=
  (r.before.sorted (fun a b => decide (a ≤ b))).map Prod.snd

/-- Puts a whole listing in place of the content. Every listed object is an addition or an update
and every other one a deletion, so that a listing makes up for what a watch has missed. -/
def replace (s : Store α) (listing : List α) : Store α × List (Note α) :=
  let r := listing.foldl Relisting.take ⟨s.items, .empty, []⟩
  ({ s with items := r.after, synced := true }, r.notes ++ r.gone.map .deleted)

/-- What observers are told of changes: each change goes to all of them before the next one. -/
def deliveries (s : Store α) (notes : List (Note α)) : List (String × Note α) :=
  notes.flatMap (fun n => s.observers.map (fun o => (o, n)))

end Store

end Prewarm
