/-!
# Health pages

One page says that the program lives, and one whether it is ready, which it is once every store has
held a whole listing.
-/

namespace Prewarm.Health

/-- A reply to a request for a page. -/
structure Reply where
  status : Nat
  body : String
  deriving DecidableEq, Repr

/-- Whether every store has held a whole listing. -/
def isReady (synced : List Bool) : Bool := synced.all id

/-- The page at a path. -/
def page? (ready : Bool) (path : String) : Option Reply :=
  if path = "/healthz" then some ⟨200, "ok"⟩
  else if path = "/readyz" then
    some (if ready then ⟨200, "ok"⟩ else ⟨503, "caches not synced"⟩)
  else none

/-- What follows the scheme of a target, if it has one. -/
def afterScheme? (target : List Char) : Option (List Char) :=
  let isSchemeChar (c : Char) : Bool := c.isAlphanum || c = '+' || c = '-' || c = '.'
  match target.takeWhile isSchemeChar, target.dropWhile isSchemeChar with
  | _ :: _, ':' :: '/' :: '/' :: r => some r
  | _, _ => none

/-- Whether a character ends the part of a target before it, be it a host or a path. -/
def isMark (c : Char) : Bool := c = '?' || c = '#'

/-- The path of a target, without query and fragment. A target with a scheme names a host first; one
that has neither a scheme nor a path is only the name of a host. -/
def path? (target : List Char) : Option (List Char) :=
  match target, afterScheme? target with
  | '/' :: _, _ => some (target.takeWhile (!isMark ·))
  | _, some r => some ((r.dropWhile (fun c => c ≠ '/' && !isMark c)).takeWhile (!isMark ·))
  | _, none => none

/-- The reply to a request. A page can be read, and its head asked for, but nothing else. -/
def reply (ready : Bool) (method target : String) : Reply :=
  match (path? target.toList).bind (fun p => page? ready (String.ofList p)) with
  | none => ⟨404, ""⟩
  | some r =>
    if method = "GET" then r
    else if method = "HEAD" then { r with body := "" }
    else ⟨405, ""⟩

end Prewarm.Health
