import Prewarm.Json

/-!
# Drafts

A document as far as it can be read. A stream may break off anywhere, and what is wrong with a
document may stand in a part that nobody asks for; so a draft keeps the faults in the places where
they were found. Whoever reads a draft comes upon the faults in the order of the document, and upon
those only that lie on the way.
-/

namespace Prewarm.Json

/-- Why a document cannot be read. -/
inductive Fault where
  /-- It ends too early: more octets could make a document of it. -/
  | cut
  /-- No document begins like this. -/
  | wrong
  deriving DecidableEq, Repr

/-- What is wrong with a string, a number or a word. -/
structure Flaw where
  /-- The fault for those who want to know what is written. -/
  read : Fault
  /-- The fault for those who pass over it. If there is none, the document goes on. -/
  pass : Option Fault
  deriving DecidableEq, Repr

/-- A value as far as it can be read. -/
inductive Draft where
  | null
  | bool (b : Bool)
  | integer (n : Int)
  | real (x : Float)
  | text (s : String)
  /-- A string that denotes no text, or does not end. -/
  | flawedText (f : Flaw)
  /-- A number or a word that denotes nothing, or does not end. -/
  | flawedScalar (f : Flaw)
  /-- No value begins where there should be one. -/
  | missing (f : Fault)
  /-- Items, and the fault that stands where a comma or the closing bracket should. -/
  | array (items : List Draft) (stop : Option Fault)
  /-- Fields, and the fault that stands where a comma or the closing bracket should. -/
  | record (fields : List (Except Flaw String × Draft)) (stop : Option Fault)

namespace Draft

mutual
/-- The draft of a value that is whole. -/
def ofJson : Json → Draft
  | .null => null
  | .bool b => bool b
  | .integer n => integer n
  | .real x => real x
  | .text s => text s
  | .array items => array (ofItems items) none
  | .record fields => record (ofFields fields) none

/-- The drafts of items. -/
def ofItems : List Json → List Draft
  | [] => []
  | v :: vs => ofJson v :: ofItems vs

/-- The drafts of fields. -/
def ofFields : List (String × Json) → List (Except Flaw String × Draft)
  | [] => []
  | (k, v) :: fs => (.ok k, ofJson v) :: ofFields fs
end

/-- Fails with a fault, if there is one. -/
def orFault : Option Fault → Except Fault Unit
  | some f => .error f
  | none => .ok ()

mutual
/-- Passes over a value. -/
def pass : Draft → Except Fault Unit
  | flawedText f | flawedScalar f => orFault f.pass
  | missing f => .error f
  | array items stop => do
    passItems items
    orFault stop
  | record fields stop => do
    passFields fields
    orFault stop
  | _ => .ok ()

/-- Passes over items. -/
def passItems : List Draft → Except Fault Unit
  | [] => .ok ()
  | d :: ds => do
    pass d
    passItems ds

/-- Passes over fields. -/
def passFields : List (Except Flaw String × Draft) → Except Fault Unit
  | [] => .ok ()
  | (.ok _, d) :: fs => do
    pass d
    passFields fs
  | (.error f, d) :: fs => do
    orFault f.pass
    pass d
    passFields fs
end

/-- The fault of a value where something else is wanted. A string, a number or a word is looked
into before it is refused, a bracket is not. -/
def refusal : Draft → Fault
  | flawedText f | flawedScalar f => f.read
  | missing f => f
  | _ => .wrong

end Draft

/-- A document: a value, and whether anything follows it. -/
structure Document where
  value : Draft
  trailing : Bool

end Prewarm.Json
