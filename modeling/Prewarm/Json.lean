/-!
# JSON values

A value of JSON. The fields of a record keep their order; where a name stands twice, the last of its
fields counts.
-/

namespace Prewarm

/-- A JSON value. -/
inductive Json where
  | null
  | bool (b : Bool)
  /-- A number of 64 bits, with or without a sign, that is written as such. -/
  | integer (n : Int)
  /-- Any other number. -/
  | real (x : Float)
  | text (s : String)
  | array (items : List Json)
  | record (fields : List (String × Json))
  deriving Inhabited

namespace Json

/-- The value of a natural number. -/
def nat (n : Nat) : Json := .integer n

/-- The value of a text that may be absent, with `null` for its absence. -/
def textOrNull : Option String → Json
  | some s => text s
  | none => null

/-- A field that is written only if there is a value for it. -/
def optional (name : String) : Option Json → List (String × Json)
  | some v => [(name, v)]
  | none => []

/-- The value of a name in fields. -/
def last? (name : String) (fields : List (String × Json)) : Option Json :=
  (fields.reverse.find? (fun f => f.1 == name)).map Prod.snd

/-- Whether a value is `null`. -/
def isNull : Json → Bool
  | null => true
  | _ => false

/-- The value of a field that is written and not `null`. -/
def field? (name : String) : Json → Option Json
  | record fields => (last? name fields).filter (!·.isNull)
  | _ => none

/-- A text. -/
def asText? : Json → Option String
  | text s => some s
  | _ => none

/-- A truth value. -/
def asBool? : Json → Option Bool
  | bool b => some b
  | _ => none

/-- A whole number. -/
def asInt? : Json → Option Int
  | integer n => some n
  | _ => none

/-- The items of an array. -/
def items : Json → List Json
  | array vs => vs
  | _ => []

/-- The fields of a record. -/
def fields : Json → List (String × Json)
  | record fs => fs
  | _ => []

/-- A text in a field. -/
def textAt? (name : String) (j : Json) : Option String := (j.field? name).bind asText?

/-- A text in a field, empty if it is not written. -/
def textAt (name : String) (j : Json) : String := (j.textAt? name).getD ""

end Json

end Prewarm
