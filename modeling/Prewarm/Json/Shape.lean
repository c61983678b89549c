import Prewarm.Json.Draft

/-!
# Shapes

What is expected of a value: a shape says which values are taken and what is kept of them. Reading a
draft by a shape goes through the draft in the order of the document and ends at the first fault, be
it one of the draft or a value that does not have its shape. What a shape does not ask for is passed
over.

There are two kinds of records. A lenient one takes each of its fields as often as it is written,
the last time standing. A strict one refuses a field that is written twice, and may be written as an
array of the values of its fields in order.
-/

namespace Prewarm.Json

/-- Whether a field of a strict record has to be written. -/
inductive Presence where
  | required
  /-- Only in an array, where `null` may stand for it. -/
  | optional
  /-- Neither in a record nor in an array. -/
  | assumed
  deriving DecidableEq, Repr

/-- What is expected of a value. -/
inductive Shape where
  /-- Nothing: the value is passed over. -/
  | ignored
  /-- Any value, which is looked into. -/
  | any
  | bool
  /-- A whole number from `lo` to `hi`. -/
  | integer (lo hi : Int)
  /-- A text, as another text if it is written in another way. -/
  | text (respell : String → Option String)
  /-- A whole number from `lo` to `hi`, or a text. -/
  | integerOrText (lo hi : Int)
  /-- One of some names: as a text, or as the only field of a record, which is `null`. -/
  | choice (names : List String)
  /-- A value that may be `null`. -/
  | nullable (s : Shape)
  | list (item : Shape)
  /-- A record with any names and values of one shape. -/
  | table (value : Shape)
  | lenient (fields : List (String × Shape))
  | strict (fields : List (String × Presence × Shape))
  /-- A strict record that is not written as an array and looks into the fields it does not know:
  each of some names has to stand for a text among them. -/
  | extensible (fields : List (String × Presence × Shape)) (texts : List String)

namespace Shape

/-- A text as it is written. -/
def string : Shape := .text some

/-- A text that has to be a given one. -/
def exactly (t : String) : Shape := .text (fun s => if s = t then some s else none)

/-- A whole number of 32 bits with a sign. -/
def int32 : Shape := .integer (-Nat.pow 2 31) (Nat.pow 2 31 - 1)

/-- A whole number of 64 bits with a sign. -/
def int64 : Shape := .integer (-Nat.pow 2 63) (Nat.pow 2 63 - 1)

/-- A lenient record whose fields may be `null`. -/
def fields (fs : List (String × Shape)) : Shape :=
  .lenient (fs.map (fun (k, s) => (k, .nullable s)))

/-- Nothing but `null`. -/
def onlyNull : Shape := .nullable .ignored

/-- Fields of one shape. -/
def each (s : Shape) (names : List String) : List (String × Shape) := names.map (fun k => (k, s))

/-- A shape without the permission to be `null`. -/
def core : Shape → Shape
  | nullable s => s.core
  | s => s

/-! ## Values without parts -/

/-- Takes `null`. -/
def ofNull : Shape → Except Fault Json
  | nullable _ | any => .ok .null
  | _ => .error .wrong

/-- Takes a truth value. -/
def ofBool (s : Shape) (b : Bool) : Except Fault Json :=
  match s.core with
  | any | bool => .ok (.bool b)
  | _ => .error .wrong

/-- Takes a whole number. -/
def ofInteger (s : Shape) (n : Int) : Except Fault Json :=
  match s.core with
  | any => .ok (.integer n)
  | integer lo hi | integerOrText lo hi =>
    if lo ≤ n ∧ n ≤ hi then .ok (.integer n) else .error .wrong
  | _ => .error .wrong

/-- Takes a number that is not whole. -/
def ofReal (s : Shape) (x : Float) : Except Fault Json :=
  match s.core with
  | any => .ok (.real x)
  | _ => .error .wrong

/-- Takes a text. -/
def ofText (s : Shape) (t : String) : Except Fault Json :=
  match s.core with
  | any | integerOrText _ _ => .ok (.text t)
  | text respell => (respell t).elim (.error .wrong) (fun t => .ok (.text t))
  | choice names => if t ∈ names then .ok (.text t) else .error .wrong
  | _ => .error .wrong

/-! ## Arrays and records -/

/-- How the items of an array are taken. -/
inductive Row where
  /-- All items have one shape. -/
  | same (s : Shape)
  /-- The items are the fields of a strict record. -/
  | fields (fs : List (String × Presence × Shape))

/-- How a shape takes the items of an array, if it takes an array. -/
def row? (s : Shape) : Option Row :=
  match s.core with
  | any => some (.same .any)
  | list item => some (.same item)
  | strict fs => some (.fields fs)
  | _ => none

/-- How the fields of a record are taken. -/
structure Plan where
  /-- The shape of a field. -/
  shapeOf : String → Shape
  /-- Whether a field is written at most once. -/
  isUnique : String → Bool

/-- How a shape takes the fields of a record, if it takes a record. -/
def plan? (s : Shape) : Option Plan :=
  let declared (fs : List (String × Presence × Shape)) (otherwise : Shape) : Plan :=
    ⟨fun k => (fs.lookup k).elim otherwise Prod.snd, fun k => (fs.lookup k).isSome⟩
  match s.core with
  | any => some ⟨fun _ => .any, fun _ => false⟩
  | choice _ => some ⟨fun _ => onlyNull, fun _ => false⟩
  | table value => some ⟨fun _ => value, fun _ => false⟩
  | lenient fs => some ⟨fun k => (fs.lookup k).getD .ignored, fun _ => false⟩
  | strict fs => some (declared fs .ignored)
  | extensible fs _ => some (declared fs .any)
  | _ => none

/-- Fields of which each name stands once, with the value that counts. -/
def distinct : List (String × Json) → List (String × Json)
  | [] => []
  | (k, v) :: fs =>
    let rest := distinct fs
    if rest.any (fun f => f.1 == k) then rest else (k, v) :: rest

/-- What is kept of a field: its value, if it is there and not `null`. -/
def keep (vs : List (String × Json)) (k : String) : List (String × Json) :=
  Json.optional k ((Json.last? k vs).filter (!·.isNull))

/-- What is kept of a field of a strict record. -/
def keepStrict (vs : List (String × Json)) :
    String × Presence × Shape → Except Fault (List (String × Json))
  | (k, p, _) => if p = .required ∧ (Json.last? k vs).isNone then .error .wrong else .ok (keep vs k)

/-- Whether a name stands for a text, and stands once. -/
def hasText (vs : List (String × Json)) (k : String) : Bool :=
  match vs.filter (fun f => f.1 == k) with
  | [(_, .text _)] => true
  | _ => false

/-- What is kept of the fields of a record when all are read. -/
def finish (s : Shape) (vs : List (String × Json)) : Except Fault Json :=
  match s.core with
  | choice names =>
    match vs with
    | [(k, _)] => if k ∈ names then .ok (.text k) else .error .wrong
    | _ => .error .wrong
  | lenient fs => .ok (.record (fs.flatMap (fun (k, _) => keep vs k)))
  | strict fs => do return .record (← fs.mapM (keepStrict vs)).flatten
  | extensible fs texts => do
    let kept ← fs.mapM (keepStrict vs)
    if texts.all (hasText vs) then return .record kept.flatten else .error .wrong
  | _ => .ok (.record (distinct vs))

end Shape

namespace Draft

mutual
/-- What a shape takes and keeps of a value. No more brackets may be open at once than there are
levels. -/
def read (levels : Nat) (s : Shape) : Draft → Except Fault Json
  | null => s.ofNull
  | bool b => s.ofBool b
  | integer n => s.ofInteger n
  | real x => s.ofReal x
  | text t => s.ofText t
  | flawedText f | flawedScalar f => .error f.read
  | missing f => .error f
  | array items stop =>
    match levels, s.row? with
    | levels + 1, some (.same item) => do
      let vs ← readItems levels item items
      orFault stop
      return .array vs
    | levels + 1, some (.fields fs) => do
      return .record (← readRow levels fs items stop).flatten
    | _, _ => .error .wrong
  | record fields stop =>
    match levels, s.plan? with
    | levels + 1, some plan => do
      let vs ← readFields levels plan [] fields
      orFault stop
      s.finish vs
    | _, _ => .error .wrong

/-- Reads items of one shape. -/
def readItems (levels : Nat) (s : Shape) : List Draft → Except Fault (List Json)
  | [] => .ok []
  | d :: ds => do
    let v ← read levels s d
    return v :: (← readItems levels s ds)

/-- Reads the values of the fields of a strict record in order. -/
def readRow (levels : Nat) : List (String × Presence × Shape) → List Draft → Option Fault →
    Except Fault (List (List (String × Json)))
  | fs, [], stop => do
    orFault stop
    if fs.all (fun (_, p, _) => p = .assumed) then return [] else .error .wrong
  | [], _ :: _, _ => .error .wrong
  | (k, _, s) :: fs, d :: ds, stop => do
    let v ← read levels s d
    return Shape.keep [(k, v)] k :: (← readRow levels fs ds stop)

/-- Reads fields, after others of which the names are known. -/
def readFields (levels : Nat) (plan : Shape.Plan) (before : List String) :
    List (Except Flaw String × Draft) → Except Fault (List (String × Json))
  | [] => .ok []
  | (.error f, _) :: _ => .error f.read
  | (.ok k, d) :: fs => do
    if plan.isUnique k ∧ k ∈ before then .error .wrong
    match plan.shapeOf k with
    | .ignored => do
      d.pass
      readFields levels plan (k :: before) fs
    | s => do
      let v ← read levels s d
      return (k, v) :: (← readFields levels plan (k :: before) fs)
end

end Draft

/-- The number of brackets that may be open at once in a document. -/
def depthLimit : Nat := 127

/-- What a shape takes and keeps of a document. -/
def Document.read (d : Document) (s : Shape) : Except Fault Json := do
  let v ← d.value.read depthLimit s
  if d.trailing then .error .wrong else return v

/-- What a shape takes and keeps of a value that is whole. The shape has no say in how deep the
value is. -/
def conform (s : Shape) (j : Json) : Option Json := ((Draft.ofJson j).read depthLimit s).toOption

end Prewarm.Json
