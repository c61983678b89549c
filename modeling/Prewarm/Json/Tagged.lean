import Prewarm.Json.Shape

/-!
# Tagged values

A value of one of several shapes beside a tag that names the shape. The two are fields of a record,
in any order and among others that are passed over, or the two items of an array. If the tag comes
first, the content is read by its shape at once; content that comes first is looked into as a whole
and read by its shape when the tag is known.
-/

namespace Prewarm.Json

/-- How tagged values are written. -/
structure Tagging where
  /-- The field of the tag. -/
  tag : String
  /-- The field of the content. -/
  content : String
  /-- The shapes of the content by the tags. -/
  shapes : List (String × Shape)

namespace Tagging

/-- The shape that a tag names. -/
def shape (g : Tagging) (t : String) : Except Fault (String × Shape) :=
  (g.shapes.lookup t).elim (.error .wrong) (fun s => .ok (t, s))

/-- Reads a tag that is a text. -/
def plainTag (g : Tagging) : Draft → Except Fault (String × Shape)
  | .text t => g.shape t
  | d => .error d.refusal

/-- Reads a tag: a text, or a record with `null` in the field it names. -/
def fullTag (g : Tagging) : Draft → Except Fault (String × Shape)
  | .text t => g.shape t
  | .flawedText f => .error f.read
  | .missing f => .error f
  | .record ((.error f, _) :: _) _ => .error f.read
  | .record ((.ok t, v) :: more) stop => do
    let r ← g.shape t
    match v with
    | .null => pure ()
    | v => .error v.refusal
    if more.isEmpty then Draft.orFault stop else .error .wrong
    return r
  | _ => .error .wrong

/-- What is known of a tagged value after some of its fields. -/
inductive Known where
  | nothing
  /-- The tag and the shape that it names. -/
  | tag (t : String) (s : Shape)
  /-- The content, which was looked into. -/
  | content (d : Draft)
  | both (t : String) (v : Json)

/-- Reads the fields of a tagged value. -/
def readFields (g : Tagging) (levels : Nat) (known : Known) :
    List (Except Flaw String × Draft) → Except Fault Known
  | [] => .ok known
  | (.error f, _) :: _ => .error f.read
  | (.ok k, d) :: fs => do
    if k = g.tag then
      match known with
      | .nothing => do
        let (t, s) ← g.fullTag d
        readFields g levels (.tag t s) fs
      | .content c => do
        let (t, s) ← g.fullTag d
        readFields g levels (.both t (← c.read levels s)) fs
      | _ => .error .wrong
    else if k = g.content then
      match known with
      | .nothing => do
        let _ ← d.read levels .any
        readFields g levels (.content d) fs
      | .tag t s => do readFields g levels (.both t (← d.read levels s)) fs
      | _ => .error .wrong
    else do
      d.pass
      readFields g levels known fs

/-- Reads the items of a tagged value. -/
def readItems (g : Tagging) (levels : Nat) :
    List Draft → Option Fault → Except Fault (String × Json)
  | [], stop => do
    Draft.orFault stop
    .error .wrong
  | [t], stop => do
    let _ ← g.plainTag t
    Draft.orFault stop
    .error .wrong
  | t :: c :: more, stop => do
    let (t, s) ← g.plainTag t
    let v ← c.read levels s
    if more.isEmpty then Draft.orFault stop else .error .wrong
    return (t, v)

/-- The tag of a tagged value, and what the shape that it names keeps of the content. -/
def read (g : Tagging) : Draft → Except Fault (String × Json)
  | .array items stop => g.readItems (depthLimit - 1) items stop
  | .record fields stop => do
    match ← g.readFields (depthLimit - 1) .nothing fields with
    | .both t v => do
      Draft.orFault stop
      return (t, v)
    | _ => do
      Draft.orFault stop
      .error .wrong
  | d => .error d.refusal

end Tagging

/-- The tagged value that a document is. -/
def Document.readTagged (d : Document) (g : Tagging) : Except Fault (String × Json) := do
  let r ← g.read d.value
  if d.trailing then .error .wrong else return r

end Prewarm.Json
