import Prewarm.Cluster.Calls
import Prewarm.Json.Tagged
import Prewarm.Reflector

/-!
# Watches

The reply to a watch is a stream of lines, each of which is one change or says what went wrong. A
line that breaks off is left out.
-/

namespace Prewarm.Cluster

/-- The seconds after which the cluster ends a watch. -/
def watchSeconds : Nat := 290

/-- Where the objects of a type are watched from a version on. -/
def watchAddress? (t : ObjectType) (ns : Option String) (s : Selector) (version : String) :
    Option Address :=
  Address.to? (collection t ns)
    ([("watch", "true"), ("timeoutSeconds", toString watchSeconds)] ++ selectorQuery s ++
      [("allowWatchBookmarks", "true"), ("resourceVersion", version)])

/-- The shape of a bookmark: an object of which nothing but the version is told. -/
def bookmarkShape : Json.Shape :=
  .extensible
    [("metadata", .required, .strict
      [("resourceVersion", .required, .string), ("annotations", .assumed, Labels.shape)])]
    ["apiVersion", "kind"]

/-- How a line of a watch is written: an object by the kind of its change, a bookmark, or a status
by which the watch breaks. -/
def tagging (object : Json.Shape) : Json.Tagging where
  tag := "type"
  content := "object"
  shapes := [("ADDED", object), ("MODIFIED", object), ("DELETED", object),
    ("BOOKMARK", bookmarkShape), ("ERROR", Refusal.shape)]

/-- The failure that a refusal in a watch is. -/
def Refusal.toWatchError (r : Refusal) : ClusterError :=
  if r.code = 410 then .expired r.message else .watch r.code r.message

/-- What a line of a watch tells of, by its tag. -/
def toldBy {α : Type} [Listed α] (tag : String) (j : Json) : Except ClusterError (Change α) :=
  match tag with
  | "ADDED" => .ok (.added (Listed.ofJson j))
  | "MODIFIED" => .ok (.modified (Listed.ofJson j))
  | "DELETED" => .ok (.deleted (Listed.ofJson j))
  | "BOOKMARK" => .ok (.bookmark (((j.field? "metadata").getD .null).textAt "resourceVersion"))
  | _ => .error (Refusal.ofJson j).toWatchError

/-- What a line of a watch tells of, if it does not break off. A line that is none of a watch may be
a status that refuses it. -/
def ofLine {α : Type} [Listed α] (line : Bytes) : Option (Except ClusterError (Change α)) :=
  let doc := Json.Document.ofBytes line
  match doc.readTagged (tagging (Listed.shape α)) with
  | .ok (tag, j) => some (toldBy tag j)
  | .error .cut => none
  | .error .wrong =>
    some (.error ((Refusal.ofDocument? doc).elim .unreadable (fun r => .refused r.code)))

/-- The lines of a reply: what stands between its line feeds, less a carriage return at the end. -/
def linesOf (s : Bytes) : List Bytes :=
  (s.splitOn 0x0a).map (fun line => if line.getLast? = some 0x0d then line.dropLast else line)

/-- What the reply to a watch tells of. -/
def ofReply {α : Type} [Listed α] (r : Reply) : List (Except ClusterError (Change α)) :=
  (linesOf r.body).filterMap ofLine

end Prewarm.Cluster
