import Prewarm.Json.Writer

/-!
# YAML

JSON values in the block style of YAML: a field or an item to a line, what is inside it set in by
two columns, and the items of an array under the column of its name. A text stands as it is unless
it would be read as something else.
-/

namespace Prewarm.Yaml

/-- The characters that give a text a meaning if it begins with one of them. -/
def indicators : List Char := "-?:,[]\x7b\x7d#&*!|>'\"%@`".toList

/-- Texts that stand for a value that is no text. -/
def reserved : List String :=
  ["~", "null", "Null", "NULL", "true", "True", "TRUE", "false", "False", "FALSE"]

/-- Whether a text has a colon or a number sign where it would end the text. -/
def breaksOff : List Char → Bool
  | [] => false
  | [c] => c == ':' || c == ' '
  | ':' :: ' ' :: _ | ' ' :: '#' :: _ => true
  | _ :: s => breaksOff s

/-- Whether a text stands as it is. -/
def isPlain (s : String) : Bool :=
  match s.toList with
  | [] => false
  | c :: cs =>
    !(indicators.contains c || c == ' ' || c.isDigit || c == '+' || c == '.' ||
      reserved.contains s || breaksOff (c :: cs))

/-- A text in quotes. A quote inside it is written twice. -/
def quoted (s : String) : String :=
  String.ofList ('\'' :: s.toList.flatMap (fun c => if c = '\'' then ['\'', '\''] else [c]) ++
    ['\''])

/-- A text. -/
def scalar (s : String) : String := if isPlain s then s else quoted s

/-- Lines of which the first begins with a mark and the others are set in as far. -/
def hang : List String → List String
  | [] => []
  | l :: ls => ("- " ++ l) :: ls.map ("  " ++ ·)

/-- Whether a value stands on one line. -/
def isInline : Json → Bool
  | .array (_ :: _) | .record (_ :: _) => false
  | _ => true

/-- Whether a value is an array. -/
def isArray : Json → Bool
  | .array _ => true
  | _ => false

/-- The lines of a field, given the lines of its value. -/
def fieldLines (name : String) (v : Json) (ls : List String) : List String :=
  if isInline v then [scalar name ++ ": " ++ String.join ls]
  else if isArray v then (scalar name ++ ":") :: ls
  else (scalar name ++ ":") :: ls.map ("  " ++ ·)

mutual
/-- The lines of a value. -/
def lines : Json → List String
  | .text s => [scalar s]
  | .array [] => ["[]"]
  | .record [] => ["\x7b\x7d"]
  | .array vs => itemsLines vs
  | .record fs => fieldsLines fs
  | .null => ["null"]
  | .bool b => [toString b]
  | .integer n => [toString n]
  | .real x => [Json.render (.real x)]

/-- The lines of the items of an array. -/
def itemsLines : List Json → List String
  | [] => []
  | v :: vs => hang (lines v) ++ itemsLines vs

/-- The lines of the fields of a record. -/
def fieldsLines : List (String × Json) → List String
  | [] => []
  | (k, v) :: fs => fieldLines k v (lines v) ++ fieldsLines fs
end

/-- The document of a value. -/
def render (v : Json) : String := String.join ((lines v).map (· ++ "\n"))

end Prewarm.Yaml
