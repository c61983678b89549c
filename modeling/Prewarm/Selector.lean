import Prewarm.Metadata
import Prewarm.Text.Split

/-!
# Label selectors

A selector is a list of requirements on the labels of an object, all of which have to hold. As a
text, the requirements stand one after the other with commas between them.
-/

namespace Prewarm

/-- A requirement on labels. -/
inductive Requirement where
  /-- The label has the value. -/
  | equals (key value : String)
  /-- The label is absent or has another value. -/
  | differs (key value : String)
  /-- The label is there, whatever its value. -/
  | present (key : String)
  deriving DecidableEq, Repr

namespace Requirement

/-- Whether labels meet a requirement. -/
def holds (labels : Labels) : Requirement → Bool
  | equals k v => labels.get? k == some v
  | differs k v => labels.get? k != some v
  | present k => labels.contains k

/-- A requirement as a text. -/
def text : Requirement → String
  | equals k v => k ++ "=" ++ v
  | differs k v => k ++ "!=" ++ v
  | present k => k

end Requirement

/-- Requirements that all have to hold. -/
abbrev Selector := List Requirement

namespace Selector

/-- Whether labels meet every requirement. -/
def accepts (s : Selector) (labels : Labels) : Bool := s.all (·.holds labels)

/-- A selector as a text. -/
def text (s : Selector) : String := ",".intercalate (s.map Requirement.text)

end Selector

end Prewarm
