import Prewarm.Table
import Prewarm.Text.Blank
import Prewarm.Text.Split

/-!
# Challenges

A registry that wants to know who asks answers with a challenge: a scheme, and parameters after it
such as `service="registry",scope="pull,push"`. A value in quotes may hold commas, and a backslash
in it makes the next character stand for itself; one without quotes ends at the next comma.
-/

namespace Prewarm

/-- How a registry wants to be told who asks. -/
structure Challenge where
  scheme : String
  params : Table String String

namespace Challenge

/-- A text with its ASCII capitals made small. -/
def lower (s : List Char) : List Char := s.map Char.toLower

/-- The value in quotes after the opening one, and what follows the closing one. A value that is
not closed ends with the text. -/
def quotedValue : List Char → List Char × List Char
  | [] => ([], [])
  | '\\' :: c :: s =>
    let (v, rest) := quotedValue s
    (c :: v, rest)
  | ['\\'] => ([], [])
  | c :: s =>
    if c = '"' then ([], s)
    else
      let (v, rest) := quotedValue s
      (c :: v, rest)

/-- The value at the beginning of a text, and what follows it. -/
def value (s : List Char) : List Char × List Char :=
  match s with
  | '"' :: s => quotedValue s
  | s => (s.takeWhile (· ≠ ','), s.dropWhile (· ≠ ','))

/-- Whether a character stands between parameters. -/
def isGap (c : Char) : Bool := c == ',' || Text.isBlank c

/-- One parameter, and what follows it. There is none if the text is at its end or if nothing
stands before its equals sign. -/
def param? (s : List Char) : Option ((List Char × List Char) × List Char) :=
  let s := s.dropWhile isGap
  let key := s.takeWhile (· ≠ '=')
  if key = [] then none
  else
    let (v, rest) := value ((s.dropWhile (· ≠ '=')).drop 1)
    some ((lower (Text.trim key), v), rest)

/-- What is left after a quoted value is not longer. -/
theorem quotedValue_length_le (s : List Char) : (quotedValue s).2.length ≤ s.length := by
  fun_induction quotedValue s <;> simp_all <;> omega

/-- What is left after a value is not longer. -/
theorem value_length_le (s : List Char) : (value s).2.length ≤ s.length := by
  unfold value
  split
  · rename_i s
    exact Nat.le_succ_of_le (quotedValue_length_le s)
  · exact (List.dropWhile_sublist _).length_le

/-- A parameter takes at least one character. -/
theorem param?_length_lt {s rest : List Char} {p : List Char × List Char}
    (h : param? s = some (p, rest)) : rest.length < s.length := by
  simp only [param?] at h
  split at h
  · cases h
  · rename_i hk
    obtain ⟨-, rfl⟩ := Prod.mk.inj (Option.some.inj h)
    refine Nat.lt_of_le_of_lt (value_length_le _) ?_
    refine Nat.lt_of_lt_of_le ?_ (List.dropWhile_sublist isGap).length_le
    generalize s.dropWhile isGap = t at hk
    cases t with
    | nil => simp at hk
    | cons c t =>
      by_cases hc : c = '='
      · simp [hc] at hk
      · have hle := (List.dropWhile_sublist (l := t) fun c => decide (c ≠ '=')).length_le
        simp only [ne_eq, decide_not, List.length_drop, List.length_cons] at hle ⊢
        simp [hc]
        omega

/-- The parameters of a text, as they stand. -/
def paramsOf (s : List Char) : List (List Char × List Char) :=
  match _h : param? s with
  | none => []
  | some (p, rest) => p :: paramsOf rest
termination_by s.length
decreasing_by exact param?_length_lt _h

/-- The challenge that a text states. Of two parameters with one name the later stands. -/
def parse (header : String) : Challenge :=
  let s := Text.trim header.toList
  let (scheme, rest) := (Text.cutFirst ' ' s).getD (s, [])
  ⟨String.ofList (lower scheme),
    .ofList ((paramsOf rest).map (fun (k, v) => (String.ofList k, String.ofList v)))⟩

end Challenge

end Prewarm
