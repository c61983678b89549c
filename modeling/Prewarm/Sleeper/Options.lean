/-!
# The command line of the program that sleeps

The program sleeps, or leaves a copy of itself for another container. An option takes its value
from the next argument or after an equals sign. Arguments are read from the left, and the first
one that is a fault or asks for help decides.
-/

namespace Prewarm.Sleeper

/-- What the program does. -/
inductive Mode where
  | sleep
  /-- Leaves a copy of itself at a place. -/
  | copy (destination : String)
  deriving DecidableEq, Repr

/-- Why a command line does not say what to do. -/
inductive Refusal where
  /-- The arguments are not used as they should be. -/
  | usage
  /-- The arguments ask for the text on how to use them. -/
  | help
  /-- The arguments ask for the version of the program. -/
  | version
  deriving DecidableEq, Repr

/-- The exit code after a command line that does not say what to do. -/
def Refusal.exitCode : Refusal → Nat
  | usage => 2
  | help | version => 0

/-- The options of the program that take a value. -/
inductive OptionName where
  | mode
  | destination
  deriving DecidableEq, Repr

/-- An argument by itself. -/
inductive Argument where
  /-- An option, perhaps with its value after an equals sign. -/
  | option (name : OptionName) (value : Option String)
  /-- A call for help or the version. -/
  | call (r : Refusal)
  /-- The mark after which there are no options. -/
  | endOfOptions
  /-- Something that is no option and can be a value. -/
  | word (s : String)
  /-- Something that looks like an option and is none. -/
  | unknown
  deriving DecidableEq, Repr

/-- The option with a name. -/
def OptionName.ofText? (s : List Char) : Option OptionName :=
  if s = "mode".toList then some .mode
  else if s = "to".toList then some .destination
  else none

/-- What an argument with two dashes before it is. -/
def readLong (s : List Char) : Argument :=
  let name := s.takeWhile (· ≠ '=')
  let value := match s.dropWhile (· ≠ '=') with
    | [] => none
    | _ :: v => some (String.ofList v)
  match OptionName.ofText? name with
  | some o => .option o value
  | none =>
    if value.isSome then .unknown
    else if name = "help".toList then .call .help
    else if name = "version".toList then .call .version
    else .unknown

/-- What an argument is. -/
def Argument.read (arg : String) : Argument :=
  match arg.toList with
  | ['-', '-'] => .endOfOptions
  | '-' :: '-' :: s => readLong s
  | '-' :: c :: _ =>
    if c = 'h' then .call .help
    else if c = 'V' then .call .version
    else .unknown
  | _ => .word arg

/-- The values of options. -/
structure Values where
  /-- Whether the program is to copy itself, if its mode was said. -/
  copies : Option Bool := none
  destination : Option String := none
  deriving DecidableEq, Repr

/-- The values with one more. No option is used twice, a mode is one of the two, and a destination
is not empty. -/
def Values.set (v : Values) (o : OptionName) (s : String) : Option Values :=
  match o with
  | .mode =>
    if v.copies.isSome then none
    else if s = "sleep" then some { v with copies := some false }
    else if s = "copy" then some { v with copies := some true }
    else none
  | .destination =>
    if v.destination.isSome ∨ s = "" then none else some { v with destination := some s }

/-- Reads arguments from the left. -/
def readAll (v : Values) : List Argument → Except Refusal Values
  | [] => .ok v
  | .option o (some s) :: rest => do readAll (← (v.set o s).elim (.error .usage) .ok) rest
  | .option o none :: .word s :: rest =>
    do readAll (← (v.set o s).elim (.error .usage) .ok) rest
  | .call r :: _ => .error r
  | [.endOfOptions] => .ok v
  | _ => .error .usage

/-- What a command line says to do. A copy needs a destination. -/
def parse (args : List String) : Except Refusal Mode := do
  match ← readAll {} (args.map Argument.read) with
  | ⟨some false, _⟩ => return .sleep
  | ⟨some true, some d⟩ => return .copy d
  | _ => throw .usage

end Prewarm.Sleeper
