/-!
# HexPulse — CommandLine — Arguments

Arguments taken apart into options and operands.  A long option starts with two dashes and may
have its value behind an equals sign; short options are single characters and may share a dash.
What follows two dashes is an operand in any case.
-/

namespace HexPulse

/-- An option that a command knows. -/
structure OptionSpec where
  name : String
  short : Option Char
  takesValue : Bool
  deriving DecidableEq, Repr

/-- Why arguments make no command. -/
inductive UsageError where
  | unknownOption (option : String)
  | missingValue (option : String)
  | needlessValue (option : String)
  | missingOption (option : String)
  | badValue (option value : String)
  | missingFile (path : String)
  | missingOperand (operand : String)
  | extraOperands (operands : List String)
  | missingCommand
  | unknownCommand (command : String)
  deriving DecidableEq, Repr

/-- The text shown for arguments that make no command. -/
def UsageError.message : UsageError → String
  | .unknownOption o => s!"No such option: {o}"
  | .missingValue o => s!"Option '{o}' requires an argument."
  | .needlessValue o => s!"Option '{o}' does not take a value."
  | .missingOption o => s!"Missing option '{o}'."
  | .badValue o value => s!"Invalid value for '{o}': '{value}'."
  | .missingFile path => s!"File '{path}' does not exist."
  | .missingOperand o => s!"Missing argument '{o}'."
  | .extraOperands operands => "Got unexpected extra arguments: " ++ " ".intercalate operands
  | .missingCommand => "Missing command."
  | .unknownCommand c => s!"No such command '{c}'."

/-- Arguments taken apart: options by name with their values, in order, and operands. -/
structure Arguments where
  options : List (String × String)
  operands : List String
  deriving DecidableEq, Repr

namespace Arguments

/-- The arguments behind an option. -/
def behind (options : List (String × String)) (a : Arguments) : Arguments :=
  { a with options := options ++ a.options }

/-- The arguments behind an operand. -/
def behindOperand (operand : String) (a : Arguments) : Arguments :=
  { a with operands := operand :: a.operands }

/-- The option is given. -/
def has (a : Arguments) (name : String) : Bool := a.options.any fun o => o.1 = name

/-- The values of an option, in order. -/
def values (a : Arguments) (name : String) : List String :=
  (a.options.filter fun o => o.1 = name).map (·.2)

/-- The value of an option; the last one counts. -/
def value? (a : Arguments) (name : String) : Option String := (a.values name).getLast?

/-- The options at the front of what one word says, and the option that waits for a value. -/
abbrev WordOptions := List (String × String) × Option OptionSpec

/-- The short options behind one dash.  An option with a value takes the rest of the word for it. -/
def shortOptions (specs : List OptionSpec) : List Char → Except UsageError WordOptions
  | [] => .ok ([], none)
  | c :: cs =>
    match specs.find? fun o => o.short = some c with
    | none => .error (.unknownOption (String.ofList ['-', c]))
    | some o =>
      if o.takesValue then
        if cs.isEmpty then .ok ([], some o) else .ok ([(o.name, String.ofList cs)], none)
      else (shortOptions specs cs).map fun (options, waiting) => ((o.name, "") :: options, waiting)

/-- The options that one word says. -/
def wordOptions (specs : List OptionSpec) (word : List Char) : Except UsageError WordOptions :=
  let name := String.ofList (word.takeWhile (· ≠ '='))
  let value := (word.dropWhile (· ≠ '=')).tail
  match specs.find? fun o => o.name = name with
  | some o =>
    if word.contains '=' then
      if o.takesValue then .ok ([(name, String.ofList value)], none)
      else .error (.needlessValue name)
    else if o.takesValue then .ok ([], some o)
    else .ok ([(name, "")], none)
  | none =>
    match word with
    | '-' :: '-' :: _ => .error (.unknownOption name)
    | _ => shortOptions specs word.tail

/-- The word is an option. -/
def isOption (word : List Char) : Bool := word.head? = some '-' && 1 < word.length

/-- Takes arguments apart.  Options may stand behind operands only if they are `mixed`; if not,
all from the first operand on is left as it is. -/
def scan (specs : List OptionSpec) (mixed : Bool) : List String → Except UsageError Arguments
  | [] => .ok ⟨[], []⟩
  | word :: words =>
    if word = "--" then .ok ⟨[], words⟩
    else if isOption word.toList then
      match wordOptions specs word.toList with
      | .error e => .error e
      | .ok (options, none) => (scan specs mixed words).map (behind options)
      | .ok (options, some waiting) =>
        match words with
        | [] => .error (.missingValue waiting.name)
        | value :: words =>
          (scan specs mixed words).map (behind (options ++ [(waiting.name, value)]))
    else if mixed then (scan specs mixed words).map (behindOperand word)
    else .ok ⟨[], word :: words⟩

end Arguments

end HexPulse
