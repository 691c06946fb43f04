import HexPulse.CommandLine.Arguments
import HexPulse.Intake.Scalars

/-!
# HexPulse — CommandLine — Command

What the program can be told to do, and how it is said.
-/

namespace HexPulse

/-- How a scenario is to be simulated. -/
structure Simulation (α : Type) where
  scenario : String
  config : Option String
  frames : Int
  dt : α
  seed : Option Int
  runsRoot : String
  deriving Repr

inductive Command (α : Type) where
  | help
  | kinds
  | describe (kind : String)
  | validate (scenarios : List String)
  | init (output : String)
  | simulate (simulation : Simulation α)
  deriving Repr

/-- A command, and whether to say more than needed. -/
structure Invocation (α : Type) where
  verbose : Bool
  command : Command α
  deriving Repr

namespace Command

variable {α : Type} [Scalar α]

/-! ### Values of options -/

/-- The value of an option as an integer. -/
def integer? (value : String) : Option Int := (Intake.integerOfText value).toOption

/-- The value of an option as a path, which holds no null character. -/
def path? (value : String) : Option String :=
  if value.toList.contains (Char.ofNat 0) then none else some value

/-- The value of an option, if it is given, by a reader that may refuse it. -/
def optionValue {β : Type} (a : Arguments) (name : String) (read : String → Option β) :
    Except UsageError (Option β) :=
  match a.value? name with
  | none => .ok none
  | some value =>
    match read value with
    | some x => .ok (some x)
    | none => .error (.badValue name value)

/-! ### Options -/

def helpOption : OptionSpec := ⟨"--help", none, false⟩

def verboseOption : OptionSpec := ⟨"--verbose", some 'v', false⟩

/-- A long option with a value. -/
def valued (name : String) : OptionSpec := ⟨name, none, true⟩

def simulateOptions : List OptionSpec :=
  [helpOption, ⟨"--scenario", some 's', true⟩, ⟨"--config", some 'c', true⟩, valued "--frames",
    valued "--dt", valued "--seed", valued "--runs-root"]

/-- The least duration of a frame. -/
def leastDuration : α := 0.0001

/-! ### Commands -/

/-- A command without operands. -/
def alone (a : Arguments) (command : Command α) : Except UsageError (Command α) :=
  match a.operands with
  | [] => .ok command
  | operands => .error (.extraOperands operands)

/-- Arguments of a command; help comes before everything else. -/
def withOptions (specs : List OptionSpec) (words : List String)
    (read : Arguments → Except UsageError (Command α)) : Except UsageError (Command α) := do
  let a ← Arguments.scan specs true words
  if a.has helpOption.name then return .help else read a

/-- The kind to describe. -/
def readDescribe (a : Arguments) : Except UsageError (Command α) :=
  match a.operands with
  | [] => .error (.missingOperand "KIND")
  | [kind] => .ok (.describe kind)
  | _ :: operands => .error (.extraOperands operands)

/-- The scenarios to validate. -/
def readValidate (a : Arguments) : Except UsageError (Command α) :=
  match a.values "--scenario" with
  | [] => .error (.missingOption "--scenario")
  | scenarios => alone a (.validate scenarios)

/-- What to simulate, and how. -/
def readSimulate (a : Arguments) : Except UsageError (Command α) := do
  match a.value? "--scenario" with
  | none => throw (.missingOption "--scenario")
  | some scenario =>
    let frames ← optionValue a "--frames" fun value => (integer? value).filter (1 ≤ ·)
    let dt ← optionValue a "--dt" fun value =>
      (Intake.numberOfText? value).filter fun x => decide (leastDuration ≤ x)
    let seed ← optionValue a "--seed" integer?
    let runsRoot ← optionValue a "--runs-root" path?
    alone a (.simulate {
      scenario := scenario
      config := a.value? "--config"
      frames := frames.getD 600
      dt := dt.getD (1.0 / 60.0)
      seed := seed
      runsRoot := runsRoot.getD "runs" })

/-- The command of a name with its arguments. -/
def read (name : String) (words : List String) : Except UsageError (Command α) :=
  match name with
  | "kinds" => withOptions [helpOption] words fun a => alone a .kinds
  | "describe" => withOptions [helpOption] words readDescribe
  | "validate" => withOptions [helpOption, valued "--scenario"] words readValidate
  | "init" =>
    withOptions [helpOption, valued "--output"] words fun a => do
      let output ← optionValue a "--output" path?
      alone a (.init (output.getD "scenarios/starter.json"))
  | "simulate" => withOptions simulateOptions words readSimulate
  | _ => .error (.unknownCommand name)

/-- The files that a command reads. -/
def reads : Command α → List String
  | .validate scenarios => scenarios
  | .simulate s => s.scenario :: s.config.toList
  | _ => []

end Command

/-- What the arguments of the program say. -/
def Invocation.read {α : Type} [Scalar α] (words : List String) :
    Except UsageError (Invocation α) := do
  let a ← Arguments.scan [Command.helpOption, Command.verboseOption] false words
  let verbose := a.has Command.verboseOption.name
  if a.has Command.helpOption.name then return ⟨verbose, .help⟩
  match a.operands with
  | [] => throw .missingCommand
  | name :: words => return ⟨verbose, ← Command.read name words⟩

end HexPulse
