import HexPulse.Document
import HexPulse.Scenario.Intake
import HexPulse.Settings.Environment

/-!
# HexPulse — Session — Load

The documents that a session starts from.
-/

namespace HexPulse

/-- Why a session cannot start from its documents. -/
inductive LoadError where
  | unreadable (noun : String) (flaw : Document.Flaw)
  | environment (error : UnreadableVariable)
  | document (error : DocumentError)
  | invalid (issues : List Issue)
  deriving DecidableEq, Repr

/-- The text shown for an issue. -/
def Issue.text (i : Issue) : String :=
  let place := ".".intercalate i.location
  let reason := i.kind.message?.getD i.kind.name
  if place.isEmpty then reason else place ++ ": " ++ reason

/-- The text shown for a document that a session cannot start from. -/
def LoadError.message : LoadError → String
  | .unreadable noun _ => noun ++ " file is not well-formed."
  | .environment e => e.message
  | .document (.notRecord noun) => ((DocumentError.notRecord noun).message?).getD noun
  | .document (.invalid issues) => "; ".intercalate (issues.map Issue.text)
  | .invalid issues => "; ".intercalate (issues.map Issue.text)

variable {α : Type} [Scalar α]

/-- The data of a document. -/
def loadDocument (noun text : String) : Except LoadError (Data α) :=
  (Document.read text).mapError (.unreadable noun)

/-- Settings from a document, or from the environment alone where there is none.  A seed that is
given counts. -/
def Settings.load (environment : List (String × String)) (config : Option String)
    (seed : Option Int) : Except LoadError (Settings α) := do
  let s : Settings α ← match config with
    | none =>
      let intake ← (Settings.read environment []).mapError .environment
      intake.result.mapError .invalid
    | some text =>
      let d ← loadDocument "Config" text
      (Settings.ofDocument environment d).mapError .document
  return { s with seed := seed.getD s.seed }

/-- A scenario from a document, which is written in 16-bit units. -/
def Scenario.load (rules : Rules) (text : String) : Except LoadError (Scenario α) := do
  let d ← loadDocument "Scenario" text
  let fields ← d.documentFields "Scenario" |>.mapError .document
  (Scenario.read rules .units (.record fields)).mapError .invalid

end HexPulse
