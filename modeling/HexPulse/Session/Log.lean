import HexPulse.Data.Inline
import HexPulse.Event
import HexPulse.Text.Capital

/-!
# HexPulse — Session — Log

The log of a session.  An event is logged as a record of plain data and as a line of text; the
line leaves out what would make it long.
-/

namespace HexPulse

variable {α : Type}

/-- An event as it is logged. -/
structure LogRecord (α : Type) where
  timestamp : Data α
  level : String
  event : String
  payload : Table String (Data α)
  deriving Repr

/-- A name that a payload may not use. -/
structure ReservedName where
  name : String
  deriving DecidableEq, Repr

namespace LogRecord

/-- The names that no payload may use. -/
def reservedNames : List String := ["self", "level", "event"]

/-- The events that are more than details. -/
def noteworthy : List String :=
  ["HEARTBEAT", "HEART_DESTROYED", "TARGET_KILLED", "TERRAIN_PLACED", "NODES_STALLED"]

/-- The level at which an event is logged. -/
def levelOf (event : String) : String := if noteworthy.contains event then "info" else "debug"

/-- The fields of a payload that its line leaves out. -/
def unlisted : List String := ["state", "phases"]

variable [Scalar α]

/-- The record of an event at a level.  A payload may bring its own time, as `ts`. -/
def make (now level event : String) (payload : Table String (Data α)) :
    Except ReservedName (LogRecord α) :=
  match payload.keys.find? reservedNames.contains with
  | some name => .error ⟨name⟩
  | none =>
    let own := (payload.get? "ts").getD .null
    let timestamp := if own.isVoid then .text now else own
    .ok ⟨timestamp, Text.capitals level, event, payload.erase "ts"⟩

/-- The record of an event that is named, as `type`, among its own fields. -/
def ofFields (now : String) (fields : Table String (Data α)) : Except ReservedName (LogRecord α) :=
  let event := ((fields.get? "type").getD (.text "EVENT")).display Text.quoted
  make now (levelOf event) event (fields.erase "type")

/-- The record of a journal entry. -/
def ofEntry (now : String) (e : Entry α) : LogRecord α where
  timestamp := .text now
  level := Text.capitals (levelOf e.event.name)
  event := e.event.name
  payload := .ofList (("frame", .int e.frame) :: e.event.fields)

/-- The line of a record, with a way to quote texts. -/
def line (quote : String → String) (r : LogRecord α) : String :=
  let listed := r.payload.filter fun name _ => !unlisted.contains name
  let details := " ".intercalate (listed.entries.map fun (name, d) => name ++ "=" ++ d.display quote)
  let time := r.timestamp.display quote
  s!"{time} [{r.level}] {r.event} {details}"

omit [Scalar α] in
/-- A record as plain data. -/
def toData (r : LogRecord α) : Data α := .record [
  ("timestamp", r.timestamp),
  ("level", .text r.level),
  ("event", .text r.event),
  ("payload", .record r.payload.entries)]

end LogRecord

end HexPulse
