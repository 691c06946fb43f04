import HexPulse.Document.Json
import HexPulse.Settings.Intake
import HexPulse.Text.Small

/-!
# HexPulse — Settings — Environment

Settings from data and the environment.  Variables fill in what the data leaves out, field by
field.  How variables are looked up is part of the data (`Lookup`): what their names start with,
what stands between a section and its field, and whether capitals count.  If nothing else is said,
capitals count neither in the names of variables nor in those of the sections.
-/

namespace HexPulse

variable {α : Type} [Scalar α]

/-- The variable of a section does not hold JSON. -/
structure UnreadableVariable where
  field : String
  deriving DecidableEq, Repr

/-- The text shown for a variable that cannot be read. -/
def UnreadableVariable.message (e : UnreadableVariable) : String :=
  s!"error parsing value for field \"{e.field}\" from source \"EnvSettingsSource\""

/-- How variables are found in the environment, and what they say. -/
structure Lookup where
  /-- what the names of variables start with -/
  front : String := "CYBERGRID_"
  /-- what stands between a section and its field in the name of a variable -/
  separator : String := "__"
  /-- the most parts that the name of a field may have -/
  mostParts? : Option Nat := none
  /-- capitals count -/
  exact : Bool := false
  /-- empty variables do not count -/
  skipsEmpty : Bool := false
  /-- the text of a variable that says that there is nothing -/
  nothing? : Option String := none
  deriving DecidableEq, Repr

namespace Lookup

/-- The names of the fields that say how variables are looked up, or how words of a command line
are; the latter, and files of variables, are never looked for. -/
def names : List String :=
  ["_case_sensitive", "_nested_model_default_partial_update", "_env_prefix", "_env_prefix_target",
   "_env_file", "_env_file_encoding", "_env_ignore_empty", "_env_nested_delimiter",
   "_env_nested_max_split", "_env_parse_none_str", "_env_parse_enums", "_cli_prog_name",
   "_cli_parse_args", "_cli_settings_source", "_cli_parse_none_str", "_cli_hide_none_type",
   "_cli_avoid_json", "_cli_enforce_required", "_cli_use_class_docs_for_groups",
   "_cli_exit_on_error", "_cli_prefix", "_cli_flag_prefix_char", "_cli_implicit_flags",
   "_cli_ignore_unknown_args", "_cli_kebab_case", "_cli_shortcuts", "_secrets_dir"]

/-- The way of looking up that some fields ask for; what they leave out, or leave open, is as it
always is. -/
def ofFields (fields : List (String × Data α)) : Lookup :=
  let text? (name : String) : Option String :=
    match Data.field? fields name with
    | some (.text s) => some s
    | _ => none
  let holds (name : String) : Bool := (Data.field? fields name).any fun d => !d.isVoid
  let standard : Lookup := {}
  { front := (text? "_env_prefix").getD standard.front
    separator := (text? "_env_nested_delimiter").getD standard.separator
    mostParts? :=
      match Data.field? fields "_env_nested_max_split" with
      | some (.int n) => if 0 < n then some n.toNat else none
      | _ => none
    exact := holds "_case_sensitive"
    skipsEmpty := holds "_env_ignore_empty"
    nothing? := text? "_env_parse_none_str" }

/-- A name as it is compared with others. -/
def folded (l : Lookup) (name : String) : String := if l.exact then name else Text.smalls name

/-- The name of the variable of a field or a section. -/
def variableName (l : Lookup) (field : String) : String := l.folded (l.front ++ field)

/-- The variables by their names, with what they say; of two spellings of a name the later counts. -/
def assigned (l : Lookup) (environment : List (String × String)) : Table String (Option String) :=
  let counting := environment.filter fun v => !(l.skipsEmpty && v.2.isEmpty)
  .ofList (counting.map fun v =>
    (l.folded v.1, if l.nothing? = some v.2 then none else some v.2))

/-- The parts of the name of a field. -/
def parts (l : Lookup) (name : String) : List String :=
  let ps := name.splitOn l.separator
  match l.mostParts? with
  | some (n + 1) =>
    if n + 1 < ps.length then ps.take n ++ [l.separator.intercalate (ps.drop n)] else ps
  | _ => ps

end Lookup

namespace Settings

/-- What a variable says put under a name of several parts.  What stands under the first parts of
the name already is kept, unless it is a record; so is what stands under the whole name, if the
variable says that there is nothing. -/
def place (value : Option String) (fields : Table String (Data α)) :
    List String → Table String (Data α)
  | [] => fields
  | [name] =>
    match value with
    | some text => fields.insert name (.text text)
    | none => if fields.contains name then fields else fields.insert name .null
  | name :: names =>
    match fields.get? name with
    | none => fields.insert name (.record (place value .empty names).entries)
    | some (.record inner) => fields.insert name (.record (place value ⟨inner⟩ names).entries)
    | some _ => fields

/-- The fields of a section that have variables of their own. -/
def ownFields (l : Lookup) (assigned : Table String (Option String)) (sectionName : String) :
    Table String (Data α) :=
  let front := (l.variableName sectionName ++ l.separator).toList
  assigned.entries.foldl
    (fun fields v =>
      let name := v.1.toList
      if !l.separator.isEmpty && front.isPrefixOf name then
        place v.2 fields (l.parts (String.ofList (name.drop front.length)))
      else fields) .empty

/-- The name that is known, if it is one but for its capitals. -/
def respelledName (known : List String) (name : String) : String :=
  let small := Text.smalls name
  if known.contains small then small else name

/-- Fields under the names that are known, whatever their capitals; of two spellings of a name the
later counts. -/
def respelled (known : List String) (fields : List (String × Data α)) : List (String × Data α) :=
  (Table.ofList (fields.map fun f => (respelledName known f.1, f.2))).entries

/-- Fields laid over other fields, records inside them field by field. -/
def overlay (lower upper : List (String × Data α)) : List (String × Data α) :=
  let merged := lower.map fun f =>
    match f.2, Data.field? upper f.1 with
    | .record inner, some (.record outer) =>
      (f.1, .record ((inner.filter fun g => (Data.field? outer g.1).isNone) ++ outer))
    | _, some d => (f.1, d)
    | d, none => (f.1, d)
  merged ++ upper.filter fun f => (Data.field? lower f.1).isNone

/-- What the environment says about a section.  A variable may hold the whole section as JSON; if
that is a record, the variables of single fields are laid over it. -/
def sectionOf (l : Lookup) (assigned : Table String (Option String)) (sectionName : String)
    (names : List String) : Except UnreadableVariable (Option (Data α)) :=
  let own := (ownFields l assigned sectionName).entries
  match assigned.get? (l.variableName sectionName) with
  | none => .ok (if own.isEmpty then none else some (.record own))
  | some none => .ok (some .null)
  | some (some text) =>
    match Document.readJson text with
    | none => .error ⟨sectionName⟩
    | some .null => .ok none
    | some (.record fields) =>
      let fields := overlay fields own
      .ok (some (.record (if l.exact then fields else respelled names fields)))
    | some d => .ok (some d)

/-- The fields that the environment sets. -/
def environmentFields (l : Lookup) (environment : List (String × String)) :
    Except UnreadableVariable (List (String × Data α)) := do
  let assigned := l.assigned environment
  let sections ← sectionNames.mapM fun (sectionName, names) =>
    return (← sectionOf l assigned sectionName names).map (sectionName, ·)
  let seed := (assigned.get? (l.variableName "seed")).map fun value =>
    ("seed", (value.map Data.text).getD .null)
  return seed.toList ++ sections.filterMap id

/-- Settings from the fields of a record and the environment.  Of two spellings of the name of a
section in the record the first counts. -/
def read (environment : List (String × String)) (fields : List (String × Data α)) :
    Except UnreadableVariable (Intake (Settings α)) := do
  let lower ← environmentFields (Lookup.ofFields fields) environment
  let said := fields.filter fun f => !Lookup.names.contains f.1
  return readData (.record (overlay lower (respelled fieldNames said.reverse)))

end Settings

/-- Why a document is refused. -/
inductive DocumentError where
  /-- the document holds something else than a record -/
  | notRecord (noun : String)
  | invalid (issues : List Issue)
  deriving DecidableEq, Repr

/-- The text shown for a document of the wrong form. -/
def DocumentError.message? : DocumentError → Option String
  | .notRecord noun => some (noun ++ " file root must be a mapping/object.")
  | .invalid _ => none

/-- The fields of a document; an empty document has none. -/
def Data.documentFields (noun : String) : Data α → Except DocumentError (List (String × Data α))
  | .null => .ok []
  | .record fields => .ok fields
  | _ => .error (.notRecord noun)

/-- Settings from a document and the environment. -/
def Settings.ofDocument (environment : List (String × String)) (d : Data α) :
    Except DocumentError (Settings α) := do
  let fields ← d.documentFields "Config"
  match Settings.read environment fields with
  | .ok intake => intake.result.mapError .invalid
  | .error e => .error (.invalid [⟨[], .refused e.message⟩])

end HexPulse
