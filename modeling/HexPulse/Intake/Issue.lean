/-!
# HexPulse — Intake — Issue

Complaints about data.  Reading goes on behind a complaint, so that all of them are found at
once; what was read counts only if there was none.
-/

namespace HexPulse

/-- What is wrong with a piece of data. -/
inductive IssueKind where
  | missing
  | extra
  | recordType
  | listType
  | mapType
  | pairType
  | tooLong
  | integerType
  | integerParsing
  | integerSize
  | integerFromNumber
  | finiteNumber
  | numberType
  | numberParsing
  | boolType
  | boolParsing
  | textType
  /-- a text that has to be whole holds half a character -/
  | halfCharacter
  | greaterThan
  | greaterThanEqual
  | lessThanEqual
  /-- the data is well-formed and still refused -/
  | refused (reason : String)
  deriving DecidableEq, Repr

namespace IssueKind

/-- The name that a complaint is filed under. -/
def name : IssueKind → String
  | .missing => "missing"
  | .extra => "extra_forbidden"
  | .recordType => "model_type"
  | .listType => "list_type"
  | .mapType => "dict_type"
  | .pairType => "tuple_type"
  | .tooLong => "too_long"
  | .integerType => "int_type"
  | .integerParsing => "int_parsing"
  | .integerSize => "int_parsing_size"
  | .integerFromNumber => "int_from_float"
  | .finiteNumber => "finite_number"
  | .numberType => "float_type"
  | .numberParsing => "float_parsing"
  | .boolType => "bool_type"
  | .boolParsing => "bool_parsing"
  | .textType => "string_type"
  | .halfCharacter => "string_unicode"
  | .greaterThan => "greater_than"
  | .greaterThanEqual => "greater_than_equal"
  | .lessThanEqual => "less_than_equal"
  | .refused _ => "value_error"

/-- The text of a refusal. -/
def message? : IssueKind → Option String
  | .refused reason => some ("Value error, " ++ reason)
  | _ => none

end IssueKind

/-- A complaint and where it belongs: the names and places on the way from the root. -/
structure Issue where
  location : List String
  kind : IssueKind
  deriving DecidableEq, Repr

/-- Names in the order of a dictionary. -/
def namesLe : List String → List String → Bool
  | [], _ => true
  | _ :: _, [] => false
  | a :: as, b :: bs => decide (a < b) || (a = b && namesLe as bs)

/-- Complaints in the order of their places; at one place, of their kinds. -/
def Issue.le (a b : Issue) : Bool :=
  if a.location = b.location then decide (a.kind.name ≤ b.kind.name)
  else namesLe a.location b.location

/-- What was read, with the complaints about it.  Where there are complaints, the value only
stands in for one. -/
structure Intake (β : Type) where
  value : β
  issues : List Issue
  deriving Repr

namespace Intake

variable {β γ : Type}

instance : Monad Intake where
  pure x := ⟨x, []⟩
  bind m f :=
    let n := f m.value
    ⟨n.value, m.issues ++ n.issues⟩

/-- A complaint about the data itself, with a value that stands in. -/
def complain (standIn : β) (kind : IssueKind) : Intake β := ⟨standIn, [⟨[], kind⟩]⟩

/-- The same complaints, seen from further outside. -/
def inside (name : String) (m : Intake β) : Intake β :=
  ⟨m.value, m.issues.map fun i => { i with location := name :: i.location }⟩

/-- The value, if nobody complained. -/
def result (m : Intake β) : Except (List Issue) β :=
  if m.issues.isEmpty then .ok m.value else .error m.issues

@[simp] theorem value_pure (x : β) : (pure x : Intake β).value = x := rfl
@[simp] theorem issues_pure (x : β) : (pure x : Intake β).issues = [] := rfl
@[simp] theorem value_bind (m : Intake β) (f : β → Intake γ) :
    (m >>= f).value = (f m.value).value := rfl
@[simp] theorem issues_bind (m : Intake β) (f : β → Intake γ) :
    (m >>= f).issues = m.issues ++ (f m.value).issues := rfl

theorem result_eq_ok_iff {m : Intake β} {x : β} :
    m.result = .ok x ↔ m.issues = [] ∧ m.value = x := by
  unfold result
  split <;> simp_all

end Intake

end HexPulse
