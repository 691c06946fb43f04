import HexPulse.Proofs.Catalogue.Builtin
import HexPulse.Proofs.Evaluation.Ending

/-!
# HexPulse — Proofs — Evaluation — Typing

The evaluations against the types of the ports.  A node's inputs fit (`Board.Fits`) if what it can
read from its ports is of the types that its kind asks for.

* `Board.evaluate_ends`: an evaluation ends with a value of the type that its kind yields; and where
  the inputs fit, it reports no mismatch, except the few that guard the arithmetic behind them
  (`Guarded`).
-/

namespace HexPulse

variable {α β : Type}

namespace Value

theorem matches?_of_type {v : Value α} {t : ValueType} (h : v.type = t) : v.matches? t = true := by
  simp [matches?, h]

theorem isSome_number? {v : Value α} (h : v.matches? .number = true) : v.number?.isSome := by
  cases v <;> first | rfl | cases h

theorem isSome_vector? {v : Value α} (h : v.matches? .vector = true) : v.vector?.isSome := by
  cases v <;> first | rfl | cases h

theorem isSome_entity? {v : Value α} (h : v.matches? .entity = true) : v.entity?.isSome := by
  cases v <;> first | rfl | cases h

theorem isSome_list? {v : Value α} (h : v.matches? .list = true) : v.list?.isSome := by
  cases v <;> first | rfl | cases h

end Value

variable [Scalar α]

/-- The mismatches that a kind reports about values of the right type. -/
inductive Guarded (α : Type) [Scalar α] : Kind → PortError → Prop where
  | orbital : Guarded α .orbital (Board.notFinite "target" .vector)
  | plasma : Guarded α .plasma (Board.notFinite "target" .vector)
  | projectTile : Guarded α .projectTile (Board.notFinite "target" .vector)
  | storage : Guarded α .storage (Board.notFinite "slot" .number)
  | rocketLauncher (length : α) (h : Vector2.hasDirection length = false) :
      Guarded α .rocketLauncher
        (.mismatch "direction" "non-zero finite Vector" ("Vector of length " ++ Scalar.text length))

/-- A mismatch that is reported comes from a guard of the kind. -/
def Halt.Typed (α : Type) [Scalar α] (k : Kind) : Halt → Prop
  | .refused (.mismatch port expected got) => Guarded α k (.mismatch port expected got)
  | _ => True

namespace Board

/-- What a node can read from its ports is of the types that its kind asks for. -/
def Fits (b : Board α) (n : Node α) : Prop :=
  ∀ port v, b.read n port = .ok v → v.matches? (n.kind.asks port) = true

/-- A node may halt for this cause: where its inputs fit, it is no mismatch but one of a guard. -/
def Permits (b : Board α) (n : Node α) (h : Halt) : Prop := b.Fits n → h.Typed α n.kind

variable {b : Board α} {n : Node α} {port : String}

/-! ### Ports -/

/-- Whatever a value cannot be read for, any kind may be refused for. -/
theorem permits_read {e : PortError} (h : b.read n port = .error e) : b.Permits n (.refused e) := by
  intro _
  rw [read] at h
  split at h
  · cases h
    trivial
  · split at h
    · cases h
      trivial
    · split at h
      · cases h
        trivial
      · cases h

/-- Taking a value as what the kind asks for succeeds. -/
theorem permits_readAs {pick : Value α → Option β} {expected : ValueType} {e : PortError}
    (hpick : ∀ v : Value α, v.matches? expected = true → (pick v).isSome)
    (hasks : n.kind.asks port = expected) (h : b.readAs pick expected n port = .error e) :
    b.Permits n (.refused e) := by
  intro hfits
  rw [readAs] at h
  split at h
  · next e' hread =>
    cases h
    exact permits_read hread hfits
  · next v hread =>
    split at h
    · cases h
    · next hnone =>
      have := hpick v (hasks ▸ hfits port v hread)
      rw [hnone] at this
      cases this

/-- Where inputs fit, a port that asks for a number has one if it has anything. -/
theorem permits_readNumber {e : PortError} (hasks : n.kind.asks port = .number)
    (h : b.readNumber n port = .error e) : b.Permits n (.refused e) :=
  permits_readAs (fun _ => Value.isSome_number?) hasks h

theorem permits_readVector {e : PortError} (hasks : n.kind.asks port = .vector)
    (h : b.readVector n port = .error e) : b.Permits n (.refused e) :=
  permits_readAs (fun _ => Value.isSome_vector?) hasks h

theorem permits_readEntity {e : PortError} (hasks : n.kind.asks port = .entity)
    (h : b.readEntity n port = .error e) : b.Permits n (.refused e) :=
  permits_readAs (fun _ => Value.isSome_entity?) hasks h

theorem permits_readList {e : PortError} (hasks : n.kind.asks port = .list)
    (h : b.readList n port = .error e) : b.Permits n (.refused e) :=
  permits_readAs (fun _ => Value.isSome_list?) hasks h

/-- A number that is not finite may be refused where the kind guards the port. -/
theorem permits_readFiniteNumber {e : PortError} (hasks : n.kind.asks port = .number)
    (hguard : Guarded α n.kind (notFinite port .number))
    (h : b.readFiniteNumber n port = .error e) : b.Permits n (.refused e) := by
  rw [readFiniteNumber] at h
  split at h
  · next hread =>
    cases h
    exact permits_readNumber hasks hread
  · split at h
    · cases h
    · cases h
      exact fun _ => hguard

/-- A vector that is not finite may be refused where the kind guards the port. -/
theorem permits_readFiniteVector {e : PortError} (hasks : n.kind.asks port = .vector)
    (hguard : Guarded α n.kind (notFinite port .vector))
    (h : b.readFiniteVector n port = .error e) : b.Permits n (.refused e) := by
  rw [readFiniteVector] at h
  split at h
  · next hread =>
    cases h
    exact permits_readVector hasks hread
  · split at h
    · cases h
    · cases h
      exact fun _ => hguard

/-- A port that need not be connected may be refused for what its reading may be refused for. -/
theorem permits_readOptional {read : Board α → Node α → String → Except PortError β} {e : PortError}
    (hread : ∀ e, read b n port = .error e → b.Permits n (.refused e))
    (h : readOptional read b n port = .error e) : b.Permits n (.refused e) := by
  rw [readOptional] at h
  split at h
  · cases h
  · cases hr : read b n port with
    | ok x =>
      rw [hr] at h
      cases h
    | error e' =>
      rw [hr] at h
      cases h
      exact hread _ hr

/-- A target that is not alive may be refused by any kind. -/
theorem permits_liveTarget {id : Int} {e : PortError} (h : b.liveTarget id = .error e) :
    b.Permits n (.refused e) := by
  rw [liveTarget] at h
  split at h
  · cases h
  · cases h
    exact fun _ => trivial

theorem permits_fault (f : Fault) : b.Permits n (.fault f) := fun _ => trivial

/-! ### Evaluations -/

theorem ends_reading {r : Except PortError β} (h : ∀ e, r = .error e → b.Permits n (.refused e)) :
    Ends (fun _ => True) (b.Permits n) (Halt.ofReading r) :=
  (Ends.reading h).mono (fun _ _ => trivial) fun _ h => h

theorem ends_arithmetic (r : Except Fault β) :
    Ends (fun _ => True) (b.Permits n) (Halt.ofArithmetic r) :=
  (Ends.arithmetic fun f _ => permits_fault f).mono (fun _ _ => trivial) fun _ h => h

/-- A plasma node ends with a number, or as it may. -/
theorem plasma_ends (hk : n.kind = .plasma) :
    Ends (fun v => v.matches? .number = true) (b.Permits n) (b.plasma n).result := by
  rw [plasma]
  split
  · next e he =>
    cases haim : b.readFiniteVector n "target" with
    | error e' =>
      rw [plasmaOrder, haim] at he
      cases he
      exact permits_readFiniteVector (hk ▸ rfl) (hk ▸ .plasma) haim
    | ok aim =>
      cases hthreshold : readOptional readNumber b n "threshold" with
      | error e' =>
        rw [plasmaOrder, haim, hthreshold] at he
        cases he
        exact permits_readOptional (fun e he => permits_readNumber (hk ▸ rfl) he) hthreshold
      | ok threshold =>
        rw [plasmaOrder, haim, hthreshold] at he
        cases he
  · next aim limit _ =>
    dsimp only
    split
    · rfl
    · rw [plasmaShot]
      split
      · exact permits_fault _
      · next center _ =>
        dsimp only
        cases hcharge : (Scalar.convert (n.charge + 1) : Except Fault α) with
        | ok x => rfl
        | error f => exact permits_fault f

/-- **The type of an evaluation.**  It ends with a value of the type that its kind yields, and where
its inputs fit it reports no mismatch but those of the guards. -/
theorem evaluate_ends
    (hconstant : n.kind = .constantNumber → ∀ v ∈ n.wiring.constant, v.type = .number) :
    Ends (fun v => v.matches? n.kind.yields = true) (b.Permits n) (b.evaluate n).result := by
  -- kind by kind: what is read has the type that the kind asks for, and a computation has no type
  rw [evaluate]
  cases hk : n.kind with
  | constantNumber =>
    rw [hk] at hconstant
    show Ends _ _ (constantNumber n)
    rw [constantNumber]
    split
    · next v hv => exact Value.matches?_of_type (hconstant rfl v hv)
    · exact fun _ => trivial
  | closestEntity =>
    refine (ends_arithmetic _).bind fun found _ => ?_
    cases found with
    | nil => exact fun _ => trivial
    | cons t ts => rfl
  | nearbyEntities => exact (ends_arithmetic _).bind fun _ _ => rfl
  | entityPosition =>
    refine (ends_reading fun e he => permits_readEntity (hk ▸ rfl) he).bind fun id _ => ?_
    refine (ends_reading fun e he => permits_liveTarget he).bind fun t _ => ?_
    exact (ends_arithmetic _).bind fun _ _ => rfl
  | entityDirection =>
    refine (ends_reading fun e he => permits_readEntity (hk ▸ rfl) he).bind fun id _ => ?_
    refine (ends_reading fun e he => permits_liveTarget he).bind fun t _ => ?_
    refine (ends_arithmetic _).bind fun waypoint _ => ?_
    cases waypoint with
    | none => rfl
    | some cell => exact (ends_arithmetic _).bind fun _ _ => rfl
  | vectorCreate =>
    refine (ends_reading fun e he => permits_readNumber (hk ▸ rfl) he).bind fun x _ => ?_
    refine (ends_reading fun e he => permits_readNumber (hk ▸ rfl) he).bind fun y _ => ?_
    rfl
  | vectorNegate =>
    exact (ends_reading fun e he => permits_readVector (hk ▸ rfl) he).bind fun _ _ => rfl
  | vectorLength =>
    exact (ends_reading fun e he => permits_readVector (hk ▸ rfl) he).bind fun _ _ => rfl
  | vectorMultiply => rfl
  | numberMultiply => rfl
  | numberSubtract => rfl
  | listConstruct => rfl
  | listLength =>
    exact (ends_reading fun e he => permits_readList (hk ▸ rfl) he).bind fun _ _ => rfl
  | lazor =>
    refine .acting ?_
    refine (ends_reading fun e he => permits_readEntity (hk ▸ rfl) he).bind fun id _ => ?_
    exact (ends_reading fun e he => permits_liveTarget he).bind fun _ _ => rfl
  | rocketLauncher =>
    refine .acting ?_
    refine (ends_reading fun e he => permits_readVector (hk ▸ rfl) he).bind fun v _ => ?_
    cases hdirection : Vector2.hasDirection (Vector2.length v.1 v.2) with
    | true =>
      simp only [hdirection, if_true]
      rfl
    | false =>
      simp only [hdirection, Bool.false_eq_true, if_false]
      exact fun _ => hk ▸ Guarded.rocketLauncher _ hdirection
  | orbital =>
    refine .acting ?_
    refine (ends_reading fun e he =>
      permits_readFiniteVector (hk ▸ rfl) (hk ▸ .orbital) he).bind fun v _ => ?_
    exact (ends_arithmetic _).bind fun _ _ => rfl
  | plasma => exact plasma_ends hk
  | shock =>
    refine .acting ?_
    exact (ends_reading fun e he => permits_readList (hk ▸ rfl) he).bind fun _ _ => rfl
  | projectTile =>
    refine .acting ?_
    refine (ends_reading fun e he =>
      permits_readFiniteVector (hk ▸ rfl) (hk ▸ .projectTile) he).bind fun v _ => ?_
    refine (ends_arithmetic _).bind fun cell _ => ?_
    split
    · exact fun _ => trivial
    · rfl
    · exact fun _ => trivial
  | storage =>
    refine (ends_reading fun e he => permits_readOptional (fun e he =>
      permits_readFiniteNumber (hk ▸ rfl) (hk ▸ .storage) he) he).bind fun slot _ => ?_
    have hread (port : String) : Ends (fun v => v.matches? (Kind.yields .storage) = true)
        (b.Permits n) (Halt.ofReading (b.read n port)) :=
      (ends_reading fun e he => permits_read he).mono (fun _ _ => rfl) fun _ h => h
    cases slot with
    | none => exact hread _
    | some x => exact (ends_arithmetic _).bind fun index _ => hread _
  | debug => rfl

end Board

end HexPulse
