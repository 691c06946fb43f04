import HexPulse.Proofs.Catalogue.Builtin
import HexPulse.Proofs.Evaluation.Ending
import HexPulse.Proofs.Evaluation.Locality

/-!
# HexPulse — Proofs — Evaluation — Causes

Where the causes of refusals come from.  Two of them blame the neighbour behind a port, which is
missing or holds no value (`PortError.Dangling`).  An evaluation is refused for such a cause only if
that is what one of the node's ports reads (`Board.evaluate_sources`).  So where every bound
direction leads to a node that holds a value (`Board.Fed`), no evaluation is
(`Fed.not_dangling`), and a wired port that a node may do without is skipped only for a value of
another type (`Fed.skips`).
-/

namespace HexPulse

variable {α β : Type}

/-- The error blames the neighbour behind a port: there is none, or it holds no value. -/
def PortError.Dangling : PortError → Prop
  | .unresolved .. => True
  | .notReady .. => True
  | _ => False

namespace Value

theorem type_ne_number {v : Value α} (h : v.number? = none) : v.type ≠ .number := by
  intro ht
  cases v <;> cases ht
  cases h

theorem type_ne_vector {v : Value α} (h : v.vector? = none) : v.type ≠ .vector := by
  intro ht
  cases v <;> cases ht
  cases h

end Value

namespace Board

/-- A node that halts because of a neighbour reads so from one of its ports. -/
def Sourced (b : Board α) (n : Node α) : Halt → Prop
  | .refused e => e.Dangling → ∃ port, b.read n port = .error e
  | .fault _ => True

variable {b : Board α} {n : Node α} {port : String} {e : PortError}

/-! ### Ports -/

/-- An error that is read at a port has its source there. -/
theorem sourced_read (h : b.read n port = .error e) : b.Sourced n (.refused e) := fun _ => ⟨port, h⟩

theorem sourced_readAs {pick : Value α → Option β} {expected : ValueType}
    (h : b.readAs pick expected n port = .error e) : b.Sourced n (.refused e) := by
  rw [readAs] at h
  split at h
  · next hread =>
    cases h
    exact sourced_read hread
  · split at h
    · cases h
    · cases h
      exact fun hd => hd.elim

theorem sourced_readOptional {read : Board α → Node α → String → Except PortError β}
    (hread : ∀ e, read b n port = .error e → b.Sourced n (.refused e))
    (h : readOptional read b n port = .error e) : b.Sourced n (.refused e) := by
  rw [readOptional] at h
  split at h
  · cases h
  · cases hr : read b n port with
    | ok x =>
      rw [hr] at h
      cases h
    | error e' =>
      rw [hr] at h
      cases h
      exact hread _ hr

/-- What is read before anything else in an evaluation. -/
theorem sources_reading {r : Except PortError β}
    (h : ∀ e, r = .error e → b.Sourced n (.refused e)) :
    Ends (fun _ => True) (b.Sourced n) (Halt.ofReading r) :=
  (Ends.reading h).mono (fun _ _ => trivial) fun _ h => h

theorem sources_readAs (pick : Value α → Option β) (expected : ValueType) (port : String) :
    Ends (fun _ => True) (b.Sourced n) (Halt.ofReading (b.readAs pick expected n port)) :=
  sources_reading fun _ => sourced_readAs

theorem sources_arithmetic (r : Except Fault β) :
    Ends (fun _ => True) (b.Sourced n) (Halt.ofArithmetic r) :=
  (Ends.arithmetic fun _ _ => trivial).mono (fun _ _ => trivial) fun _ h => h

/-! ### Nodes whose neighbours all hold values -/

/-- Every direction that the node is bound to leads to a node that holds a value. -/
def Fed (b : Board α) (n : Node α) : Prop :=
  ∀ d ∈ n.wiring.directions, ∃ m v, b.nodeAt? (n.position.neighbor d) = some m ∧ m.state = .ok v

/-- A node goes on without what one of its ports reads, which is an error: it may do so for a slot
and for the range in which it sees targets. -/
inductive Skips (b : Board α) (n : Node α) (port : String) (e : PortError) : Prop where
  | vector (kind : n.kind = .vectorMultiply) (slot : port ∈ Catalogue.slots)
      (read : b.readVector n port = .error e)
  | number (kind : n.kind = .numberMultiply ∨ n.kind = .numberSubtract)
      (slot : port ∈ Catalogue.slots) (read : b.readNumber n port = .error e)
  | any (kind : n.kind = .listConstruct ∨ n.kind = .debug) (slot : port ∈ Catalogue.slots)
      (read : b.read n port = .error e)
  | range (kind : n.kind = .nearbyEntities) (slot : port = "range")
      (read : b.readNumber n port = .error e)

namespace Fed

variable {d : Direction}

/-- A port that is wired reads what the neighbour holds. -/
theorem exists_read (h : b.Fed n) (hd : n.wiring.directionOf? port = some d) :
    ∃ m v, b.nodeAt? (n.position.neighbor d) = some m ∧ m.state = .ok v ∧
      b.read n port = .ok v := by
  obtain ⟨m, v, hm, hv⟩ := h d (Wiring.mem_directions_of_directionOf? hd)
  refine ⟨m, v, hm, hv, ?_⟩
  simp only [read, hd, hm, hv, NodeState.value?]

/-- At a node that is fed, a port cannot be read only if it is not configured. -/
theorem read_eq_error (h : b.Fed n) (he : b.read n port = .error e) :
    e = .unconfigured port ∧ n.wiring.directionOf? port = none := by
  cases hd : n.wiring.directionOf? port with
  | none =>
    simp only [read, hd] at he
    exact ⟨(Except.error.inj he).symm, rfl⟩
  | some d =>
    obtain ⟨m, v, -, -, hv⟩ := h.exists_read hd
    rw [hv] at he
    cases he

/-- Where a wired port is read as what is expected there, it can only be of another type. -/
theorem mismatch (h : b.Fed n) {pick : Value α → Option β} {expected : ValueType}
    (hpick : ∀ v, pick v = none → v.type ≠ expected)
    (hd : n.wiring.directionOf? port = some d) (he : b.readAs pick expected n port = .error e) :
    ∃ v, b.read n port = .ok v ∧ v.type ≠ expected ∧
      e = .mismatch port expected.name v.type.name := by
  obtain ⟨m, v, -, -, hread⟩ := h.exists_read hd
  simp only [readAs, hread] at he
  split at he
  · cases he
  · next hnone => exact ⟨v, hread, hpick v hnone, (Except.error.inj he).symm⟩

/-- **A wired port is skipped for a mismatch only.** -/
theorem skips (h : b.Fed n) (hd : n.wiring.directionOf? port = some d)
    (hs : b.Skips n port e) : ∃ v, b.read n port = .ok v ∧ v.type ≠ n.kind.asks port ∧
      e = .mismatch port (n.kind.asks port).name v.type.name := by
  cases hs with
  | vector hk _ he =>
    rw [hk]
    exact h.mismatch (fun _ => Value.type_ne_vector) hd he
  | number hk _ he =>
    have hasks : n.kind.asks port = .number := by rcases hk with hk | hk <;> rw [hk] <;> rfl
    rw [hasks]
    exact h.mismatch (fun _ => Value.type_ne_number) hd he
  | any _ _ he =>
    -- any value will do, and there is one
    rw [(h.read_eq_error he).2] at hd
    cases hd
  | range hk _ he =>
    rw [hk]
    exact h.mismatch (fun _ => Value.type_ne_number) hd he

end Fed

variable [Scalar α]

/-- That a number is not finite is the fault of no neighbour. -/
theorem sourced_readFiniteNumber (h : b.readFiniteNumber n port = .error e) :
    b.Sourced n (.refused e) := by
  rw [readFiniteNumber] at h
  split at h
  · next hread =>
    cases h
    exact sourced_readAs hread
  · split at h
    · cases h
    · cases h
      exact fun hd => hd.elim

theorem sourced_readFiniteVector (h : b.readFiniteVector n port = .error e) :
    b.Sourced n (.refused e) := by
  rw [readFiniteVector] at h
  split at h
  · next hread =>
    cases h
    exact sourced_readAs hread
  · split at h
    · cases h
    · cases h
      exact fun hd => hd.elim

/-- That a target is not alive is the fault of no neighbour. -/
theorem sources_liveTarget (id : Int) :
    Ends (fun _ => True) (b.Sourced n) (Halt.ofReading (b.liveTarget id)) := by
  refine sources_reading fun e h => ?_
  rw [liveTarget] at h
  split at h
  · cases h
  · cases h
    exact fun hd => hd.elim

/-! ### Evaluations -/

/-- A plasma node that blames a neighbour has read so at a port. -/
theorem plasma_sources : Ends (fun _ => True) (b.Sourced n) (b.plasma n).result := by
  rw [plasma]
  split
  · next e he =>
    rw [plasmaOrder] at he
    cases haim : b.readFiniteVector n "target" with
    | error e' =>
      rw [haim] at he
      cases he
      exact sourced_readFiniteVector haim
    | ok aim =>
      cases hthreshold : readOptional readNumber b n "threshold" with
      | error e' =>
        rw [haim, hthreshold] at he
        cases he
        exact sourced_readOptional (fun _ => sourced_readAs) hthreshold
      | ok threshold =>
        rw [haim, hthreshold] at he
        cases he
  · dsimp only
    split
    · trivial
    · rw [plasmaShot]
      split
      · trivial
      · exact sources_arithmetic _

/-- **A refusal that blames a neighbour is one that a port reads.** -/
theorem evaluate_sources (b : Board α) (n : Node α) :
    Ends (fun _ => True) (b.Sourced n) (b.evaluate n).result := by
  -- kind by kind: an error that blames a neighbour is the error of a reading
  rw [evaluate]
  cases n.kind with
  | constantNumber =>
    show Ends _ _ (constantNumber n)
    rw [constantNumber]
    split
    · trivial
    · exact fun hd => hd.elim
  | closestEntity =>
    refine (sources_arithmetic _).bind fun found _ => ?_
    cases found with
    | nil => exact fun hd => hd.elim
    | cons t ts => trivial
  | nearbyEntities => exact (sources_arithmetic _).bind fun _ _ => trivial
  | entityPosition =>
    refine (sources_readAs _ _ _).bind fun id _ => (sources_liveTarget id).bind fun t _ => ?_
    exact (sources_arithmetic _).bind fun _ _ => trivial
  | entityDirection =>
    refine (sources_readAs _ _ _).bind fun id _ => (sources_liveTarget id).bind fun t _ => ?_
    refine (sources_arithmetic _).bind fun waypoint _ => ?_
    cases waypoint with
    | none => trivial
    | some cell => exact (sources_arithmetic _).bind fun _ _ => trivial
  | vectorCreate =>
    exact (sources_readAs _ _ _).bind fun x _ => (sources_readAs _ _ _).bind fun y _ => trivial
  | vectorNegate => exact (sources_readAs _ _ _).bind fun _ _ => trivial
  | vectorLength => exact (sources_readAs _ _ _).bind fun _ _ => trivial
  | vectorMultiply => trivial
  | numberMultiply => trivial
  | numberSubtract => trivial
  | listConstruct => trivial
  | listLength => exact (sources_readAs _ _ _).bind fun _ _ => trivial
  | storage =>
    have hread (port : String) :
        Ends (fun _ => True) (b.Sourced n) (Halt.ofReading (b.read n port)) :=
      sources_reading fun _ => sourced_read
    refine (sources_reading fun _ => sourced_readOptional fun _ => sourced_readFiniteNumber).bind
      fun slot _ => ?_
    cases slot with
    | none => exact hread _
    | some x => exact (sources_arithmetic _).bind fun index _ => hread _
  | lazor =>
    refine .acting ?_
    exact (sources_readAs _ _ _).bind fun id _ => (sources_liveTarget id).bind fun _ _ => trivial
  | rocketLauncher =>
    refine .acting ((sources_readAs _ _ _).bind fun v _ => ?_)
    dsimp only
    split
    · trivial
    · exact fun hd => hd.elim
  | orbital =>
    refine .acting ((sources_reading fun _ => sourced_readFiniteVector).bind fun v _ => ?_)
    exact (sources_arithmetic _).bind fun _ _ => trivial
  | plasma => exact plasma_sources
  | shock => exact .acting ((sources_readAs _ _ _).bind fun _ _ => trivial)
  | projectTile =>
    refine .acting ((sources_reading fun _ => sourced_readFiniteVector).bind fun v _ => ?_)
    refine (sources_arithmetic _).bind fun cell _ => ?_
    split
    · exact fun hd => hd.elim
    · trivial
    · exact fun hd => hd.elim
  | debug => trivial

/-- **No evaluation is refused because of a neighbour.** -/
theorem Fed.not_dangling (h : b.Fed n) (hr : (b.evaluate n).result = .error (.refused e)) :
    ¬ e.Dangling := by
  intro hd
  obtain ⟨port, hread⟩ := (evaluate_sources b n).of_error hr hd
  rw [(h.read_eq_error hread).1] at hd
  exact hd

end Board

end HexPulse
