import HexPulse.Evaluation

/-!
# HexPulse — Proofs — Evaluation — Locality

A node reads only what it sees: the settings, the tiles, the targets, and the values of the
neighbours in the directions it is bound to.  Two boards that look the same to a node
(`SameView`) may differ in everything else, in the states of all other nodes, their charges and
the hearts; the evaluation of the node is the same on both (`SameView.evaluate_eq`).
-/

namespace HexPulse

/-- The direction that a port is bound to is one of those that are bound. -/
theorem Wiring.mem_directions_of_directionOf? {α : Type} {w : Wiring α} {name : String}
    {d : Direction} (h : w.directionOf? name = some d) : d ∈ w.directions := by
  obtain ⟨e, he, rfl⟩ := Option.map_eq_some_iff.mp h
  exact List.mem_map_of_mem (List.mem_of_find?_eq_some he)

namespace Board

variable {α β : Type}

/-- The two boards look the same to a node: it sees the same settings, tiles and targets, and the
neighbours in its bound directions hold the same values. -/
structure SameView (n : Node α) (b b' : Board α) : Prop where
  settings : b'.settings = b.settings
  tile : ∀ c, b'.tile? c = b.tile? c
  targets : b'.targets = b.targets
  source : ∀ d ∈ n.wiring.directions,
    (b'.nodeAt? (n.position.neighbor d)).map (·.state.value?) =
      (b.nodeAt? (n.position.neighbor d)).map (·.state.value?)

namespace SameView

variable {n : Node α} {b b' : Board α}

/-! ### Ports -/

/-- A port is read at a neighbour that both boards show. -/
theorem read_eq (h : SameView n b b') (port : String) : b'.read n port = b.read n port := by
  rw [read, read]
  cases hd : n.wiring.directionOf? port with
  | none => rfl
  | some d =>
    have hs := h.source d (Wiring.mem_directions_of_directionOf? hd)
    cases e : b.nodeAt? (n.position.neighbor d) with
    | none =>
      rw [e, Option.map_none, Option.map_eq_none_iff] at hs
      simp only [hs, e]
    | some m =>
      rw [e, Option.map_some, Option.map_eq_some_iff] at hs
      obtain ⟨m', hm', hv⟩ := hs
      simp only [hm', e, hv]

theorem readAs_eq (h : SameView n b b') (pick : Value α → Option β) (expected : ValueType)
    (port : String) : b'.readAs pick expected n port = b.readAs pick expected n port := by
  rw [readAs, readAs, h.read_eq]

theorem readNumber_eq (h : SameView n b b') (port : String) :
    b'.readNumber n port = b.readNumber n port :=
  h.readAs_eq _ _ port

theorem readVector_eq (h : SameView n b b') (port : String) :
    b'.readVector n port = b.readVector n port :=
  h.readAs_eq _ _ port

theorem readEntity_eq (h : SameView n b b') (port : String) :
    b'.readEntity n port = b.readEntity n port :=
  h.readAs_eq _ _ port

theorem readList_eq (h : SameView n b b') (port : String) :
    b'.readList n port = b.readList n port :=
  h.readAs_eq _ _ port

/-- A reading that may be left out sees no more than the reading itself. -/
theorem readOptional_eq {read : Board α → Node α → String → Except PortError β} {port : String}
    (h : read b' n port = read b n port) :
    readOptional read b' n port = readOptional read b n port := by
  rw [readOptional, readOptional, h]

/-- Ports that read the same are present on both boards, or on neither. -/
theorem readPresent_eq {read : Board α → Node α → String → Except PortError β}
    (h : ∀ port, read b' n port = read b n port) (ports : List String) :
    readPresent read b' n ports = readPresent read b n ports := by
  simp only [readPresent, h]

/-- Both boards lay their cells out in the same way. -/
theorem layout_eq (h : SameView n b b') : b'.layout = b.layout := by
  rw [layout, layout, h.settings]

variable [Scalar α]

theorem readFiniteNumber_eq (h : SameView n b b') (port : String) :
    b'.readFiniteNumber n port = b.readFiniteNumber n port := by
  rw [readFiniteNumber, readFiniteNumber, h.readNumber_eq]

theorem readFiniteVector_eq (h : SameView n b b') (port : String) :
    b'.readFiniteVector n port = b.readFiniteVector n port := by
  rw [readFiniteVector, readFiniteVector, h.readVector_eq]

/-! ### Targets -/

theorem liveTarget_eq (h : SameView n b b') (id : Int) : b'.liveTarget id = b.liveTarget id := by
  rw [liveTarget, liveTarget, h.targets]

theorem inView_eq (h : SameView n b b') (near : Nat → Bool) :
    b'.inView n near = b.inView n near := by
  simp only [inView, sightings, h.layout_eq, h.targets]

theorem viewRange_eq (h : SameView n b b') : b'.viewRange n = b.viewRange n := by
  simp only [viewRange, h.settings, h.readNumber_eq]

/-! ### Evaluation -/

/-- A plasma node looks at its ports, and at nothing else that the boards may differ in. -/
theorem plasma_eq (h : SameView n b b') : b'.plasma n = b.plasma n := by
  have order : b'.plasmaOrder n = b.plasmaOrder n := by
    simp only [plasmaOrder, h.readFiniteVector_eq, h.settings,
      readOptional_eq (h.readNumber_eq "threshold")]
  simp only [plasma, order, plasmaShot, h.layout_eq]

/-- **Locality.**  The evaluation of a node is the same on two boards that look the same to it. -/
theorem evaluate_eq (h : SameView n b b') : b'.evaluate n = b.evaluate n := by
  rw [evaluate, evaluate]
  cases n.kind with
  | constantNumber => rfl
  | closestEntity => simp only [closestEntity, h.inView_eq, h.settings]
  | nearbyEntities => simp only [nearbyEntities, h.inView_eq, h.viewRange_eq]
  | entityPosition =>
    simp only [entityPosition, h.readEntity_eq, h.liveTarget_eq, h.layout_eq]
  | entityDirection =>
    simp only [entityDirection, h.readEntity_eq, h.liveTarget_eq, h.layout_eq]
  | vectorCreate => simp only [vectorCreate, h.readNumber_eq]
  | vectorNegate => simp only [vectorNegate, h.readVector_eq]
  | vectorLength => simp only [vectorLength, h.readVector_eq]
  | vectorMultiply => simp only [vectorMultiply, readPresent_eq h.readVector_eq]
  | numberMultiply => simp only [numberMultiply, readPresent_eq h.readNumber_eq]
  | numberSubtract => simp only [numberSubtract, readPresent_eq h.readNumber_eq]
  | listConstruct => simp only [listConstruct, readPresent_eq h.read_eq]
  | listLength => simp only [listLength, h.readList_eq]
  | lazor => simp only [lazor, h.readEntity_eq, h.liveTarget_eq, h.settings]
  | rocketLauncher => simp only [rocketLauncher, h.readVector_eq]
  | orbital => simp only [orbital, h.readFiniteVector_eq, h.settings]
  | plasma => exact h.plasma_eq
  | shock => simp only [shock, h.readList_eq, h.targets, h.settings]
  | projectTile => simp only [projectTile, h.readFiniteVector_eq, h.tile]
  | storage =>
    simp only [storage, readOptional_eq (h.readFiniteNumber_eq "slot"), h.read_eq]
  | debug => simp only [debug, readPresent_eq h.read_eq]

end SameView

end Board

end HexPulse
