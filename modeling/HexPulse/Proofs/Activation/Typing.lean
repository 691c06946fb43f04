import HexPulse.Proofs.Activation.Pass
import HexPulse.Proofs.Board.Wiring
import HexPulse.Proofs.Evaluation.Typing
import HexPulse.Scalar.Double

/-!
# HexPulse — Proofs — Activation — Typing

Wiring is sound.  A board is well-typed (`Board.Typed`) if its nodes are bound to ports of their
kinds, if every bound port faces a node whose output has the type of the port, and if constants are
numbers.  Whatever is activated on such a board (`Board.Activated`), no node ever reports a mismatch
but those of the guards (`Board.sound_wiring`).

The invariant is `Sober`: the nodes are the same but for their states and charges, and they hold
values of the types that their kinds yield.  One firing keeps it (`Sober.fire`), and so does a pass
that a fault stops half-way.
-/

namespace HexPulse

variable {α : Type}

/-- A port that is bound is bound to its direction. -/
theorem Wiring.exists_of_directionOf? {w : Wiring α} {name : String} {d : Direction}
    (h : w.directionOf? name = some d) : ∃ p, (d, p) ∈ w.inputs.entries ∧ p.name = name := by
  obtain ⟨e, he, rfl⟩ := Option.map_eq_some_iff.mp h
  have hname := List.find?_some he
  rw [decide_eq_true_eq] at hname
  exact ⟨e.2, List.mem_of_find?_eq_some he, hname⟩

namespace Board

/-- A board whose wiring respects the types of the ports. -/
structure Typed (b : Board α) : Prop where
  catalogue : b.catalogue = .builtin
  wired : b.Wired
  /-- a port faces no node, or one whose output has the type of the port; a port of type `any` may
  face any node -/
  facing : ∀ n ∈ b.nodes.values, ∀ e ∈ n.wiring.inputs.entries,
    ∀ m ∈ b.nodeAt? (n.position.neighbor e.1),
      e.2.type = .any ∨ (b.descriptor m).map (·.output.type) = .ok e.2.type
  constant : ∀ n ∈ b.nodes.values, n.kind = .constantNumber →
    ∀ v ∈ n.wiring.constant, v.type = .number

variable {b c : Board α} {n m : Node α}

/-- What the built-in catalogue says of a node. -/
theorem builtin_descriptor {d : Descriptor} (hb : b.catalogue = .builtin)
    (hd : b.descriptor n = .ok d) :
    d.output.type = n.kind.yields ∧ ∀ p ∈ d.inputs, p.type = n.kind.asks p.name := by
  rw [descriptor, hb, Catalogue.find_eq_ok_iff] at hd
  obtain ⟨k, hk, hd⟩ := hd
  obtain rfl := Option.some.inj (hk.symm.trans n.kind.ofName?_name)
  exact (Catalogue.builtin_entries _ (Table.mem_entries_of_get? hd)).2

/-- The value behind a port is held by the node in the direction of the port. -/
theorem read_eq_ok_iff {port : String} {v : Value α} : b.read n port = .ok v ↔
    ∃ d m, n.wiring.directionOf? port = some d ∧ b.nodeAt? (n.position.neighbor d) = some m ∧
      m.state = .ok v := by
  rw [read]
  cases n.wiring.directionOf? port with
  | none => simp
  | some d =>
    cases hm : b.nodeAt? (n.position.neighbor d) with
    | none => simp [hm]
    | some m => cases hs : m.state <;> simp [hm, hs, NodeState.value?]

end Board

/-! ### Firing -/

namespace Evaluation

variable {e : Evaluation α}

/-- A value that a node is left with is the result of its evaluation. -/
theorem result_of_state_eq_ok {v : Value α} (h : e.state = .ok v) : e.result = .ok v := by
  rw [state] at h
  split at h
  · next hr => rw [hr, NodeState.ok.inj h]
  · cases h
  · cases h

/-- An error that a node is left with is what its evaluation was refused for. -/
theorem result_of_state_eq_err {x : PortError} (h : e.state = .err x) :
    e.result = .error (.refused x) := by
  rw [state] at h
  split at h
  · cases h
  · next hr => rw [hr, NodeState.err.inj h]
  · cases h

end Evaluation

/-- A node that fires gets the outcome of its evaluation. -/
theorem Pass.board_fire [Scalar α] {p : Pass α} {id : Int} {n : Node α}
    (hn : p.board.nodes.get? id = some n) : (fire p id).state.board =
      p.board.updateNode id fun m => m.after (p.board.evaluate n) := by
  simp only [fire, hn, Node.after, Evaluation.state]
  cases (p.board.evaluate n).result with
  | ok v => rfl
  | error halt => cases halt <;> rfl

/-! ### What passes keep -/

/-- A node without what passes change. -/
def Node.fixture (n : Node α) : Node α := { n with state := .idle, charge := 0 }

theorem Node.fixture_after (n : Node α) (e : Evaluation α) : (n.after e).fixture = n.fixture := rfl

theorem Node.fixture_requestNode (n : Node α) : (Board.requestNode n).fixture = n.fixture := by
  rw [Board.requestNode]
  split <;> rfl

/-- What is fixed of a node is its cell, its kind and its wiring. -/
theorem Node.of_fixture_eq {m n : Node α} (h : m.fixture = n.fixture) :
    m.position = n.position ∧ m.kind = n.kind ∧ m.wiring = n.wiring := by
  rw [fixture, fixture, Node.mk.injEq] at h
  exact ⟨h.2.1, h.2.2.1, h.2.2.2.1⟩

variable [Scalar α]

/-- What a node holds is of the type that its kind yields, or an error that is no mismatch but one
of its guards. -/
def Node.WellTyped (n : Node α) : Prop :=
  (∀ v, n.state = .ok v → v.matches? n.kind.yields = true) ∧
    ∀ e, n.state = .err e → (Halt.refused e).Typed α n.kind

/-- The nodes of `c` are those of `b` but for their states and charges, and are well-typed. -/
structure Sober (b c : Board α) : Prop where
  tiles : c.tiles = b.tiles
  fixtures : ∀ id, (c.nodes.get? id).map Node.fixture = (b.nodes.get? id).map Node.fixture
  typed : ∀ id n, c.nodes.get? id = some n → n.WellTyped

namespace Sober

variable {b c : Board α} {n m : Node α}

/-- After a request no node holds anything. -/
theorem request (b : Board α) : Sober b b.request := by
  refine ⟨rfl, fun id => ?_, fun id n hn => ?_⟩
  · rw [Board.request, Table.get?_mapValues, Option.map_map]
    exact congrArg (fun f => (b.nodes.get? id).map f) (funext Node.fixture_requestNode)
  · -- nothing is held after a request
    rw [Board.request, Table.get?_mapValues, Option.map_eq_some_iff] at hn
    obtain ⟨m, -, rfl⟩ := hn
    rw [Board.requestNode]
    split
    · next hm => exact ⟨fun v e => (nomatch hm.symm.trans e), fun v e => (nomatch hm.symm.trans e)⟩
    · exact ⟨nofun, nofun⟩

/-- The node of `b` that a node of `c` is. -/
theorem origin (h : Sober b c) {id : Int} (hn : c.nodes.get? id = some n) :
    ∃ n₀, b.nodes.get? id = some n₀ ∧ n₀.fixture = n.fixture := by
  have := h.fixtures id
  rw [hn, Option.map_some, eq_comm, Option.map_eq_some_iff] at this
  exact this

/-- On each cell stands the node that stood there. -/
theorem origin_nodeAt? (h : Sober b c) {cell : Hex} (hn : c.nodeAt? cell = some n) :
    ∃ n₀, b.nodeAt? cell = some n₀ ∧ n₀.fixture = n.fixture := by
  obtain ⟨id, htile, hget⟩ := Board.nodeAt?_eq_some_iff.mp hn
  obtain ⟨n₀, hn₀, e⟩ := h.origin hget
  rw [Board.tile?, h.tiles] at htile
  exact ⟨n₀, Board.nodeAt?_eq_some_iff.mpr ⟨id, htile, hn₀⟩, e⟩

/-- On a well-typed board all inputs fit. -/
theorem fits (h : Sober b c) (hb : b.Typed) {id : Int} (hn : c.nodes.get? id = some n) :
    c.Fits n := by
  intro port v hread
  obtain ⟨d, m, hd, hm, hv⟩ := Board.read_eq_ok_iff.mp hread
  obtain ⟨n₀, hn₀, en⟩ := h.origin hn
  obtain ⟨m₀, hm₀, em⟩ := h.origin_nodeAt? hm
  obtain ⟨hposition, hkind, hwiring⟩ := Node.of_fixture_eq en
  have hmem := Table.mem_values_of_get? hn₀
  -- the port that is bound, and the node that it faces
  obtain ⟨p, hp, rfl⟩ := Wiring.exists_of_directionOf? hd
  rw [← hwiring] at hp
  rw [← hposition] at hm₀
  obtain ⟨dn, hdn, hports⟩ := hb.wired n₀ hmem
  have hasks := (Board.builtin_descriptor hb.catalogue hdn).2 p
    (hports p (List.mem_map_of_mem (f := (·.2)) hp))
  rw [hkind] at hasks
  rcases hb.facing n₀ hmem _ hp m₀ hm₀ with hany | houtput
  · rw [← hasks, hany]
    rfl
  · obtain ⟨dm, hdm, houtput⟩ := exists_of_map_eq_ok houtput
    obtain ⟨_, -, hget⟩ := Board.nodeAt?_eq_some_iff.mp hm
    have hyields := (Board.builtin_descriptor hb.catalogue hdm).1
    rw [houtput, hasks, (Node.of_fixture_eq em).2.1] at hyields
    rw [hyields]
    exact (h.typed _ m hget).1 v hv

/-- What a node holds after it fired is of its type. -/
theorem typed_after (h : Sober b c) (hb : b.Typed) {id : Int} (hn : c.nodes.get? id = some n) :
    (n.after (c.evaluate n)).WellTyped := by
  obtain ⟨n₀, hn₀, en⟩ := h.origin hn
  obtain ⟨-, hkind, hwiring⟩ := Node.of_fixture_eq en
  have hends := Board.evaluate_ends (b := c) (n := n) fun hk v hv => by
    rw [← hwiring] at hv
    exact hb.constant n₀ (Table.mem_values_of_get? hn₀) (hkind.trans hk) v hv
  refine ⟨fun v hv => hends.of_ok (Evaluation.result_of_state_eq_ok hv), fun e he => ?_⟩
  exact hends.of_error (Evaluation.result_of_state_eq_err he) (h.fits hb hn)

/-- **One firing** keeps the invariant, also if it ends in a fault. -/
theorem fire {p : Pass α} (h : Sober b p.board) (hb : b.Typed) (id : Int) :
    Sober b (Pass.fire p id).state.board := by
  cases hn : p.board.nodes.get? id with
  | none =>
    rw [Pass.fire, hn]
    exact h
  | some n =>
    rw [Pass.board_fire hn]
    refine ⟨h.tiles, fun j => ?_, fun j m hm => ?_⟩
    · rw [← h.fixtures, Board.updateNode]
      by_cases e : j = id
      · subst e
        rw [Table.get?_modify_self, Option.map_map]
        exact congrArg (fun f => (p.board.nodes.get? j).map f)
          (funext fun m => m.fixture_after (p.board.evaluate n))
      · rw [Table.get?_modify_of_ne _ _ e]
    · rw [Board.updateNode] at hm
      by_cases e : j = id
      · subst e
        rw [Table.get?_modify_self, hn, Option.map_some] at hm
        obtain rfl := Option.some.inj hm
        exact h.typed_after hb hn
      · rw [Table.get?_modify_of_ne _ _ e] at hm
        exact h.typed j m hm

/-- **A pass** keeps the invariant, however far it comes. -/
theorem run (h : Sober b c) (hb : b.Typed) (sink : List (Effect α)) :
    Sober b (Pass.run c sink).state.board := by
  have hsteps := Progress.fold_rel (R := fun (p q : Pass α) => Sober b p.board → Sober b q.board)
    (fun _ hp => hp) (fun hpq hqr hp => hqr (hpq hp)) (fun _ id hp => hp.fire hb id)
  exact hsteps _ ⟨c, sink, []⟩ h

end Sober

namespace Board

/-- What becomes of a board by a request and any number of passes, whether they meet faults or
not. -/
inductive Activated (b : Board α) : Board α → Prop where
  | request : Activated b b.request
  | pass {c : Board α} (h : Activated b c) (sink : List (Effect α)) :
      Activated b (Pass.run c sink).state.board

/-- A request and any passes leave the nodes well-typed, and change them in states and charges only.
-/
theorem Activated.sober {b c : Board α} (h : b.Activated c) (hb : b.Typed) : Sober b c := by
  induction h with
  | request => exact .request b
  | pass _ sink ih => exact ih.run hb sink

/-- **Wiring is sound.**  Every evaluation but that of a constant ends with a value of the type that
the built-in catalogue declares for its kind.  On a well-typed board no node ever holds a mismatch
but those of the guards.  And edits of any kind bind nodes to ports of their kinds only. -/
theorem sound_wiring :
    (∀ (b : Board α) (n : Node α) (v : Value α), n.kind ≠ .constantNumber →
      (b.evaluate n).result = .ok v →
        ∃ d, Catalogue.builtin.find n.kind.name = .ok d ∧ v.matches? d.output.type = true) ∧
    (∀ b c : Board α, b.Typed → b.Activated c → ∀ id n, c.nodes.get? id = some n →
      ∀ port expected got, n.state = .err (.mismatch port expected got) →
        Guarded α n.kind (.mismatch port expected got)) ∧
    ∀ (settings : Settings α) (edits : List (Edit α)),
      (History.of .builtin settings edits).board.Wired := by
  refine ⟨fun b n v hk hv => ?_, fun b c hb hc id n hn port expected got he => ?_,
    History.wired⟩
  · obtain ⟨d, hd, -, hyields, -⟩ := Catalogue.builtin_declares n.kind
    refine ⟨d, Catalogue.find_eq_ok_iff.mpr ⟨n.kind, n.kind.ofName?_name, hd⟩, ?_⟩
    rw [hyields]
    exact (evaluate_ends fun h => absurd h hk).of_ok hv
  · exact ((hc.sober hb).typed id n hn).2 _ he

/-- Two infinite constants, the vector that is made of them, and a strike that is aimed there. -/
def aim : List (Edit Float) := [
  .placeHeart ⟨0, 0⟩, .placeNode ⟨1, -1⟩ "ConstantNumber", .placeNode ⟨0, 1⟩ "ConstantNumber",
  .placeNode ⟨1, 0⟩ "VectorCreate", .placeNode ⟨2, 0⟩ "Orbital",
  .setConstant 2 (some (.number (1.0 / 0.0))), .setConstant 3 (some (.number (1.0 / 0.0))),
  .bind 4 "north" "x", .bind 4 "south_west" "y", .bind 5 "north_west" "target"]

/-- The board after these edits and a pruning. -/
@[irreducible] def aiming : Board Float := (History.of .builtin .standard aim).board.prune.board

/-- The guard of the strike refuses, three passes after the request. -/
theorem sound_wiring_aiming : aiming.Typed ∧ (∃ c n, aiming.Activated c ∧
    c.nodes.get? 5 = some n ∧ n.state = .err (notFinite "target" .vector) ∧
      Guarded Float n.kind (notFinite "target" .vector)) ∧
    ∃ d, Catalogue.builtin.find "VectorMultiply" = .ok d ∧
      (Value.vector 0.0 0.0 : Value Float).matches? d.output.type = true := by
  have htyped : aiming.Typed := by
    have hcatalogue := (History.sound_of .builtin .standard aim).catalogue
    have hwired := (History.wired .standard aim).prune
    refine ⟨?_, ?_, by decide +kernel, by decide +kernel⟩
    · unfold aiming
      exact (catalogue_prune _).trans hcatalogue
    · unfold aiming
      exact hwired
  have hc := ((Activated.request (b := aiming).pass []).pass []).pass []
  have hfifth : ((Pass.run (Pass.run (Pass.run aiming.request []).state.board []).state.board
      []).state.board.nodes.get? 5).map (·.state.error?) =
        some (some (notFinite "target" .vector)) := by
    decide +kernel
  obtain ⟨n, hn, he⟩ := Option.map_eq_some_iff.mp hfifth
  have hstate : n.state = .err (notFinite "target" .vector) := by
    cases hs : n.state <;> rw [hs] at he <;> cases he
    rfl
  refine ⟨htyped, ⟨_, n, hc, hn, hstate, ?_⟩, ?_⟩
  · exact sound_wiring.2.1 aiming _ htyped hc 5 n hn _ _ _ hstate
  · exact sound_wiring.1 aiming ⟨1, .origin, .vectorMultiply, .empty, .idle, 0.0, 0⟩ _
      (by decide) rfl

end Board

end HexPulse
