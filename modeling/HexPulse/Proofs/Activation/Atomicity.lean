import HexPulse.Proofs.Activation.Pass
import HexPulse.Proofs.Evaluation.Firing
import HexPulse.Scalar.Double

/-!
# HexPulse — Proofs — Activation — Atomicity

A node that is refused a value has had no effect, whatever it read before.

* `Pass.exists_settled`: where a pass ends, also at a fault, the nodes that fired hold what they
  evaluate to on the board before the pass, and the sink got their effects.
* `Pass.atomic`: a node that a pass leaves with an error asked for nothing and is otherwise as it
  was before.
-/

namespace HexPulse

variable {α : Type} [Scalar α]

namespace Pass

open Board

variable {b : Board α} {n : Node α} {ids : List Int} {todo : List (Node α)}

/-- One step of a pass, which may meet a fault. -/
theorem state_fire_settle (hb : b.nodes.Keyed Node.id) (h : Underway b ids (n :: todo))
    (sink : List (Effect α)) (fired : List Int) :
    (fire ⟨b.settle ids, sink, fired⟩ n.id).state.board = b.settle (ids ++ [n.id]) ∧
      (fire ⟨b.settle ids, sink, fired⟩ n.id).state.sink = sink ++ b.effectsOf n.id := by
  obtain ⟨hget, heval⟩ := h.head_unchanged hb
  obtain ⟨hv, -⟩ := mem_ready_iff.mp h.head_ready
  have heffects : b.effectsOf n.id = (b.evaluate n).effects := by rw [effectsOf, hb.get?_id hv]
  simp only [fire, hget, heval, heffects, ← updateNode_settle hb hv h.head_notMem]
  simp only [Node.after, Evaluation.state]
  cases e : (b.evaluate n).result with
  | ok v => exact ⟨rfl, rfl⟩
  | error halt =>
    cases halt with
    | refused error => exact ⟨rfl, rfl⟩
    | fault f => exact ⟨rfl, rfl⟩

/-- The nodes of `todo` fire one after the other, up to the first fault. -/
theorem exists_settled_fold (hb : b.nodes.Keyed Node.id) (h : Underway b ids todo)
    (sink : List (Effect α)) (fired : List Int) :
    let p := Progress.fold fire (todo.map (·.id)) ⟨b.settle ids, sink, fired⟩
    ∃ done, done <+: todo.map (·.id) ∧ p.state.board = b.settle (ids ++ done) ∧
      p.state.sink = sink ++ done.flatMap b.effectsOf ∧
      (p.fault = none → done = todo.map (·.id)) := by
  induction todo generalizing ids sink fired with
  | nil =>
    exact ⟨[], List.prefix_rfl, by simp [Progress.fold], by simp [Progress.fold], fun _ => rfl⟩
  | cons n todo ih =>
    obtain ⟨hboard, hsink⟩ := state_fire_settle hb h sink fired
    rw [List.map_cons, Progress.fold, Progress.andThen]
    -- a node that meets a fault is left triggered and is the last one to be told
    cases hfault : (fire ⟨b.settle ids, sink, fired⟩ n.id).fault with
    | some f =>
      refine ⟨[n.id], ⟨_, rfl⟩, hboard, ?_, fun hnone => ?_⟩
      · simpa using hsink
      · rw [hfault] at hnone
        cases hnone
    | none =>
      obtain ⟨done, hprefix, hrest⟩ := ih h.tail (sink ++ b.effectsOf n.id)
        (fire ⟨b.settle ids, sink, fired⟩ n.id).state.fired
      rw [← hboard, ← hsink] at hrest
      obtain ⟨hboard', hsink', hdone⟩ := hrest
      refine ⟨n.id :: done, (List.prefix_cons_inj _).mpr hprefix, ?_, ?_, fun hnone => ?_⟩
      · rw [hboard', List.append_assoc]
        rfl
      · rw [hsink', hsink, List.append_assoc]
        rfl
      · rw [hdone hnone]

/-- **Where a pass ends, the nodes that fired hold what they evaluate to on the board before the
pass, and the sink got their effects.**  A fault ends it before all ready nodes have fired. -/
theorem exists_settled (hb : b.nodes.Keyed Node.id) (sink : List (Effect α)) :
    ∃ done, done <+: b.ready.map (·.id) ∧ (run b sink).state.board = b.settle done ∧
      (run b sink).state.sink = sink ++ done.flatMap b.effectsOf ∧
      ((run b sink).fault = none → done = b.ready.map (·.id)) := by
  have h := exists_settled_fold hb (.start hb) sink []
  rwa [settle_nil] at h

/-- **A node that is refused a value has had no effect.**  Firing it, on any board and with any
sink, leaves both as they were; firing a node that has a value appends to the sink and changes a charge
as its kind may, and nothing else.  So where a pass ends, a node that it left with an error has
added nothing to the sink, and is as it was before but for its state. -/
theorem atomic (hb : b.nodes.Keyed Node.id) (sink : List (Effect α)) :
    (∀ n ∈ b.nodes.values,
      (∀ error s, Firing.of n (b, sink) = (.error (.refused error), s) → s = (b, sink)) ∧
      ∀ v s, Firing.of n (b, sink) = (.ok v, s) → ∃ charge effects,
        s = (b.updateNode n.id fun m => { m with charge := charge }, sink ++ effects) ∧
        (charge ≠ n.charge → n.kind = .plasma) ∧ (effects ≠ [] → n.kind ∈ Kind.acting)) ∧
    ∃ done, done <+: b.ready.map (·.id) ∧
      (run b sink).state.sink = sink ++ done.flatMap b.effectsOf ∧
      ((run b sink).fault = none → done = b.ready.map (·.id)) ∧
      ∀ id ∈ done, ∀ n error, (run b sink).state.board.nodes.get? id = some n →
        n.state = .err error → b.effectsOf id = [] ∧
          ∃ m, b.nodes.get? id = some m ∧ n = { m with state := .err error } := by
  refine ⟨fun n hn => ?_, ?_⟩
  · have hatomic := Evaluation.Atomic.evaluate b n
    rw [Firing.of_apply sink hb hn, Firing.settled]
    refine ⟨fun error s hs => ?_, fun v s hs => ?_⟩
    · obtain ⟨hresult, rfl⟩ := Prod.mk.inj hs
      obtain ⟨heffects, hcharge⟩ := hatomic.refused error hresult
      rw [heffects, hcharge, updateNode_eq_self hb hn rfl, List.append_nil]
    · obtain ⟨-, rfl⟩ := Prod.mk.inj hs
      exact ⟨_, _, rfl, hatomic.charge, hatomic.effects⟩
  · obtain ⟨done, hprefix, hboard, hsink, hall⟩ := exists_settled hb sink
    refine ⟨done, hprefix, hsink, hall, fun id hid n error hn herror => ?_⟩
    rw [hboard, get?_settle] at hn
    obtain ⟨m, hm, rfl⟩ := Option.map_eq_some_iff.mp hn
    obtain ⟨-, rfl⟩ := hb.get?_eq_some_iff.mp hm
    rw [if_pos hid] at herror ⊢
    -- the state is an error, so the evaluation was refused
    have hresult : (b.evaluate m).result = .error (.refused error) := by
      rw [Node.state_after, Evaluation.state] at herror
      split at herror
      · cases herror
      · next e he => rw [he, NodeState.err.inj herror]
      · cases herror
    obtain ⟨heffects, hcharge⟩ := (Evaluation.Atomic.evaluate b m).refused error hresult
    refine ⟨?_, m, hm, ?_⟩
    · rw [effectsOf, hm]
      exact heffects
    · rw [Node.after, hcharge, ← herror]
      rfl

end Pass

/-- A lazor that is aimed at an entity that is gone, and a node beside it that logs. -/
def Board.misfire : Board Float :=
  let node (id : Int) (position : Hex) (kind : Kind) (wiring : Wiring Float)
    (state : NodeState Float) : Node Float := ⟨id, position, kind, wiring, state, 10.0, 0⟩
  let aiming : Wiring Float := ⟨⟨[(.north, ⟨1, "target", "", .entity, false⟩)]⟩, none⟩
  { Board.new .builtin .standard with
    tiles := ⟨.origin, 1, ⟨[(⟨0, -1⟩, .node 1), (⟨0, 0⟩, .node 2), (⟨1, 0⟩, .node 3)]⟩⟩
    nodes := ⟨[(1, node 1 ⟨0, -1⟩ .closestEntity .empty (.ok (.entity 7))),
      (2, node 2 ⟨0, 0⟩ .lazor aiming .requested), (3, node 3 ⟨1, 0⟩ .debug .empty .requested)]⟩ }

open Board in
/-- The lazor is left with an error and has shot at nothing. -/
theorem Pass.atomic_misfire : misfire.nodes.Keyed Node.id ∧ (Pass.run misfire []).fault = none ∧
    ∃ n m, (Pass.run misfire []).state.board.nodes.get? 2 = some n ∧
      misfire.nodes.get? 2 = some m ∧
      n = { m with state := .err (.vanished "entity 7 no longer exists") } ∧
      misfire.effectsOf 2 = [] := by
  have hb : misfire.nodes.Keyed Node.id := ⟨by decide, by decide⟩
  have hf : (Pass.run misfire []).fault = none := by decide +kernel
  have hstate : ((Pass.run misfire []).state.board.nodes.get? 2).map (·.state) =
      some (.err (.vanished "entity 7 no longer exists")) := by rfl
  obtain ⟨n, hn, herror⟩ := Option.map_eq_some_iff.mp hstate
  obtain ⟨done, -, -, hdone, hatomic⟩ := (Pass.atomic hb []).2
  have hmem : 2 ∈ done := by
    rw [hdone hf]
    decide
  obtain ⟨heffects, m, hm, e⟩ := hatomic 2 hmem n _ hn herror
  exact ⟨hb, hf, n, m, hn, hm, e, heffects⟩

end HexPulse
