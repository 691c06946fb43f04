import HexPulse.Proofs.Activation.Pass
import HexPulse.Scalar.Double

/-!
# HexPulse — Proofs — Activation — Order

The node table has an order, and a pass fires in that order.  Two boards are reorderings of each
other if they differ in nothing else (`Reordered`).  `Pass.run_order_irrelevant` says that a pass
gives every node the outcome it has alone (`Pass.Alone`), hence on all reorderings the same one;
what the order decides is how the fired nodes and their blocks of effects follow one another.
-/

namespace HexPulse

variable {α : Type}

namespace Board

/-- The same board, with its node table in another order. -/
def Reordered (b b' : Board α) : Prop :=
  b'.nodes.entries.Perm b.nodes.entries ∧ b' = { b with nodes := b'.nodes }

namespace Reordered

variable {b b' : Board α}

/-- The order of a table does not matter for a look-up. -/
theorem get?_eq (h : Reordered b b') (hb : b.nodes.Keyed Node.id) (id : Int) :
    b'.nodes.get? id = b.nodes.get? id :=
  Table.get?_eq_of_perm h.1 hb.nodup id

theorem tile?_eq (h : Reordered b b') (c : Hex) : b'.tile? c = b.tile? c := by
  rw [h.2]
  rfl

theorem nodeAt?_eq (h : Reordered b b') (hb : b.nodes.Keyed Node.id) (c : Hex) :
    b'.nodeAt? c = b.nodeAt? c := by
  simp only [nodeAt?, h.tile?_eq, h.get?_eq hb]

theorem keyed (h : Reordered b b') (hb : b.nodes.Keyed Node.id) : b'.nodes.Keyed Node.id :=
  ⟨(h.1.map Prod.fst).nodup_iff.mpr hb.nodup, fun e he => hb.id_eq e (h.1.mem_iff.mp he)⟩

theorem isReady_eq (h : Reordered b b') (hb : b.nodes.Keyed Node.id) (n : Node α) :
    b'.isReady n = b.isReady n := by
  simp only [isReady, h.nodeAt?_eq hb]

/-- The nodes that are told are the same in another order. -/
theorem ready_perm (h : Reordered b b') (hb : b.nodes.Keyed Node.id) : b'.ready.Perm b.ready := by
  rw [ready]
  simp only [h.isReady_eq hb]
  exact (h.1.map _).filter _

variable [Scalar α]

/-- Every node is evaluated to the same. -/
theorem evaluate_eq (h : Reordered b b') (hb : b.nodes.Keyed Node.id) (n : Node α) :
    b'.evaluate n = b.evaluate n := by
  refine SameView.evaluate_eq ⟨?_, h.tile?_eq, ?_, fun d _ => by rw [h.nodeAt?_eq hb]⟩
  · rw [h.2]
  · rw [h.2]

theorem effectsOf_eq (h : Reordered b b') (hb : b.nodes.Keyed Node.id) (id : Int) :
    b'.effectsOf id = b.effectsOf id := by
  simp only [effectsOf, h.get?_eq hb, h.evaluate_eq hb]

end Reordered

end Board

namespace Pass

open Board

variable [Scalar α]

/-- What a pass makes of a board.  Every ready node has the outcome of its evaluation on the board
before the pass, all other nodes and everything else on the board are unchanged, and the sink has
got one block of effects for each node that fired, in the order of firing. -/
structure Alone (b : Board α) (sink : List (Effect α)) (p : Pass α) : Prop where
  ready : ∀ n ∈ b.nodes.values, b.Ready n → p.board.nodes.get? n.id =
    some { n with state := (b.evaluate n).state, charge := (b.evaluate n).charge }
  done : ∀ n ∈ b.nodes.values, b.Ready n → (b.evaluate n).state.phase = .done
  other : ∀ n ∈ b.nodes.values, ¬ b.Ready n → p.board.nodes.get? n.id = some n
  keys : p.board.nodes.keys = b.nodes.keys
  rest : p.board = { b with nodes := p.board.nodes }
  fired : ∀ id, id ∈ p.fired ↔ ∃ n ∈ b.nodes.values, n.id = id ∧ b.Ready n
  order : p.fired.Sublist b.nodes.keys
  sink : p.sink = sink ++ p.fired.flatMap b.effectsOf

/-- **In a pass each node is evaluated by itself**, on the board before the pass. -/
theorem alone {b : Board α} (hb : b.nodes.Keyed Node.id) {sink : List (Effect α)}
    (hf : (run b sink).fault = none) : Alone b sink (run b sink).state := by
  have hf := (run_fault_eq_none_iff hb).mp hf
  rw [run_eq hb hf]
  refine ⟨fun n hn hr => ?_, fun n hn hr => ?_, fun n hn hr => ?_, ?_, rfl,
    fun id => mem_map_ready_iff, ?_, rfl⟩
  · rw [Progress.done_state, get?_settle, hb.get?_id hn, Option.map_some,
      if_pos ((id_mem_map_ready_iff hb hn).mpr hr)]
    rfl
  · exact (hf n (mem_ready_iff.mpr ⟨hn, hr⟩)).phase_state
  · rw [Progress.done_state, get?_settle, hb.get?_id hn, Option.map_some,
      if_neg fun h => hr ((id_mem_map_ready_iff hb hn).mp h)]
  · rw [Progress.done_state, nodes_settle, Table.keys_mapValues]
  · rw [hb.keys_eq]
    exact List.Sublist.map _ List.filter_sublist

namespace Alone

variable {b : Board α} {sink : List (Effect α)} {p : Pass α}

/-- The nodes that fire are those that are ready. -/
theorem mem_fired_iff (h : Alone b sink p) (hb : b.nodes.Keyed Node.id) {id : Int} {n : Node α}
    (hn : b.nodes.get? id = some n) : id ∈ p.fired ↔ b.Ready n := by
  obtain ⟨hv, rfl⟩ := hb.get?_eq_some_iff.mp hn
  rw [h.fired]
  refine ⟨fun ⟨m, hm, e, hr⟩ => ?_, fun hr => ⟨n, hv, rfl, hr⟩⟩
  rwa [← hb.eq_of_id_eq hm hv e]

/-- A node that did not fire is as it was. -/
theorem get?_of_notMem (h : Alone b sink p) (hb : b.nodes.Keyed Node.id) {id : Int}
    (hid : id ∉ p.fired) : p.board.nodes.get? id = b.nodes.get? id := by
  cases hn : b.nodes.get? id with
  | none =>
    rw [Table.get?_eq_none_iff] at hn ⊢
    rwa [h.keys]
  | some n =>
    obtain ⟨hv, rfl⟩ := hb.get?_eq_some_iff.mp hn
    exact h.other n hv fun hr => hid ((h.mem_fired_iff hb hn).mpr hr)

end Alone

/-- **The order of the nodes is irrelevant.**  A pass meets no fault exactly if no ready node does
on the board before the pass.  Then it gives every node the outcome that the node has alone, and a
pass over the same board in another order meets no fault either, leaves every node the same, fires
the same nodes in another order, and appends the same blocks of effects in that order. -/
theorem run_order_irrelevant {b : Board α} (hb : b.NodesAgree) (sink : List (Effect α)) :
    ((run b sink).fault = none ↔
      ∀ n ∈ b.nodes.values, b.Ready n → (b.evaluate n).Faultless) ∧
    ((run b sink).fault = none → Alone b sink (run b sink).state ∧
      ∀ b' sink', Reordered b b' →
        (run b' sink').fault = none ∧
        (∀ id, (run b' sink').state.board.nodes.get? id = (run b sink).state.board.nodes.get? id) ∧
        (run b' sink').state.fired.Perm (run b sink).state.fired ∧
        (run b' sink').state.sink = sink' ++ (run b' sink').state.fired.flatMap b.effectsOf) := by
  have hk := hb.keyed
  refine ⟨?_, fun hf => ⟨alone hk hf, fun b' sink' hr => ?_⟩⟩
  · rw [run_fault_eq_none_iff hk]
    exact ⟨fun h n hn hr => h n (mem_ready_iff.mpr ⟨hn, hr⟩),
      fun h n hn => h n (mem_ready_iff.mp hn).1 (mem_ready_iff.mp hn).2⟩
  have hf := (run_fault_eq_none_iff hk).mp hf
  have hf' : ∀ n ∈ b'.ready, (b'.evaluate n).Faultless := by
    intro n hn
    rw [hr.evaluate_eq hk]
    exact hf n ((hr.ready_perm hk).mem_iff.mp hn)
  have hids : (b'.ready.map (·.id)).Perm (b.ready.map (·.id)) := (hr.ready_perm hk).map _
  -- both passes settle the same ids, with the same evaluations
  rw [run_eq hk hf, run_eq (hr.keyed hk) hf']
  refine ⟨rfl, fun id => ?_, hids, ?_⟩
  · simp only [Progress.done_state, get?_settle, hr.get?_eq hk, hr.evaluate_eq hk, hids.mem_iff]
  · simp only [Progress.done_state, funext (hr.effectsOf_eq hk)]

end Pass

/-- A constant, a product that reads it, a vector that reads nothing, and a length that reads from
outside the board. -/
def Board.relay : Board Float :=
  let node (id : Int) (position : Hex) (kind : Kind) (wiring : Wiring Float) : Node Float :=
    ⟨id, position, kind, wiring, .idle, 10.0, 0⟩
  let reading (d : Direction) (port : String) : Wiring Float :=
    ⟨⟨[(d, ⟨1, port, "", .any, false⟩)]⟩, none⟩
  { Board.new .builtin .standard with
    tiles := ⟨.origin, 1, ⟨[(⟨0, 0⟩, .node 1), (⟨1, 0⟩, .node 2), (⟨0, 1⟩, .node 3),
      (⟨0, -1⟩, .node 4), (⟨-1, 0⟩, .unoccupied)]⟩⟩
    nodes := ⟨[(1, node 1 ⟨0, 0⟩ .constantNumber ⟨.empty, some (.number 2.0)⟩),
      (2, node 2 ⟨1, 0⟩ .numberMultiply (reading .northWest "a")),
      (3, node 3 ⟨0, 1⟩ .vectorNegate .empty),
      (4, node 4 ⟨0, -1⟩ .vectorLength (reading .north "vector"))]⟩ }

open Board in
theorem Pass.run_order_irrelevant_relay :
    relay.request.NodesAgree ∧ (Pass.run relay.request []).fault = none ∧
      Pass.Alone relay.request [] (Pass.run relay.request []).state ∧
      ∀ id, (Pass.run { relay.request with nodes := ⟨relay.request.nodes.entries.reverse⟩ }
        []).state.board.nodes.get? id = (Pass.run relay.request []).state.board.nodes.get? id := by
  have hb : relay.request.NodesAgree := by decide
  have hf : (Pass.run relay.request []).fault = none := by decide
  have hr : Reordered relay.request
      { relay.request with nodes := ⟨relay.request.nodes.entries.reverse⟩ } :=
    ⟨List.reverse_perm _, rfl⟩
  obtain ⟨halone, horder⟩ := (Pass.run_order_irrelevant hb []).2 hf
  exact ⟨hb, hf, halone, (horder _ [] hr).2.1⟩

end HexPulse
