import HexPulse.Activation
import HexPulse.Proofs.Board.Agreement
import HexPulse.Proofs.Evaluation.Locality

/-!
# HexPulse — Proofs — Activation — Pass

A pass fires its nodes one after the other on a board that changes under them.  None of them
notices: a ready node reads only neighbours that hold values, a node that fires was asked to fire
and held none, so no node reads what another one of the same pass writes (`Ready.sameView`).

* `Pass.run_eq`: without a fault, a pass leaves the board `settle`d, where every ready node holds
  the outcome that its evaluation has on the board before the pass, and everything else is as it
  was; the sink grows by the effects of these evaluations.
* `Pass.run_fault_eq_none_iff`: it meets a fault exactly if the evaluation of some ready node does on
  the board before the pass.
-/

namespace HexPulse

variable {α : Type}

/-! ### The outcome of one evaluation -/

namespace Evaluation

/-- The state that an evaluation leaves its node in. -/
def state (e : Evaluation α) : NodeState α :=
  match e.result with
  | .ok v => .ok v
  | .error (.refused error) => .err error
  | .error (.fault _) => .triggered

/-- The evaluation ended with a value or a port error. -/
def Faultless (e : Evaluation α) : Prop := ∀ f, e.result ≠ .error (.fault f)

/-- An evaluation without a fault leaves its node done. -/
theorem Faultless.phase_state {e : Evaluation α} (h : e.Faultless) : e.state.phase = .done := by
  rw [state]
  split
  · rfl
  · rfl
  · next f hf => exact absurd hf (h f)

end Evaluation

/-- The node with the outcome of an evaluation. -/
def Node.after (n : Node α) (e : Evaluation α) : Node α :=
  { n with state := e.state, charge := e.charge }

@[simp] theorem Node.id_after (n : Node α) (e : Evaluation α) : (n.after e).id = n.id := rfl

@[simp] theorem Node.state_after (n : Node α) (e : Evaluation α) :
    (n.after e).state = e.state := rfl

theorem NodeState.phase_eq_requested_iff {s : NodeState α} :
    s.phase = .requested ↔ s = .requested := by
  cases s <;> simp [phase]

theorem NodeState.phase_eq_disabled_iff {s : NodeState α} :
    s.phase = .disabled ↔ s = .disabled := by
  cases s <;> simp [phase]

theorem NodeState.isOk_iff {s : NodeState α} : s.isOk = true ↔ ∃ v, s = .ok v := by
  cases s <;> simp [isOk, value?]

namespace Board

/-! ### Readiness -/

/-- The node is asked to fire, and every direction it is bound to leads to a node that holds a
value. -/
def Ready (b : Board α) (n : Node α) : Prop :=
  n.state = .requested ∧
    ∀ d ∈ n.wiring.directions, ∃ m v, b.nodeAt? (n.position.neighbor d) = some m ∧ m.state = .ok v

/-- A node is ready if every direction that is bound leads to a node with a value. -/
theorem isReady_iff {b : Board α} {n : Node α} :
    b.isReady n = true ↔ ∀ d ∈ n.wiring.directions,
      ∃ m v, b.nodeAt? (n.position.neighbor d) = some m ∧ m.state = .ok v := by
  rw [isReady, List.all_eq_true]
  refine forall₂_congr fun d _ => ?_
  cases b.nodeAt? (n.position.neighbor d) with
  | none => simp
  | some m => simp [NodeState.isOk_iff]

/-- The nodes that are told are those that are ready. -/
theorem mem_ready_iff {b : Board α} {n : Node α} :
    n ∈ b.ready ↔ n ∈ b.nodes.values ∧ b.Ready n := by
  rw [ready, List.mem_filter, Bool.and_eq_true, decide_eq_true_eq,
    NodeState.phase_eq_requested_iff, isReady_iff]
  rfl

/-- The ids of the ready nodes are those of the nodes that are ready. -/
theorem mem_map_ready_iff {b : Board α} {id : Int} :
    id ∈ b.ready.map (·.id) ↔ ∃ n ∈ b.nodes.values, n.id = id ∧ b.Ready n := by
  simp only [List.mem_map, mem_ready_iff]
  exact ⟨fun ⟨n, hn, e⟩ => ⟨n, hn.1, e, hn.2⟩, fun ⟨n, hn, e, hr⟩ => ⟨n, ⟨hn, hr⟩, e⟩⟩

theorem id_mem_map_ready_iff {b : Board α} (hb : b.nodes.Keyed Node.id) {n : Node α}
    (hn : n ∈ b.nodes.values) : n.id ∈ b.ready.map (·.id) ↔ b.Ready n := by
  rw [mem_map_ready_iff]
  refine ⟨fun ⟨m, hm, e, hr⟩ => ?_, fun hr => ⟨n, hn, rfl, hr⟩⟩
  rwa [← hb.eq_of_id_eq hm hn e]

/-- A pass between two of its steps: the nodes of `ids` have fired, those of `todo` have not.  All
of them were ready, and none comes twice. -/
structure Underway (b : Board α) (ids : List Int) (todo : List (Node α)) : Prop where
  fired : ∀ id ∈ ids, ∃ m ∈ b.ready, m.id = id
  ready : ∀ n ∈ todo, n ∈ b.ready
  nodup : (ids ++ todo.map (·.id)).Nodup

namespace Underway

variable {b : Board α} {n : Node α} {ids : List Int} {todo : List (Node α)}

/-- A pass begins with all ready nodes, and none has fired. -/
theorem start (hb : b.nodes.Keyed Node.id) : Underway b [] b.ready := by
  refine ⟨fun id h => absurd h List.not_mem_nil, fun n hn => hn, ?_⟩
  have hsub : (b.ready.map (·.id)).Sublist b.nodes.keys := by
    rw [hb.keys_eq]
    exact List.Sublist.map _ List.filter_sublist
  exact hsub.nodup hb.nodup

/-- The next node was ready at the start. -/
theorem head_ready (h : Underway b ids (n :: todo)) : n ∈ b.ready := h.ready n List.mem_cons_self

theorem head_notMem (h : Underway b ids (n :: todo)) : n.id ∉ ids := fun hi =>
  (List.nodup_append.mp h.nodup).2.2 _ hi _ List.mem_cons_self rfl

theorem tail (h : Underway b ids (n :: todo)) : Underway b (ids ++ [n.id]) todo := by
  refine ⟨fun id hi => ?_, fun m hm => h.ready m (List.mem_cons_of_mem _ hm), ?_⟩
  · rcases List.mem_append.mp hi with hi | hi
    · exact h.fired id hi
    · exact ⟨n, h.head_ready, (List.mem_singleton.mp hi).symm⟩
  · rw [List.append_assoc]
    exact h.nodup

end Underway

variable [Scalar α]

/-! ### The board after some nodes fired -/

/-- The board on which the nodes of some ids hold what they evaluate to on `b`. -/
def settle (b : Board α) (ids : List Int) : Board α :=
  { b with nodes := b.nodes.mapValues fun n => if n.id ∈ ids then n.after (b.evaluate n) else n }

/-- Nodes that fired are as their evaluations left them, and the others as they were. -/
theorem nodes_settle (b : Board α) (ids : List Int) : (b.settle ids).nodes =
    b.nodes.mapValues fun n => if n.id ∈ ids then n.after (b.evaluate n) else n := rfl

/-- The effects that the node of an id asks for on `b`. -/
def effectsOf (b : Board α) (id : Int) : List (Effect α) :=
  match b.nodes.get? id with
  | some n => (b.evaluate n).effects
  | none => []

theorem settle_nil (b : Board α) : b.settle [] = b := by
  have h : b.nodes.mapValues (fun n => if n.id ∈ [] then n.after (b.evaluate n) else n) = b.nodes :=
    Table.mapValues_eq_self fun n _ => if_neg List.not_mem_nil
  simp only [settle, h]

theorem get?_settle (b : Board α) (ids : List Int) (id : Int) :
    (b.settle ids).nodes.get? id =
      (b.nodes.get? id).map fun n => if n.id ∈ ids then n.after (b.evaluate n) else n :=
  Table.get?_mapValues _ _ _

theorem nodeAt?_settle (b : Board α) (ids : List Int) (c : Hex) :
    (b.settle ids).nodeAt? c =
      (b.nodeAt? c).map fun n => if n.id ∈ ids then n.after (b.evaluate n) else n := by
  rw [nodeAt?, nodeAt?, show (b.settle ids).tile? c = b.tile? c from rfl]
  split
  · exact b.get?_settle ids _
  · rfl

/-- **A ready node notices nothing.**  It reads neighbours that hold values; nodes that were
asked to fire hold none, so whether they have fired by now makes no difference to it. -/
theorem Ready.sameView {b : Board α} (hb : b.nodes.Keyed Node.id) {n : Node α} (hn : b.Ready n)
    {ids : List Int} (hids : ∀ id ∈ ids, ∃ m ∈ b.ready, m.id = id) :
    SameView n b (b.settle ids) where
  settings := rfl
  tile _ := rfl
  targets := rfl
  source d hd := by
    obtain ⟨m, v, hm, hv⟩ := hn.2 d hd
    have hnot : m.id ∉ ids := by
      intro hi
      obtain ⟨k, hk, e⟩ := hids m.id hi
      obtain ⟨_, -, hg⟩ := nodeAt?_eq_some_iff.mp hm
      obtain ⟨hk, hr⟩ := mem_ready_iff.mp hk
      obtain rfl := hb.eq_of_id_eq hk (Table.mem_values_of_get? hg) e
      rw [hr.1] at hv
      cases hv
    rw [nodeAt?_settle, hm, Option.map_some, if_neg hnot]

/-- A pass files no node under another id. -/
theorem keyed_settle {b : Board α} (hb : b.nodes.Keyed Node.id) (ids : List Int) :
    (b.settle ids).nodes.Keyed Node.id := by
  rw [nodes_settle]
  refine hb.mapValues fun n _ => ?_
  split <;> rfl

/-- Writing the outcome of one more node. -/
theorem updateNode_settle {b : Board α} (hb : b.nodes.Keyed Node.id) {n : Node α}
    (hn : n ∈ b.nodes.values) {ids : List Int} (hi : n.id ∉ ids) :
    ((b.settle ids).updateNode n.id fun m => m.after (b.evaluate n)) =
      b.settle (ids ++ [n.id]) := by
  refine congrArg (fun t => { b with nodes := t }) ?_
  rw [(keyed_settle hb ids).modify_eq_mapValues, settle, Table.mapValues_mapValues]
  refine Table.mapValues_congr fun m hm => ?_
  by_cases e : m.id = n.id
  · obtain rfl := hb.eq_of_id_eq hm hn e
    simp [hi]
  · by_cases hmi : m.id ∈ ids <;> simp [hmi, e]

/-- The next node is found as it was before the pass, and evaluates as it did. -/
theorem Underway.head_unchanged {b : Board α} {n : Node α} {ids : List Int}
    {todo : List (Node α)} (hb : b.nodes.Keyed Node.id) (h : Underway b ids (n :: todo)) :
    (b.settle ids).nodes.get? n.id = some n ∧ (b.settle ids).evaluate n = b.evaluate n := by
  obtain ⟨hv, hr⟩ := mem_ready_iff.mp h.head_ready
  refine ⟨?_, (hr.sameView hb h.fired).evaluate_eq⟩
  rw [get?_settle, hb.get?_id hv, Option.map_some, if_neg h.head_notMem]

end Board

/-! ### The run of a pass -/

namespace Pass

open Board

variable [Scalar α] {b : Board α} {n : Node α} {ids : List Int} {todo : List (Node α)}

/-- One step of a pass: the node gets the outcome that it has on the board before the pass. -/
theorem fire_settle (hb : b.nodes.Keyed Node.id) (h : Underway b ids (n :: todo))
    (hf : (b.evaluate n).Faultless) (sink : List (Effect α)) (fired : List Int) :
    fire ⟨b.settle ids, sink, fired⟩ n.id =
      .done ⟨b.settle (ids ++ [n.id]), sink ++ b.effectsOf n.id, fired ++ [n.id]⟩ := by
  obtain ⟨hget, heval⟩ := h.head_unchanged hb
  obtain ⟨hv, -⟩ := mem_ready_iff.mp h.head_ready
  have heffects : b.effectsOf n.id = (b.evaluate n).effects := by rw [effectsOf, hb.get?_id hv]
  simp only [fire, hget, heval, heffects, ← updateNode_settle hb hv h.head_notMem]
  simp only [Node.after, Evaluation.state]
  cases e : (b.evaluate n).result with
  | ok v => rfl
  | error halt =>
    cases halt with
    | refused error => rfl
    | fault f => exact absurd e (hf f)

/-- A step without a fault is the step of a node whose evaluation has none. -/
theorem faultless_of_fire (hb : b.nodes.Keyed Node.id) (h : Underway b ids (n :: todo))
    {sink : List (Effect α)} {fired : List Int}
    (hf : (fire ⟨b.settle ids, sink, fired⟩ n.id).fault = none) : (b.evaluate n).Faultless := by
  obtain ⟨hget, heval⟩ := h.head_unchanged hb
  intro f e
  simp [fire, hget, heval, e, Progress.halt] at hf

/-- The nodes of `todo` fire one after the other, behind those of `ids`. -/
theorem fold_fire (hb : b.nodes.Keyed Node.id) (h : Underway b ids todo)
    (hf : ∀ n ∈ todo, (b.evaluate n).Faultless) (sink : List (Effect α)) :
    Progress.fold fire (todo.map (·.id)) ⟨b.settle ids, sink, ids⟩ =
      .done ⟨b.settle (ids ++ todo.map (·.id)), sink ++ (todo.map (·.id)).flatMap b.effectsOf,
        ids ++ todo.map (·.id)⟩ := by
  induction todo generalizing ids sink with
  | nil => simp [Progress.fold]
  | cons n todo ih =>
    rw [List.map_cons, Progress.fold, fire_settle hb h (hf n List.mem_cons_self),
      Progress.andThen_done, ih h.tail fun m hm => hf m (List.mem_cons_of_mem _ hm)]
    simp

/-- Where a pass meets no fault, no node that was told did. -/
theorem faultless_of_fold (hb : b.nodes.Keyed Node.id) (h : Underway b ids todo)
    (sink : List (Effect α))
    (hf : (Progress.fold fire (todo.map (·.id)) ⟨b.settle ids, sink, ids⟩).fault = none) :
    ∀ n ∈ todo, (b.evaluate n).Faultless := by
  induction todo generalizing ids sink with
  | nil => exact fun n hn => absurd hn List.not_mem_nil
  | cons n todo ih =>
    rw [List.map_cons, Progress.fold] at hf
    obtain ⟨hfirst, hrest⟩ := Progress.andThen_fault_eq_none hf
    have hn := faultless_of_fire hb h hfirst
    rw [hrest, fire_settle hb h hn] at hf
    intro m hm
    rcases List.mem_cons.mp hm with rfl | hm
    · exact hn
    · exact ih h.tail _ hf m hm

/-- **A pass without a fault.**  Every ready node holds what it evaluates to on the board before
the pass, nothing else has changed, and the effects follow one another in the order of firing. -/
theorem run_eq (hb : b.nodes.Keyed Node.id) (hf : ∀ n ∈ b.ready, (b.evaluate n).Faultless)
    (sink : List (Effect α)) :
    run b sink = .done ⟨b.settle (b.ready.map (·.id)),
      sink ++ (b.ready.map (·.id)).flatMap b.effectsOf, b.ready.map (·.id)⟩ := by
  have h := fold_fire hb (.start hb) hf sink
  rwa [settle_nil] at h

/-- A pass meets a fault exactly if the evaluation of a ready node has one. -/
theorem run_fault_eq_none_iff (hb : b.nodes.Keyed Node.id) {sink : List (Effect α)} :
    (run b sink).fault = none ↔ ∀ n ∈ b.ready, (b.evaluate n).Faultless := by
  refine ⟨fun h => faultless_of_fold hb (.start hb) sink ?_, fun h => ?_⟩
  · rw [settle_nil]
    exact h
  · rw [run_eq hb h]
    rfl

/-- Behind a pass the nodes are filed under their ids. -/
theorem keyed_run (hb : b.nodes.Keyed Node.id) {sink : List (Effect α)}
    (hf : (run b sink).fault = none) : (run b sink).state.board.nodes.Keyed Node.id := by
  rw [run_eq hb ((run_fault_eq_none_iff hb).mp hf)]
  exact keyed_settle hb _

end Pass

end HexPulse
