import HexPulse.Proofs.Activation.Order
import HexPulse.Proofs.Evaluation.Causes
import HexPulse.Scalar.Double

/-!
# HexPulse — Proofs — Activation — Readiness

Whether a node is ready is decided before a pass, by the directions that the node is bound to.  What
it reads, it reads by the names of its ports, when its turn comes and others have fired.

* `Pass.Turn`: when its turn comes, a ready node is as it was, every port that is wired reads what
  the neighbour held before the pass, and a port is skipped only for a value of another type.
* `Pass.readiness`: so the nodes that fire end with a value or with an error, which never blames a
  neighbour, and the others are left as they were.
-/

namespace HexPulse

variable {α : Type}

/-- The state of a node that has fired: exactly one of a value and an error, and an error that
blames no neighbour. -/
def NodeState.Concluded (s : NodeState α) : Prop :=
  (s.isOk = true ∧ s.isErr = false ∧ ∃ v, s = .ok v) ∨
    (s.isErr = true ∧ s.isOk = false ∧ ∃ e, s = .err e ∧ ¬ e.Dangling)

theorem Evaluation.Faultless.concluded {e : Evaluation α} (h : e.Faultless)
    (hcause : ∀ cause, e.result = .error (.refused cause) → ¬ cause.Dangling) :
    e.state.Concluded := by
  rw [state]
  split
  · next v _ => exact .inl ⟨rfl, rfl, v, rfl⟩
  · next cause hr => exact .inr ⟨rfl, rfl, cause, rfl, hcause cause hr⟩
  · next f hr => exact absurd hr (h f)

/-- A node that concluded is not left triggered. -/
theorem NodeState.Concluded.not_triggered {s : NodeState α} (h : s.Concluded) :
    s ≠ .triggered := by
  rintro rfl
  rcases h with ⟨-, -, v, hv⟩ | ⟨-, -, e, he, -⟩
  · cases hv
  · cases he

namespace Board

variable {b : Board α} {n : Node α} {ids : List Int}

/-- A node that is ready finds a value behind every binding. -/
theorem Ready.fed (h : b.Ready n) : b.Fed n := h.2

namespace Underway

variable {todo rest : List (Node α)}

/-- A pass that is to stop earlier. -/
theorem left (h : Underway b ids (todo ++ rest)) : Underway b ids todo := by
  refine ⟨h.fired, fun n hn => h.ready n (List.mem_append_left _ hn), ?_⟩
  have := h.nodup
  rw [List.map_append, ← List.append_assoc] at this
  exact this.of_append_left

/-- A pass that went on. -/
theorem right (h : Underway b ids (todo ++ rest)) :
    Underway b (ids ++ todo.map (·.id)) rest := by
  induction todo generalizing ids with
  | nil => simpa using h
  | cons n todo ih =>
    have := ih h.tail
    rwa [List.append_assoc] at this

end Underway

end Board

namespace Pass

open Board

/-- What a node of `b` finds on the board `c` when its turn comes. -/
structure Turn (b c : Board α) (n : Node α) : Prop where
  unchanged : c.nodes.get? n.id = some n
  /-- every wired port reads what the neighbour held before the pass -/
  reads : ∀ port d, n.wiring.directionOf? port = some d → ∃ m v,
    b.nodeAt? (n.position.neighbor d) = some m ∧ m.state = .ok v ∧ c.read n port = .ok v
  /-- a wired port is skipped only if its value is of another type than the node asks for -/
  skips : ∀ port d e, n.wiring.directionOf? port = some d → c.Skips n port e →
    ∃ v, c.read n port = .ok v ∧ v.type ≠ n.kind.asks port ∧
      e = .mismatch port (n.kind.asks port).name v.type.name

variable [Scalar α] {b : Board α} {n : Node α} {todo rest : List (Node α)}

/-- **When its turn comes, a node is as it was**, and reads what its neighbours held before the
pass. -/
theorem turn (hb : b.nodes.Keyed Node.id) {ids : List Int} (h : Underway b ids (n :: rest)) :
    Turn b (b.settle ids) n := by
  have hready := (mem_ready_iff.mp h.head_ready).2
  have hview := hready.sameView hb h.fired
  have hreads : ∀ port d, n.wiring.directionOf? port = some d → ∃ m v,
      b.nodeAt? (n.position.neighbor d) = some m ∧ m.state = .ok v ∧
        (b.settle ids).read n port = .ok v := by
    intro port d hd
    rw [hview.read_eq]
    exact hready.fed.exists_read hd
  have hfed : (b.settle ids).Fed n := by
    intro d hd
    obtain ⟨m, v, hm, hv⟩ := hready.fed d hd
    have hs := hview.source d hd
    rw [hm, Option.map_some, Option.map_eq_some_iff] at hs
    obtain ⟨m', hm', hv'⟩ := hs
    rw [hv, NodeState.value?] at hv'
    refine ⟨m', v, hm', ?_⟩
    cases hs' : m'.state <;> rw [hs'] at hv' <;> cases hv'
    rfl
  exact ⟨(h.head_unchanged hb).1, hreads, fun port d e hd hs => hfed.skips hd hs⟩

/-- The board when the turn of a node comes. -/
theorem board_fold (hb : b.nodes.Keyed Node.id) (hready : b.ready = todo ++ rest)
    (hf : ∀ n ∈ b.ready, (b.evaluate n).Faultless) (sink : List (Effect α)) :
    (Progress.fold fire (todo.map (·.id)) ⟨b, sink, []⟩).state.board =
      b.settle (todo.map (·.id)) := by
  have hunderway : Underway b [] (todo ++ rest) := hready ▸ .start hb
  have hfold := fold_fire hb hunderway.left
    (fun n hn => hf n (hready ▸ List.mem_append_left _ hn)) sink
  rw [settle_nil] at hfold
  rw [hfold]
  rfl

/-- The nodes that fire have their turns one after the other, each of them with the outcome of its
evaluation before the pass. -/
theorem exists_turn (hb : b.nodes.Keyed Node.id) {sink : List (Effect α)}
    (hf : (run b sink).fault = none) {before after : List Int} {id : Int}
    (hsplit : b.ready.map (·.id) = before ++ id :: after) :
    ∃ n ∈ b.ready, n.id = id ∧
      let c := (Progress.fold fire before ⟨b, sink, []⟩).state.board
      Turn b c n ∧ c.evaluate n = b.evaluate n := by
  -- the ready nodes split as their ids do
  obtain ⟨todo, rest, hready, rfl, hrest⟩ := List.map_eq_append_iff.mp hsplit
  obtain ⟨n, rest, rfl, rfl, rfl⟩ := List.map_eq_cons_iff.mp hrest
  have hstart : Underway b [] (todo ++ n :: rest) := hready ▸ .start hb
  have hunderway : Underway b (todo.map (·.id)) (n :: rest) := hstart.right
  refine ⟨n, hready ▸ List.mem_append_right _ List.mem_cons_self, rfl, ?_⟩
  rw [board_fold hb hready ((run_fault_eq_none_iff hb).mp hf)]
  exact ⟨turn hb hunderway, (hunderway.head_unchanged hb).2⟩

/-- **Readiness and reading agree.**  In a pass without a fault, the nodes fire that were ready
before it.  Each of them ends with exactly one of a value and an error, and the error is never that
a neighbour is missing or holds no value.  When its turn comes, on the board as those before it have
left it, it reads from each wired port what the neighbour held before the pass, and skips a wired
port only for a value of another type.  All other nodes are as they were, and a node that is
triggered behind the pass was so before. -/
theorem readiness (hb : b.NodesAgree) {sink : List (Effect α)} (hf : (run b sink).fault = none) :
    let p := (run b sink).state
    p.fired = b.ready.map (·.id) ∧
    (∀ id ∈ p.fired, ∃ n, p.board.nodes.get? id = some n ∧ n.state.Concluded) ∧
    (∀ before id after, p.fired = before ++ id :: after → ∃ n ∈ b.ready, n.id = id ∧
      let c := (Progress.fold fire before ⟨b, sink, []⟩).state.board
      Turn b c n ∧ p.board.nodes.get? id = some (n.after (c.evaluate n))) ∧
    (∀ n ∈ b.nodes.values, n ∉ b.ready → p.board.nodes.get? n.id = some n) ∧
    ∀ id n, p.board.nodes.get? id = some n → n.state = .triggered →
      id ∉ p.fired ∧ b.nodes.get? id = some n := by
  have hk := hb.keyed
  have hp := alone hk hf
  have hfaultless := (run_fault_eq_none_iff hk).mp hf
  have hfired : (run b sink).state.fired = b.ready.map (·.id) := by
    rw [run_eq hk hfaultless]
    rfl
  have hconcluded : ∀ n ∈ b.ready, (b.evaluate n).state.Concluded := by
    intro n hn
    refine (hfaultless n hn).concluded fun cause hr => ?_
    exact (mem_ready_iff.mp hn).2.fed.not_dangling hr
  have hafter : ∀ n ∈ b.ready, (run b sink).state.board.nodes.get? n.id =
      some (n.after (b.evaluate n)) := by
    intro n hn
    obtain ⟨hn, hr⟩ := mem_ready_iff.mp hn
    exact hp.ready n hn hr
  refine ⟨hfired, fun id hid => ?_, fun before id after hsplit => ?_,
    fun n hn hr => hp.other n hn fun h => hr (mem_ready_iff.mpr ⟨hn, h⟩),
    fun id n hn htriggered => ?_⟩
  · rw [hfired] at hid
    obtain ⟨n, hn, rfl⟩ := List.mem_map.mp hid
    exact ⟨_, hafter n hn, hconcluded n hn⟩
  · obtain ⟨n, hn, rfl, hturn, hevaluate⟩ := exists_turn hk hf (hfired ▸ hsplit)
    exact ⟨n, hn, rfl, hturn, hevaluate ▸ hafter n hn⟩
  · -- who fired is not triggered, so this node did not fire
    by_cases hid : id ∈ b.ready.map (·.id)
    · obtain ⟨m, hm, rfl⟩ := List.mem_map.mp hid
      obtain rfl := Option.some.inj ((hafter m hm).symm.trans hn)
      exact absurd htriggered (hconcluded m hm).not_triggered
    · rw [← hfired] at hid
      exact ⟨hid, (hp.get?_of_notMem hk hid).symm.trans hn⟩

end Pass

/-- A product that was asked for, beside a number and a vector, and a node that is to see targets as
far as the vector says.  The length of what the product makes has to wait. -/
def Board.medley : Board Float :=
  let node (id : Int) (position : Hex) (kind : Kind) (inputs : List (Direction × Port))
    (state : NodeState Float) : Node Float :=
      ⟨id, position, kind, ⟨⟨inputs⟩, none⟩, state, 10.0, 0⟩
  let port (id : Int) (name : String) : Port := ⟨id, name, "", .any, false⟩
  { Board.new .builtin .standard with
    tiles := ⟨.origin, 1, ⟨[(⟨-1, 0⟩, .node 1), (⟨0, 0⟩, .node 2), (⟨0, -1⟩, .node 3),
      (⟨1, -1⟩, .node 4), (⟨0, 1⟩, .node 5)]⟩⟩
    nodes := ⟨[(1, node 1 ⟨-1, 0⟩ .constantNumber [] (.ok (.number 3.0))),
      (2, node 2 ⟨0, 0⟩ .numberMultiply [(.northWest, port 1 "a"), (.north, port 2 "b")] .requested),
      (3, node 3 ⟨0, -1⟩ .vectorCreate [] (.ok (.vector 1.0 2.0))),
      (4, node 4 ⟨1, -1⟩ .nearbyEntities [(.northWest, port 3 "range")] .requested),
      (5, node 5 ⟨0, 1⟩ .vectorLength [(.north, port 4 "vector")] .requested)]⟩ }

open Board in
/-- The product has a value; the other node skips its range when its turn comes. -/
theorem Pass.readiness_medley : medley.NodesAgree ∧ (run medley []).fault = none ∧
    (∃ n, (run medley []).state.board.nodes.get? 2 = some n ∧ n.state.Concluded) ∧
    (∃ n ∈ medley.ready, n.id = 4 ∧
      Turn medley (Progress.fold fire [2] ⟨medley, [], []⟩).state.board n) ∧
    ((run medley []).state.board.nodes.get? 5).map (·.state.phase) = some .requested := by
  have hb : medley.NodesAgree := by decide
  have hf : (run medley []).fault = none := by decide +kernel
  have hfired : (run medley []).state.fired = [2, 4] := by decide +kernel
  obtain ⟨-, hends, hturns, -, -⟩ := Pass.readiness hb hf
  refine ⟨hb, hf, hends 2 ?_, ?_, by decide +kernel⟩
  · rw [hfired]
    decide
  · obtain ⟨n, hn, hid, hturn, -⟩ := hturns [2] 4 [] hfired
    exact ⟨n, hn, hid, hturn⟩

end HexPulse
