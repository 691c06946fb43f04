import HexPulse.Proofs.Activation.Pass
import HexPulse.Proofs.Evaluation.Faults

/-!
# HexPulse — Proofs — Activation — Completion

Does a pass come to its end?  On a board that can be surveyed it does, and every ready node is done,
exactly if no ready node overshoots (`Pass.completion`).  What the neighbours hold decides only
where a node aims.
-/

namespace HexPulse

open Board

/-- **A pass comes to its end unless a ready node overshoots.**  An evaluation ends with a value or
a port error unless the node overshoots; a pass stops at a fault exactly if a ready node overshoots;
and otherwise every ready node is done behind the pass. -/
theorem Pass.completion {b : Board Float} (hb : b.nodes.Keyed Node.id) (hs : b.Surveyable)
    (sink : List (Effect Float)) :
    (∀ n, (b.evaluate n).Faultless ↔ ¬ b.Overshoots n) ∧
    ((run b sink).fault = none ↔ ∀ n ∈ b.nodes.values, b.Ready n → ¬ b.Overshoots n) ∧
    ((∀ n ∈ b.nodes.values, b.Ready n → ¬ b.Overshoots n) → ∀ n ∈ b.nodes.values, b.Ready n →
      ∃ m, (run b sink).state.board.nodes.get? n.id = some m ∧ m.state.phase = .done) := by
  have hnode (n : Node Float) : (b.evaluate n).Faultless ↔ ¬ b.Overshoots n := by
    rw [← fault_iff hs, not_exists]
    rfl
  have hready : (∀ n ∈ b.ready, (b.evaluate n).Faultless) ↔
      ∀ n ∈ b.nodes.values, b.Ready n → ¬ b.Overshoots n := by
    constructor
    · intro h n hn hr
      exact (hnode n).mp (h n (mem_ready_iff.mpr ⟨hn, hr⟩))
    · intro h n hn
      obtain ⟨hn, hr⟩ := mem_ready_iff.mp hn
      exact (hnode n).mpr (h n hn hr)
  refine ⟨hnode, (run_fault_eq_none_iff hb).trans hready, fun h n hn hr => ?_⟩
  have hfaultless := hready.mpr h
  refine ⟨n.after (b.evaluate n), ?_, (hfaultless n (mem_ready_iff.mpr ⟨hn, hr⟩)).phase_state⟩
  rw [run_eq hb hfaultless, Progress.done_state, get?_settle, hb.get?_id hn, Option.map_some,
    if_pos ((id_mem_map_ready_iff hb hn).mpr hr)]

/-- A strike that was asked for, beside a node that holds the vector to aim at. -/
def Board.striking (x y : Float) : Board Float :=
  { Board.new .builtin .standard with
    tiles := ⟨.origin, 1, ⟨[(⟨0, 0⟩, .node 1), (⟨1, 0⟩, .node 2)]⟩⟩
    nodes := ⟨[(1, ⟨1, ⟨0, 0⟩, .vectorCreate, .empty, .ok (.vector x y), 10.0, 0⟩),
      (2, ⟨2, ⟨1, 0⟩, .orbital,
        ⟨⟨[(.northWest, ⟨1, "target", "", .vector, false⟩)]⟩, none⟩, .requested, 10.0, 0⟩)]⟩ }

namespace Board

theorem keyed_striking (x y : Float) : (striking x y).nodes.Keyed Node.id := by
  refine ⟨show [(1 : Int), 2].Nodup by decide, fun e he => ?_⟩
  rcases List.mem_cons.mp he with rfl | he
  · rfl
  · rw [List.mem_singleton.mp he]

theorem surveyable_striking (x y : Float) : (striking x y).Surveyable :=
  fun _ ht => nomatch ht

end Board

/-- A strike at a cell of the board comes to its end. -/
theorem Pass.completion_near : (striking 1.0 1.0).nodes.Keyed Node.id ∧
    (striking 1.0 1.0).Surveyable ∧ ∀ n ∈ (striking 1.0 1.0).nodes.values,
      (striking 1.0 1.0).Ready n → ∃ m, (run (striking 1.0 1.0) []).state.board.nodes.get? n.id =
        some m ∧ m.state.phase = .done := by
  obtain ⟨-, hfault, hdone⟩ := completion (keyed_striking 1.0 1.0) (surveyable_striking 1.0 1.0) []
  exact ⟨keyed_striking 1.0 1.0, surveyable_striking 1.0 1.0,
    hdone (hfault.mp (by decide +kernel))⟩

/-- A strike at a cell whose third coordinate is not finite stops the pass, although the vector is
finite: the node stays behind as it was triggered. -/
theorem Pass.incomplete_far : (striking 1e308 1e308).Surveyable ∧
    (run (striking 1e308 1e308) []).fault = some .infinityToInteger ∧
      ((run (striking 1e308 1e308) []).state.board.nodes.get? 2).map (·.state.phase) =
        some .triggered :=
  ⟨surveyable_striking 1e308 1e308, by decide +kernel, by decide +kernel⟩

end HexPulse
