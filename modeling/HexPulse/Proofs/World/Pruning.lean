import HexPulse.Proofs.World.Run

/-!
# HexPulse — Proofs — World — Pruning

A frame prunes only if something was placed or removed since the last pruning.  `stepEager` prunes
in every frame.

* `Run.pruning_unobservable`: as long as every heart's health is comparable with zero, both take
  the same inputs to the same world through the same frames, and in each frame a node takes part
  exactly if a heart reaches it.

The invariant is `Board.Synced`: a board that is not marked as dirty is settled.
-/

namespace HexPulse

open Board

variable {α : Type} [Scalar α]

namespace World

/-- One frame, with another stage in the place of pruning. -/
def stepWith (prune : World α → World α) (w : World α) (dt : α) : Progress (World α) :=
  ((prune (w.tick dt).reap).beat dt).andThen fun w =>
    w.activate.andThen fun w =>
      w.applyAll.andThen fun w =>
        (w.fly dt).andThen fun w =>
          (w.moveTargets dt).andThen fun w => .done (w.emit (.frame w.status))

theorem stepWith_prune : stepWith (α := α) prune = step := rfl

/-- One frame that prunes in any case. -/
def stepEager : World α → α → Progress (World α) :=
  stepWith fun w => { w with board := w.board.prune.board }

section Reap

variable {w : World α} (hw : w.board.Consistent) (hc : w.board.HeartsComparable)
include hw hc

/-- Reaping leaves living hearts only. -/
theorem alive_of_mem_reap {h : Heart α} (hh : h ∈ w.reap.board.hearts.values) : h.alive = true := by
  rw [show w.reap.board = w.board.reapDead.board from board_emitAll _ _] at hh
  exact alive_of_mem_reapDead hw hc hh

theorem alive_of_mem_prune {h : Heart α} (hh : h ∈ w.reap.prune.board.hearts.values) :
    h.alive = true := by
  rw [prune] at hh
  split at hh
  · exact alive_of_mem_reap hw hc hh
  · exact alive_of_mem_reap hw hc hh

/-- Behind the pruning those nodes are silent that no heart reaches, whether or not the board was
marked as dirty. -/
theorem settled_prune_reap (hs : w.board.Synced) : w.reap.prune.board.topology.Settled := by
  rw [prune]
  split
  · exact settled_prune fun _ => alive_of_mem_reap hw hc
  · next hclean => exact w.aside_reap.board.synced hs (Bool.not_eq_true _ ▸ hclean)

/-- Pruning a board that is in sync makes no difference where it is not marked as dirty. -/
theorem prune_reap (hs : w.board.Synced) :
    { w.reap with board := w.reap.board.prune.board } = w.reap.prune := by
  rw [prune]
  split
  · rfl
  · next hclean =>
    have hclean : w.reap.board.topologyDirty = false := Bool.not_eq_true _ ▸ hclean
    have hsettled := w.aside_reap.board.synced hs hclean
    rw [prune_eq_self (fun _ => alive_of_mem_reap hw hc) hclean hsettled]

end Reap

/-- A frame that prunes in any case is the frame. -/
theorem stepEager_eq {w : World α} (hw : w.board.Consistent) (hc : w.board.HeartsComparable)
    (hs : w.board.Synced) (dt : α) : w.stepEager dt = w.step dt := by
  have hprune := prune_reap (w := w.tick dt) hw hc hs
  simp only [stepEager, ← stepWith_prune, stepWith, hprune]

end World

namespace Frame.Stages

variable {f : Frame α}

/-- A frame keeps the board in sync. -/
theorem synced_ended (h : f.Stages) (hw : f.world.board.Consistent)
    (hc : f.world.board.HeartsComparable) (hs : f.world.board.Synced) : f.ended.board.Synced := by
  have hpruned : f.pruned.board.Synced := fun _ =>
    World.settled_prune_reap (w := f.world.tick f.dt) hw hc hs
  obtain ⟨c, hchange, -, hrest⟩ := h.beat
  have hbeat := hchange.synced hpruned
  have hasked : f.asked.board.Synced := by
    refine hrest.synced ?_
    split
    · exact synced_request hbeat
    · exact hbeat
  refine h.rest.synced ?_
  rw [passed]
  exact Pass.synced_run (h.asked_keyed hw) hasked h.pass

end Frame.Stages

namespace Run

variable {inputs : List (Input α)} {frames : List (Frame α)} {w : World α}

/-- A run stays in sync, as long as the hearts are comparable with zero. -/
theorem synced {w₀ : World α} (h₀ : w₀.board.Consistent) (hs₀ : w₀.board.Synced)
    (h : Run World.step w₀ inputs frames w) (hc : ∀ f ∈ frames, f.world.board.HeartsComparable) :
    w.board.Synced := by
  induction h with
  | start => exact hs₀
  | request _ r ih => exact (World.aside_perform _ r).board.synced (ih hc)
  | @frame _ _ w dt h faultless ih =>
    have hlast : w.board.HeartsComparable := hc ⟨w, dt⟩ List.mem_cons_self
    have hs := ih fun f hf => hc f (List.mem_cons_of_mem _ hf)
    exact (Frame.stages (f := ⟨w, dt⟩) faultless).synced_ended (h.consistent h₀) hlast hs

/-- The inputs decide the run. -/
theorem unique {step : World α → α → Progress (World α)} {w₀ w' : World α}
    {frames' : List (Frame α)} (h : Run step w₀ inputs frames w)
    (h' : Run step w₀ inputs frames' w') : frames' = frames ∧ w' = w := by
  induction h generalizing frames' w' with
  | start =>
    cases h'
    exact ⟨rfl, rfl⟩
  | request _ r ih =>
    cases h' with
    | request h' =>
      obtain ⟨rfl, rfl⟩ := ih h'
      exact ⟨rfl, rfl⟩
  | frame _ _ ih =>
    cases h' with
    | frame h' =>
      obtain ⟨rfl, rfl⟩ := ih h'
      exact ⟨rfl, rfl⟩

section Eager

variable {w₀ : World α} (h₀ : w₀.board.Consistent) (hs₀ : w₀.board.Synced)
include h₀ hs₀

/-- At the end of a run both ways of pruning lead to the same frame. -/
theorem stepEager_eq (h : Run World.step w₀ inputs frames w)
    (hc : ∀ f ∈ frames, f.world.board.HeartsComparable) (hw : w.board.HeartsComparable) (dt : α) :
    w.stepEager dt = w.step dt :=
  World.stepEager_eq (h.consistent h₀) hw (h.synced h₀ hs₀ hc) dt

/-- A run that prunes where the board is dirty is one that prunes in any case. -/
theorem eager (h : Run World.step w₀ inputs frames w)
    (hc : ∀ f ∈ frames, f.world.board.HeartsComparable) :
    Run World.stepEager w₀ inputs frames w := by
  induction h with
  | start => exact .start
  | request _ r ih => exact .request (ih hc) r
  | @frame _ _ w dt h faultless ih =>
    have hpast := fun f hf => hc f (List.mem_cons_of_mem _ hf)
    have heq := h.stepEager_eq h₀ hs₀ hpast (hc ⟨w, dt⟩ List.mem_cons_self) dt
    rw [← heq] at faultless ⊢
    exact .frame (ih hpast) faultless

/-- A run that prunes in any case is one that prunes where the board is dirty. -/
theorem of_eager (h : Run World.stepEager w₀ inputs frames w)
    (hc : ∀ f ∈ frames, f.world.board.HeartsComparable) : Run World.step w₀ inputs frames w := by
  induction h with
  | start => exact .start
  | request _ r ih => exact .request (ih hc) r
  | @frame _ _ w dt h faultless ih =>
    have hpast := fun f hf => hc f (List.mem_cons_of_mem _ hf)
    -- the frames before are those of a run that prunes only where the board is dirty
    have heq := (ih hpast).stepEager_eq h₀ hs₀ hpast (hc ⟨w, dt⟩ List.mem_cons_self) dt
    rw [heq] at faultless ⊢
    exact .frame (ih hpast) faultless

end Eager

/-- **Pruning only when something changed is not observable.**  As long as every heart's health is
comparable with zero when a frame begins, the world that prunes if its board is dirty and the one
that prunes in every frame go from the same inputs through the same frames to the same world.  In
each of these frames, at the moment when the hearts beat, a node takes part exactly if its cell is
reached from a live heart. -/
theorem pruning_unobservable {catalogue : Catalogue} {settings : Settings α} {draws : Draws α}
    (hc : ∀ f ∈ frames, f.world.board.HeartsComparable) :
    (Run World.step (.new catalogue settings draws) inputs frames w ↔
      Run World.stepEager (.new catalogue settings draws) inputs frames w) ∧
    (Run World.step (.new catalogue settings draws) inputs frames w →
      (∀ f ∈ frames, f.world.stepEager f.dt = f.world.step f.dt ∧
        ∀ n ∈ f.pruned.board.nodes.values,
          n.state ≠ .disabled ↔ n.position ∈ f.pruned.board.reachable) ∧
      ∀ frames' w', Run World.stepEager (.new catalogue settings draws) inputs frames' w' →
        frames' = frames ∧ w' = w) := by
  have h₀ := Consistent.new catalogue settings
  have hs₀ : (Board.new catalogue settings).Synced := nofun
  refine ⟨⟨fun h => h.eager h₀ hs₀ hc, fun h => h.of_eager h₀ hs₀ hc⟩, fun h => ⟨fun f hf => ?_,
    fun frames' w' h' => (h.eager h₀ hs₀ hc).unique h'⟩⟩
  obtain ⟨later, past, rfl⟩ := List.append_of_mem hf
  obtain ⟨⟨_, hpast⟩, -⟩ := h.split rfl
  have hbefore : ∀ g ∈ past, g.world.board.HeartsComparable := fun g hg =>
    hc g (List.mem_append_right _ (List.mem_cons_of_mem _ hg))
  have hw : f.world.board.Consistent := hpast.consistent h₀
  have hs : f.world.board.Synced := hpast.synced h₀ hs₀ hbefore
  refine ⟨hpast.stepEager_eq h₀ hs₀ hbefore (hc f hf) f.dt, fun n hn => ?_⟩
  have hsettled : f.pruned.board.topology.Settled :=
    World.settled_prune_reap (w := f.world.tick f.dt) hw (hc f hf) hs
  have hall : ∀ h ∈ f.pruned.board.hearts.values, h.alive = true := fun h hh =>
    World.alive_of_mem_prune (w := f.world.tick f.dt) hw (hc f hf) hh
  -- behind the reaping every heart lives, so that the flood of the board is that of its topology
  rw [reachable_eq hall, ne_eq, settled_iff.mp hsettled n hn, not_not]

open Beacon in
/-- The frames of a small run are those of the world that prunes in every frame. -/
theorem pruning_unobservable_beacon :
    (∀ f ∈ [echo, pulse], f.world.board.HeartsComparable) ∧
    (∃ inputs, Run World.stepEager (.new .builtin settings .none) inputs [echo, pulse] echo.ended) ∧
    ∀ n ∈ pulse.pruned.board.nodes.values,
      n.state ≠ .disabled ↔ n.position ∈ pulse.pruned.board.reachable := by
  have hc : ∀ f ∈ [echo, pulse], f.world.board.HeartsComparable := by decide +kernel
  obtain ⟨inputs, h⟩ := run_echo
  obtain ⟨heager, hframes⟩ := pruning_unobservable hc
  exact ⟨hc, ⟨inputs, heager.mp h⟩, ((hframes h).1 pulse (by simp)).2⟩

end Run

end HexPulse
