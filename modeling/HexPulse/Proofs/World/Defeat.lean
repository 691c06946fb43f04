import HexPulse.Proofs.Scalar.Extended
import HexPulse.Proofs.World.Hearts

/-!
# HexPulse — Proofs — World — Defeat

How hearts die, and how the game ends.

* `Frame.Dooms`: a heart that is used up at the end of a frame waits for the next one, which clears
  it.
* `World.run_eq`: the frames that are run until the game is over.
* `Run.defeat`: so it goes with every heart of every run, and the game is over when the last one is
  cleared.
-/

namespace HexPulse

variable {α : Type} [Scalar α]

/-! ### Runs that go on -/

namespace Run

variable {w₀ w w' : World α} {inputs inputs' : List (Input α)} {frames frames' : List (Frame α)}

/-- A run that goes on from the end of another. -/
theorem append {step : World α → α → Progress (World α)} (h : Run step w₀ inputs frames w)
    (h' : Run step w inputs' frames' w') :
    Run step w₀ (inputs' ++ inputs) (frames' ++ frames) w' := by
  induction h' with
  | start => exact h
  | request _ r ih => exact ih.request r
  | frame _ faultless ih => exact ih.frame faultless

end Run

/-- What a frame reports of the heart of an id. -/
def Frame.tidings (f : Frame α) (id : Int) : List (Entry α) :=
  f.entries.filter fun e => e.event.concerns id

namespace Frame.Stages

variable {f : Frame α} {v : Heart α} {id : Int}

/-- Of a heart that does not outlive the reaping a frame reports the destruction only. -/
theorem tidings_eq (h : f.Stages) (hw : f.world.board.Consistent) (hid : f.pruned.board.Gone id) :
    f.tidings id = (f.lost.filter (fun v => v.id = id)).map fun v =>
      ⟨f.world.frame + 1, .heartDestroyed v.id v.position⟩ := by
  have hreport := f.concerns_report id
  rw [World.beating_of_gone (h.pruned_consistent hw) hid, List.map_nil, List.append_nil] at hreport
  have hentries : f.tidings id =
      (f.report.filter (Event.concerns id)).map (Entry.mk (f.world.frame + 1)) := by
    rw [tidings, entries, List.filter_map]
    rfl
  rw [hentries, hreport, List.map_map]
  rfl

/-- Of a heart that is gone nothing is reported. -/
theorem tidings_of_gone (h : f.Stages) (hw : f.world.board.Consistent)
    (hid : f.world.board.Gone id) : f.tidings id = [] := by
  rw [h.tidings_eq hw (h.gone_pruned hid), List.map_eq_nil_iff, List.filter_eq_nil_iff]
  intro v hv
  rw [decide_eq_true_eq]
  rintro rfl
  have hmem := hw.hearts.keyed.mem_keys_iff.mpr ⟨v, List.mem_of_mem_filter hv, rfl⟩
  exact Table.get?_eq_none_iff.mp hid.absent hmem

/-- **Of a heart that is used up it is reported that it is gone, once.** -/
theorem tidings_of_dead (h : f.Stages) (hw : f.world.board.Consistent)
    (hv : v ∈ f.world.board.hearts.values) (hdead : v.health ≤ (0.0 : α)) :
    f.tidings v.id = [⟨f.world.frame + 1, .heartDestroyed v.id v.position⟩] := by
  rw [h.tidings_eq hw (h.gone_of_dead hw hv hdead), lost_eq hw,
    hw.hearts.keyed.filter_id hv (decide_eq_true hdead), List.map_singleton]

end Frame.Stages

namespace Run

variable {w₀ w : World α} {inputs : List (Input α)} {frames : List (Frame α)} {id : Int}

/-- **A heart that is gone is not heard of again.** -/
theorem silent (h : Run World.step w₀ inputs frames w) (h₀ : w₀.board.Consistent)
    (hid : w₀.board.Gone id) : w.board.Gone id ∧ ∀ f ∈ frames, f.tidings id = [] := by
  induction h with
  | start => exact ⟨hid, fun f hf => absurd hf List.not_mem_nil⟩
  | @request _ _ w _ r ih => exact ⟨(World.aside_perform w r).board.gone ih.1, ih.2⟩
  | @frame _ _ w dt h faultless ih =>
    have hs := Frame.stages (f := ⟨w, dt⟩) faultless
    refine ⟨hs.gone_ended (hs.gone_pruned ih.1), List.forall_mem_cons.mpr ⟨?_, ih.2⟩⟩
    exact hs.tidings_of_gone (h.consistent h₀) ih.1

end Run

/-! ### Hearts that are used up -/

/-- Whatever is done to the world behind a frame: the heart waits as it is for the next frame,
unless its cell is cleared, which removes it.  At its start the next frame clears the heart and
reports that it is gone.  There is never a heart of its id again, and nothing else is reported of
it. -/
structure Frame.Dooms (f : Frame α) (v : Heart α) : Prop where
  waits (rs : List (Request α)) : .clearCell v.position ∉ rs →
    v ∈ (rs.foldl World.perform f.ended).board.hearts.values
  cleared (rs : List (Request α)) : .clearCell v.position ∈ rs →
    (rs.foldl World.perform f.ended).board.hearts.get? v.id = none
  reaped (rs : List (Request α)) (g : Frame α) : g.world = rs.foldl World.perform f.ended →
    (g.world.step g.dt).fault = none → g.pruned.board.hearts.get? v.id = none ∧
      ∀ inputs later w, Run World.step g.ended inputs later w →
        w.board.hearts.get? v.id = none ∧
        ∃ entries, w.journal = f.ended.journal ++ entries ∧
          (.clearCell v.position ∉ rs → entries.filter (fun e => e.event.concerns v.id) =
            [⟨g.world.frame + 1, .heartDestroyed v.id v.position⟩]) ∧
          (.clearCell v.position ∈ rs → entries.filter (fun e => e.event.concerns v.id) = [])

/-- **A frame dooms every heart that it leaves used up.** -/
theorem Run.dooms {catalogue : Catalogue} {settings : Settings α} {draws : Draws α}
    {inputs : List (Input α)} {past : List (Frame α)} {f : Frame α}
    (h : Run World.step (.new catalogue settings draws) inputs (f :: past) f.ended) {v : Heart α}
    (hv : v ∈ f.ended.board.hearts.values) (hdead : v.health ≤ (0.0 : α)) : f.Dooms v := by
  have hended := h.consistent (.new catalogue settings)
  refine ⟨fun rs => (World.hearts_performs hended hv rs).1,
    fun rs hrs => ((World.hearts_performs hended hv rs).2 hrs).absent, fun rs g hg faultless => ?_⟩
  obtain ⟨hstays, hcleared⟩ := World.hearts_performs hended hv rs
  have hbefore : Run World.step (.new catalogue settings draws) (rs.reverse.map .request ++ inputs)
      (f :: past) g.world := hg ▸ h.requests rs
  have hw := hbefore.consistent (.new catalogue settings)
  have hs := Frame.stages faultless
  rw [← hg] at hstays hcleared
  -- the heart is cleared by the frame, or it was before
  have hgone : g.pruned.board.Gone v.id := by
    by_cases hrs : .clearCell v.position ∈ rs
    · exact hs.gone_pruned (hcleared hrs)
    · exact hs.gone_of_dead hw (hstays hrs) hdead
  refine ⟨hgone.absent, fun inputs' later w hlater => ?_⟩
  have hdone := hbefore.snoc faultless
  obtain ⟨hend, hsilent⟩ := hlater.silent (hdone.consistent (.new catalogue settings))
    (hs.gone_ended hgone)
  have hjournal : w.journal =
      f.ended.journal ++ (g.entries ++ later.reverse.flatMap Frame.entries) := by
    rw [(hdone.append hlater).journaled.journal, h.journaled.journal]
    simp only [List.reverse_append, List.reverse_cons, List.flatMap_append, List.flatMap_singleton,
      List.append_assoc]
  have htidings : (g.entries ++ later.reverse.flatMap Frame.entries).filter
      (fun e => e.event.concerns v.id) = g.tidings v.id := by
    rw [List.filter_append, List.filter_flatMap, List.flatMap_eq_nil_iff.mpr, List.append_nil]
    · rfl
    · exact fun x hx => hsilent x (List.mem_reverse.mp hx)
  refine ⟨hend.absent, _, hjournal, fun hrs => ?_, fun hrs => ?_⟩
  · rw [htidings, hs.tidings_of_dead hw (hstays hrs) hdead]
  · rw [htidings, hs.tidings_of_gone hw (hcleared hrs)]

/-! ### The end of the game -/

namespace Frame

variable {f : Frame α}

/-- At its start the frame clears a heart, and none is left. -/
def Bereaves (f : Frame α) : Prop := f.lost ≠ [] ∧ f.pruned.board.hearts.size = 0

/-- The game is over at the beat if it was over before, or if the last heart was lost. -/
theorem gameOver_pruned (hw : f.world.board.Consistent) :
    f.pruned.gameOver = true ↔ f.world.gameOver = true ∨ f.Bereaves := by
  have hlost : f.lost = f.world.board.reapDead.hearts := by
    rw [lost, hearts_pruned, ← Board.hearts_reapDead hw]
  have hprune : f.pruned.gameOver = (f.world.tick f.dt).reap.gameOver := by
    rw [pruned, World.prune]
    split <;> rfl
  have hreap : (f.world.tick f.dt).reap.gameOver = (f.world.gameOver ||
      (!f.world.board.reapDead.hearts.isEmpty &&
        f.world.board.reapDead.board.hearts.size == 0)) := by
    rw [World.reap, World.emitAll_eq]
    rfl
  rw [hprune, hreap, Bereaves, hlost, hearts_pruned, Bool.or_eq_true, Bool.and_eq_true, beq_iff_eq,
    Bool.not_eq_true', List.isEmpty_eq_false_iff]

/-- Behind the beat a frame neither ends the game nor takes the end back. -/
theorem Course.gameOver_ended (h : f.Course) (hw : f.world.board.Consistent) :
    f.ended.gameOver = true ↔ f.world.gameOver = true ∨ f.Bereaves := by
  rw [h.spares.gameOver, gameOver_pruned hw]

end Frame

/-- **In a run the game is over if and only if some frame lost the last heart.** -/
theorem Run.gameOver_iff {catalogue : Catalogue} {settings : Settings α} {draws : Draws α}
    {inputs : List (Input α)} {frames : List (Frame α)} {w : World α}
    (h : Run World.step (.new catalogue settings draws) inputs frames w) :
    w.gameOver = true ↔ ∃ f ∈ frames, f.Bereaves := by
  induction h with
  | start => exact ⟨nofun, fun ⟨f, hf, _⟩ => absurd hf List.not_mem_nil⟩
  | request _ r ih =>
    rw [World.perform_eq]
    exact ih
  | @frame _ _ w dt h faultless ih =>
    have hc := Frame.course (f := ⟨w, dt⟩) faultless
    refine (hc.gameOver_ended (h.consistent (.new catalogue settings))).trans ?_
    rw [ih, List.exists_mem_cons_iff, or_comm]

/-! ### Frames until the game is over -/

/-- **Frames are run until the game is over,** and no longer. -/
theorem World.run_eq {dt : α} {n : Nat} {w : World α} (h : (w.run dt n).fault = none) :
    ∃ frames, Run step w (List.replicate frames.length (.frame dt)) frames (w.run dt n).state ∧
      frames.length ≤ n ∧ (∀ f ∈ frames, f.world.gameOver = false) ∧
      (frames.length = n ∨ (w.run dt n).state.gameOver = true) := by
  induction n generalizing w with
  | zero => exact ⟨[], .start, le_rfl, fun f hf => absurd hf List.not_mem_nil, .inl rfl⟩
  | succ n ih =>
    rw [run] at h ⊢
    split
    · next hover =>
      exact ⟨[], .start, Nat.zero_le _, fun f hf => absurd hf List.not_mem_nil, .inr hover⟩
    · next hover =>
      rw [if_neg hover] at h
      obtain ⟨faultless, heq⟩ := Progress.andThen_fault_eq_none h
      rw [heq] at h ⊢
      obtain ⟨frames, hrun, hlength, hgoing, hend⟩ := ih h
      -- the first frame is the last of the list: a run has its frames from the latest on
      refine ⟨frames ++ [⟨w, dt⟩], ?_, ?_, ?_, ?_⟩
      · rw [List.length_append, List.length_singleton, List.replicate_succ']
        exact (Run.start.frame faultless).append hrun
      · rw [List.length_append, List.length_singleton]
        exact Nat.succ_le_succ hlength
      · intro f hf
        rcases List.mem_append.mp hf with hf | hf
        · exact hgoing f hf
        · rw [List.mem_singleton.mp hf]
          exact Bool.not_eq_true _ ▸ hover
      · rw [List.length_append, List.length_singleton]
        exact hend.imp_left fun e => congrArg (· + 1) e

/-! ### The fate of all hearts -/

/-- What a frame of a run does to hearts. -/
structure Frame.Tends (f : Frame Float) : Prop where
  /-- no heart that the targets used up is healed -/
  unhealed : ∀ v ∈ f.hurt.board.hearts.values, v.health ≤ 0.0 → v ∈ f.ended.board.hearts.values
  /-- no heart that lives is removed -/
  kept : ∀ v ∈ f.world.board.hearts.values, 0.0 < v.health →
    ∃ u ∈ f.ended.board.hearts.values, u.id = v.id ∧ u.position = v.position
  /-- the next frame clears those that are used up -/
  doomed : ∀ v ∈ f.ended.board.hearts.values, v.health ≤ 0.0 → f.Dooms v
  gameOver_iff : f.ended.gameOver = true ↔ f.world.gameOver = true ∨ f.Bereaves

namespace Run

variable {catalogue : Catalogue} {settings : Settings Float} {draws : Draws Float}
  {inputs : List (Input Float)} {frames : List (Frame Float)} {w : World Float}

/-- Every frame of a run deals with its hearts as it should. -/
theorem tends (h : Run World.step (.new catalogue settings draws) inputs frames w) {f : Frame Float}
    (hf : f ∈ frames) : f.Tends := by
  obtain ⟨later, past, hsplit⟩ := List.append_of_mem hf
  obtain ⟨⟨_, hpast⟩, faultless⟩ := h.split hsplit
  have hw := hpast.consistent (.new catalogue settings)
  have hc := Frame.course faultless
  constructor
  case unhealed =>
    exact fun v hv hdead => hc.mem_hearts_ended hv (decide_eq_false (Double.not_lt_of_le hdead))
  case kept =>
    intro v hv hlives
    have hpruned := (Frame.mem_hearts_pruned_iff hw).mpr
      ⟨hv, fun hdead => Double.not_lt_of_le hdead hlives⟩
    exact hc.spares.exists_of_mem hpruned
  case doomed => exact fun v hv hdead => (hpast.snoc faultless).dooms hv hdead
  case gameOver_iff => exact hc.gameOver_ended hw

/-- **Hearts die for good, and the last one ends the game.**  In every frame of a run: a heart that
the targets used up is not healed; one that lives is not removed; and one that is used up at the end
stays so until the next frame, which clears it and reports it once, unless its cell was cleared in
between, and it neither beats nor comes back.  The game is over from the frame on that clears hearts
and leaves none.  Frames are run until then, if they are not run out before, and none if it is over
already. -/
theorem defeat (h : Run World.step (.new catalogue settings draws) inputs frames w) :
    (∀ f ∈ frames, f.Tends) ∧
    (w.gameOver = true ↔ ∃ f ∈ frames, f.Bereaves) ∧
    (∀ inputs' later w', Run World.step w inputs' later w' → w.gameOver = true →
      w'.gameOver = true) ∧
    ∀ dt n, (w.gameOver = true → w.run dt n = .done w) ∧
      ((w.run dt n).fault = none → ∃ frames',
        Run World.step w (List.replicate frames'.length (.frame dt)) frames' (w.run dt n).state ∧
        frames'.length ≤ n ∧ (∀ f ∈ frames', f.world.gameOver = false) ∧
        (frames'.length = n ∨ (w.run dt n).state.gameOver = true)) := by
  refine ⟨fun f hf => h.tends hf, h.gameOver_iff, fun inputs' later w' h' hover => ?_,
    fun dt n => ⟨fun hover => ?_, World.run_eq⟩⟩
  · obtain ⟨f, hf, hlast⟩ := h.gameOver_iff.mp hover
    exact (h.append h').gameOver_iff.mpr ⟨f, List.mem_append_right _ hf, hlast⟩
  · cases n with
    | zero => rfl
    | succ n => rw [World.run, if_pos hover]

end Run

/-! ### A heart under siege -/

namespace Siege

/-- A heart, and a target beside it. -/
def requests : List (Request Float) := [.placeHeart ⟨0, 0⟩, .addTarget ⟨0, 1⟩ (some 30.0) []]

/-- The world after these requests. -/
@[irreducible] def world : World Float :=
  requests.foldl World.perform (.new .builtin Beacon.settings .none)

/-- The frame in which the heart beats, is used up, and is not healed. -/
def fall : Frame Float := ⟨world, 10.0⟩

/-- The frame that clears it. -/
def last : Frame Float := ⟨fall.ended, 0.5⟩

/-- The siege runs its two frames, and meets no fault. -/
theorem run_last : ∃ inputs,
    Run World.step (.new .builtin Beacon.settings .none) inputs [last, fall] last.ended := by
  have hworld : Run World.step (.new .builtin Beacon.settings .none)
      (requests.reverse.map .request ++ []) [] world := by
    unfold world
    exact Run.requests .start requests
  have hfall := Run.snoc (f := fall) hworld (by decide +kernel)
  exact ⟨_, Run.snoc (f := last) hfall (by decide +kernel)⟩

end Siege

open Siege in
/-- The timer of the regeneration is full in the frame in which the heart is used up.  The next
frame reports that it is gone, and no other one is run. -/
theorem Run.defeat_siege : ∃ inputs v,
    Run World.step (.new .builtin Beacon.settings .none) inputs [last, fall] last.ended ∧
      v ∈ fall.ended.board.hearts.values ∧ v.health ≤ 0.0 ∧ fall.Dooms v ∧
      (last.entries.map fun e => (e.frame, e.event.name)) =
        [(2, "HEART_DESTROYED"), (2, "FRAME")] ∧
      fall.ended.gameOver = false ∧ last.ended.gameOver = true ∧ last.Bereaves ∧
      last.ended.run 0.5 3 = .done last.ended := by
  obtain ⟨inputs, h⟩ := run_last
  obtain ⟨htends, hover, -, hrun⟩ := Run.defeat h
  have hover' : last.ended.gameOver = true := by decide +kernel
  have hhearts : ∀ v ∈ fall.ended.board.hearts.values, v.health ≤ 0.0 := by decide +kernel
  have hsize : fall.ended.board.hearts.values.length = 1 := by decide +kernel
  obtain ⟨v, hv⟩ := List.length_eq_one_iff.mp hsize
  have hmem : v ∈ fall.ended.board.hearts.values := hv ▸ List.mem_singleton.mpr rfl
  have hgoing : fall.ended.gameOver = false := by decide +kernel
  have hlast : last.Bereaves :=
    ((htends last (by simp)).gameOver_iff.mp hover').resolve_left (hgoing ▸ Bool.false_ne_true)
  exact ⟨inputs, v, h, hmem, hhearts v hmem, (htends fall (by simp)).doomed v hmem (hhearts v hmem),
    by decide +kernel, hgoing, hover', hlast, (hrun 0.5 3).1 hover'⟩

end HexPulse
