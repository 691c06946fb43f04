import HexPulse.Proofs.Record
import HexPulse.Proofs.World.Course
import HexPulse.Proofs.World.Epoch

/-!
# HexPulse — Proofs — World — Journal

What a frame writes to the journal.  Events are written by six of its stages while what they tell of
goes on changing, and the totals are counted apart from them; `Reports` says of one stage which
events it writes and that it counts them.

* `Frame.report`: the events of a frame, told by what became of its hearts, nodes and targets.
* `World.tallies_status`: the status counts the nodes, as they are and by their phases.
* `Run.exact_journal`: the journal of a run is what its frames report, one after the other, each
  under its number; the totals are the numbers of events, and no effect is left behind.
-/

namespace HexPulse

variable {α : Type}

namespace Event

/-- The node that is reported to have fired. -/
def fired? : Event α → Option Int
  | .nodeDone id .. => some id
  | _ => none

/-- The target that is reported as killed. -/
def killed? : Event α → Option Int
  | .targetKilled id => some id
  | _ => none

/-- The event is not counted in a total. -/
def Uncounted (e : Event α) : Prop := e.fired? = none ∧ e.killed? = none

end Event

/-- The status tells how many nodes a board has, and how many of them are in each phase, which adds
up to the first number. -/
structure Status.Tallies (s : Status α) (b : Board α) : Prop where
  nodes : s.nodes = b.nodes.values.length
  phase : ∀ p, (s.phases.get? p).getD 0 = b.nodes.values.countP fun n => n.state.phase = p
  sum : s.phases.values.sum = s.nodes

/-- The node that terrain is reported to come from. -/
def Effect.source : Effect α → Int
  | .terrain _ source => source
  | _ => 0

namespace Board

/-- The nodes that were asked to fire and have not fired yet. -/
def waiting (b : Board α) : List Int :=
  (b.nodes.values.filter fun n => match n.state with | .requested => true | _ => false).map (·.id)

/-- A stalled board lists the nodes that still wait for their turn. -/
theorem stalled_eq [Scalar α] (b : Board α) : b.stalled = b.waiting := by
  refine congrArg (List.map _) (List.filter_congr fun n _ => ?_)
  cases n.state <;> rfl

/-- The terrain on `c` that was not on `b`, if there is any. -/
def newTerrain? (b c : Board α) : Option (Terrain α) :=
  c.terrain.values.find? fun t => !b.terrain.contains t.id

/-- Where the terrain is as it was, none of it is new. -/
theorem newTerrain?_of_eq {b c : Board α} (hb : b.terrain.Keyed Terrain.id)
    (h : c.terrain = b.terrain) : b.newTerrain? c = none := by
  rw [newTerrain?, h, List.find?_eq_none]
  intro t ht
  rw [Table.contains, hb.get?_id ht]
  exact Bool.false_ne_true

/-- Terrain that is placed has an id that no terrain had, so it is what is new, and it stands on the
cell that was asked for. -/
theorem newTerrain?_of_placeTerrain {b c : Board α} (hb : b.Consistent) {cell : Hex}
    {health : Option α} {t : Terrain α} (h : b.placeTerrain cell health = .ok (t, c)) :
    b.newTerrain? c = some t ∧ t.position = cell := by
  obtain ⟨⟨i, d⟩, hclaim, h⟩ := exists_of_bind_eq_ok h
  obtain ⟨rfl, rfl⟩ := Prod.mk.inj (Except.ok.inj h)
  obtain ⟨-, rfl, rfl⟩ := claim_eq_ok hclaim
  have hnew : b.terrain.get? b.nextId = none := hb.get?_nextId hb.terrain fun _ => rfl
  have hold := newTerrain?_of_eq hb.terrain.keyed (c := b) rfl
  refine ⟨?_, rfl⟩
  rw [newTerrain?] at hold ⊢
  rw [Table.values_insert_of_notMem (Table.get?_eq_none_iff.mp hnew), List.find?_append, hold,
    List.find?_singleton, Table.contains, hnew]
  rfl

end Board

namespace World

/-- From `w` to `w'` the events are written to the journal, and the totals count them. -/
structure Reports (w : World α) (events : List (Event α)) (w' : World α) : Prop where
  frame : w'.frame = w.frame
  journal : w'.journal = w.journal ++ events.map (Entry.mk w.frame)
  fired : w'.firedTotal = w.firedTotal + (events.filterMap Event.fired?).length
  kills : w'.kills = w.kills + (events.filterMap Event.killed?).length

namespace Reports

variable {w w₁ w₂ : World α} {es es' : List (Event α)}

theorem of_eq (frame : w₁.frame = w.frame) (journal : w₁.journal = w.journal)
    (fired : w₁.firedTotal = w.firedTotal) (kills : w₁.kills = w.kills) : Reports w [] w₁ :=
  ⟨frame, journal.trans (List.append_nil _).symm, fired, kills⟩

theorem refl (w : World α) : Reports w [] w := of_eq rfl rfl rfl rfl

theorem trans (h : Reports w es w₁) (h' : Reports w₁ es' w₂) : Reports w (es ++ es') w₂ := by
  refine ⟨h'.frame.trans h.frame, ?_, ?_, ?_⟩
  · rw [h'.journal, h.journal, h.frame, List.map_append, List.append_assoc]
  · rw [h'.fired, h.fired, List.filterMap_append, List.length_append, Nat.add_assoc]
  · rw [h'.kills, h.kills, List.filterMap_append, List.length_append, Nat.add_assoc]

/-- Events behind a stage that reported others. -/
theorem then_eq (h : Reports w es w₁) (frame : w₂.frame = w₁.frame)
    (journal : w₂.journal = w₁.journal) (fired : w₂.firedTotal = w₁.firedTotal)
    (kills : w₂.kills = w₁.kills) : Reports w es w₂ :=
  List.append_nil es ▸ h.trans (of_eq frame journal fired kills)

end Reports

/-- An event that no total counts is written under the number of the frame. -/
theorem reports_emit (w : World α) {e : Event α} (h : e.Uncounted) : Reports w [e] (w.emit e) :=
  ⟨rfl, rfl, by simp [h.1, emit], by simp [h.2, emit]⟩

/-- A stage that emits a list of uncounted events reports that list. -/
theorem reports_emitAll (w : World α) {es : List (Event α)} (h : ∀ e ∈ es, e.Uncounted) :
    Reports w es (w.emitAll es) := by
  rw [emitAll_eq]
  refine ⟨rfl, rfl, ?_, ?_⟩
  · rw [List.filterMap_eq_nil_iff.mpr fun e he => (h e he).1]
    rfl
  · rw [List.filterMap_eq_nil_iff.mpr fun e he => (h e he).2]
    rfl

/-! ### Counts -/

/-- How many nodes are counted in a phase. -/
theorem get?_phases [Scalar α] (w : World α) (p : Phase) :
    (w.phases.get? p).getD 0 = w.board.nodes.values.countP fun n => n.state.phase = p :=
  (Table.getD_foldl_count _ p _ .empty).trans (Nat.zero_add _)

/-- The phases are counted over all nodes. -/
theorem sum_phases [Scalar α] (w : World α) :
    w.phases.values.sum = w.board.nodes.values.length := by
  have hempty : (Table.empty : Table Phase Nat).keys.Nodup := List.nodup_nil
  exact (Table.sum_foldl_count _ _ hempty).trans (Nat.zero_add _)

/-- The status counts the nodes of the board, and those in each phase. -/
theorem tallies_status [Scalar α] (w : World α) : w.status.Tallies w.board where
  nodes := (List.length_map _).symm
  phase := w.get?_phases
  sum := w.sum_phases.trans (List.length_map _)

/-- The report on a node that fired, with the state that it has on a board. -/
def conclusion (b : Board α) (id : Int) : Option (Event α) :=
  (b.nodes.get? id).map fun n => .nodeDone id n.kind n.state

/-- Nodes that are on the board are reported under their ids. -/
theorem filterMap_conclusion {b : Board α} {ids : List Int} (h : ∀ id ∈ ids, id ∈ b.nodes.keys) :
    (ids.filterMap (conclusion b)).filterMap Event.fired? = ids := by
  rw [List.filterMap_filterMap]
  refine (List.filterMap_congr fun id hid => ?_).trans List.filterMap_some
  obtain ⟨n, hn⟩ := Option.ne_none_iff_exists'.mp fun e => Table.get?_eq_none_iff.mp e (h id hid)
  rw [conclusion, hn]
  rfl

/-- No target is killed by what nodes report. -/
theorem filterMap_conclusion_killed (b : Board α) (ids : List Int) :
    (ids.filterMap (conclusion b)).filterMap Event.killed? = [] := by
  rw [List.filterMap_filterMap, List.filterMap_eq_nil_iff]
  intro id _
  rw [conclusion]
  cases b.nodes.get? id <;> rfl

/-- The targets that are killed are reported under their ids. -/
theorem filterMap_killed (ts : List (Target α)) :
    (ts.map fun t => Event.targetKilled (α := α) t.id).filterMap Event.killed? = ts.map (·.id) := by
  rw [List.filterMap_map]
  exact congrFun (List.filterMap_eq_map' (f := fun t : Target α => t.id)) ts

/-- Projecting reports the terrain that it placed, and nothing if the cell was refused. -/
theorem reports_project {w : World α} (hb : w.board.Consistent) (cell : Hex) (source : Int) :
    Reports w ((w.board.newTerrain? (w.project cell source).board).toList.map fun t =>
      .terrainPlaced t.id source t.position) (w.project cell source) := by
  rw [project]
  split
  · rw [Board.newTerrain?_of_eq hb.terrain.keyed rfl]
    exact .refl w
  · next h =>
    obtain ⟨hnew, hposition⟩ := Board.newTerrain?_of_placeTerrain hb h
    rw [emit, hnew, Option.toList_some, List.map_singleton, hposition]
    exact ⟨rfl, rfl, rfl, rfl⟩

variable [Scalar α]

/-! ### Before the pass -/

/-- The report on a heart that is gone. -/
def destruction (h : Heart α) : Event α := .heartDestroyed h.id h.position

/-- The report on a heart that beats, with the number of the nodes that it asks to fire. -/
def heartbeat (requested : Nat) (h : Heart α) : Event α :=
  .heartbeat h.id h.beats h.period h.health requested

/-- Reaping reports the destruction of every heart that it takes off the board. -/
theorem reports_reap (w : World α) :
    Reports w (w.board.reapDead.hearts.map destruction) w.reap := by
  have hnone : ∀ e ∈ w.board.reapDead.hearts.map destruction, e.Uncounted := by
    intro e he
    obtain ⟨v, -, rfl⟩ := List.mem_map.mp he
    exact ⟨rfl, rfl⟩
  have h := reports_emitAll { w with board := w.board.reapDead.board } hnone
  exact ⟨h.frame, h.journal, h.fired, h.kills⟩

/-- Pruning says nothing. -/
theorem reports_prune (w : World α) : Reports w [] w.prune := by
  rw [prune]
  split
  · exact .of_eq rfl rfl rfl rfl
  · exact .refl w

/-- The report on the nodes that still wait, if any do. -/
def delay (b : Board α) : List (Event α) :=
  if b.waiting.isEmpty then [] else [.nodesStalled b.waiting]

/-- What is reported when hearts beat: the nodes that still waited, if any did, and the hearts. -/
def pulses (w : World α) (dt : α) : List (Event α) :=
  if (w.beating dt).isEmpty then []
  else delay w.board ++ (w.beating dt).map (heartbeat w.board.requestCount)

/-- The call of the first heart reports the nodes that still wait. -/
theorem reports_calling (w : World α) (dt : α) : Reports w (delay w.board) (w.calling dt) := by
  rw [calling, delay, Board.stalled_eq]
  split
  · exact .of_eq rfl rfl rfl rfl
  · have h := (w.advanced dt).reports_emit (e := .nodesStalled w.board.waiting) ⟨rfl, rfl⟩
    exact ⟨h.frame, h.journal, h.fired, h.kills⟩

/-- A heart that beats reports its beat. -/
theorem reports_pulse (requested : Nat) (w : World α) (h : Heart α) :
    Reports w [heartbeat requested h] (pulse requested w h).state := by
  have hemit := w.reports_emit (e := heartbeat requested h) ⟨rfl, rfl⟩
  exact ⟨hemit.frame, hemit.journal, hemit.fired, hemit.kills⟩

/-- No heart asks for an effect. -/
theorem sink_pulses (requested : Nat) (beating : List (Heart α)) (w : World α) :
    (Progress.fold (pulse requested) beating w).state.sink = w.sink := by
  let R (w w' : World α) : Prop := w'.sink = w.sink
  have htrans {w w₁ w₂ : World α} (h : R w w₁) (h' : R w₁ w₂) : R w w₂ := Eq.trans h' h
  exact Progress.fold_rel (R := R) (fun _ => rfl) htrans (fun _ _ => rfl) beating w

/-- The beat reports one heartbeat for each heart that beats, in the order of the board, and nothing
if none does. -/
theorem reports_beat {w : World α} {dt : α} (hf : (w.beat dt).fault = none) :
    Reports w (w.pulses dt) (w.beat dt).state := by
  rw [beat_eq] at hf ⊢
  rw [pulses]
  split
  · exact .of_eq rfl rfl rfl rfl
  · next hbeating =>
    rw [if_neg hbeating] at hf
    have h : Reports (w.calling dt) (Progress.along (pulse w.board.requestCount)
        (fun _ h => [heartbeat w.board.requestCount h]) (w.beating dt) (w.calling dt))
        (Progress.fold (pulse w.board.requestCount) (w.beating dt) (w.calling dt)).state :=
      Progress.fold_along (R := fun es w w' => Reports w es w') (P := fun _ => True) Reports.refl
        Reports.trans (fun _ _ _ => trivial)
        (fun w' h _ => reports_pulse w.board.requestCount w' h) trivial hf
    rw [Progress.along_eq_flatMap, ← List.map_eq_flatMap] at h
    exact (w.reports_calling dt).trans h

/-! ### The pass -/

/-- A pass without a fault leaves its board, its list of fired nodes and its effects to the world,
and one report for each node that fired. -/
theorem activate_state {w : World α} (h : w.activate.fault = none) :
    w.activate.state = { w with
      board := (Pass.run w.board w.sink).state.board
      sink := (Pass.run w.board w.sink).state.sink
      fired := (Pass.run w.board w.sink).state.fired
      firedTotal := w.firedTotal + (Pass.run w.board w.sink).state.fired.length
      journal := w.journal ++ ((Pass.run w.board w.sink).state.fired.filterMap
        (conclusion (Pass.run w.board w.sink).state.board)).map (Entry.mk w.frame) } := by
  rw [activate] at h ⊢
  generalize Pass.run w.board w.sink = p at h ⊢
  obtain ⟨p, fault⟩ := p
  cases fault with
  | none => exact emitAll_eq _ _
  | some f => cases h

/-- The pass reports the nodes that fired, in the order in which they did, each in the state that
the pass left it in. -/
theorem reports_activate {w : World α} (hb : w.board.nodes.Keyed Node.id)
    (h : w.activate.fault = none) :
    Reports w ((Pass.run w.board w.sink).state.fired.filterMap
      (conclusion (Pass.run w.board w.sink).state.board)) w.activate.state := by
  have halone := Pass.alone hb (activate_eq h).1
  have hids : ∀ id ∈ (Pass.run w.board w.sink).state.fired,
      id ∈ (Pass.run w.board w.sink).state.board.nodes.keys := by
    intro id hid
    rw [halone.keys]
    exact halone.order.subset hid
  rw [activate_state h]
  refine ⟨rfl, rfl, ?_, ?_⟩
  · rw [filterMap_conclusion hids]
  · rw [filterMap_conclusion_killed]
    rfl

/-! ### The effects -/

/-- The report on an effect, and on the terrain that it created, if it did. -/
def carrying (w : World α) (e : Effect α) : List (Event α) :=
  .effect e :: (w.board.newTerrain? (w.apply e).state.board).toList.map fun t =>
    .terrainPlaced t.id e.source t.position

/-- An effect that is not terrain changes at most targets, what is in flight, and the damage. -/
theorem apply_state {w : World α} {e : Effect α} (h : ∀ cell source, e ≠ .terrain cell source) :
    ∃ ts inFlight dealt, (w.apply e).state = { w.emit (.effect e) with
      board := { w.board with targets := ts }, inFlight := inFlight, damageDealt := dealt } := by
  unfold apply
  dsimp only
  split
  · split
    · exact ⟨_, _, _, rfl⟩
    · exact ⟨_, _, _, rfl⟩
  · next cell source => exact absurd rfl (h cell source)
  · exact ⟨_, _, _, rfl⟩
  · cases InFlight.accept _ _ _ e with
    | error f => exact ⟨_, _, _, rfl⟩
    | ok inFlight => exact ⟨_, _, _, rfl⟩

/-- Only an effect that is terrain creates any. -/
theorem newTerrain?_apply {w : World α} (hb : w.board.Consistent) {e : Effect α}
    (h : ∀ cell source, e ≠ .terrain cell source) :
    w.board.newTerrain? (w.apply e).state.board = none := by
  obtain ⟨ts, inFlight, dealt, happly⟩ := apply_state (w := w) h
  exact Board.newTerrain?_of_eq hb.terrain.keyed (by rw [happly])

/-- An effect is reported, and behind it the terrain that it created. -/
theorem reports_apply {w : World α} (hb : w.board.Consistent) (e : Effect α) :
    Reports w (w.carrying e) (w.apply e).state := by
  have hemit : Reports w [.effect e] (w.emit (.effect e)) := w.reports_emit ⟨rfl, rfl⟩
  by_cases h : ∃ cell source, e = .terrain cell source
  · obtain ⟨cell, source, rfl⟩ := h
    have hemitted : (w.emit (.effect (.terrain cell source))).board.Consistent := hb
    exact hemit.trans (reports_project hemitted cell source)
  · have h := fun cell source he => h ⟨cell, source, he⟩
    rw [carrying, newTerrain?_apply hb h]
    obtain ⟨ts, inFlight, dealt, happly⟩ := apply_state (w := w) h
    rw [happly]
    exact hemit.then_eq rfl rfl rfl rfl

/-- Carrying effects out reports each of them as it is taken up, and what terrain it placed. -/
theorem reports_applyAll {w : World α} (hb : w.board.Consistent) (h : w.applyAll.fault = none) :
    Reports w (Progress.along apply carrying w.sink { w with sink := [] }) w.applyAll.state := by
  have h := Progress.fold_along (R := fun es w w' => Reports w es w')
    (P := fun w => w.board.Consistent) Reports.refl Reports.trans
    (fun w e hw => (w.aside_apply e).board.consistent hw) (fun w e hw => w.reports_apply hw e)
    (s := { w with sink := [] }) hb h
  exact ⟨h.frame, h.journal, h.fired, h.kills⟩

/-! ### Behind the effects -/

/-- What is in flight says nothing when it lands. -/
theorem reports_fly (w : World α) (dt : α) : Reports w [] (w.fly dt).state := by
  rw [fly]
  dsimp only
  split
  · exact .of_eq rfl rfl rfl rfl
  · exact .of_eq rfl rfl rfl rfl

/-- Hearts heal in silence. -/
theorem reports_regenerate (w : World α) (dt : α) : Reports w [] (w.regenerate dt) := by
  rw [regenerate]
  split
  split
  · exact .of_eq rfl rfl rfl rfl
  · exact .of_eq rfl rfl rfl rfl

/-- Targets move and bite in silence: who died is told when the dead are buried. -/
theorem reports_walked (w : World α) (dt : α) : Reports w [] (w.walked dt) := by
  have h := reports_regenerate
    ((w.withTargets (w.board.targets.follow w.board.layout dt).state).contact dt).state dt
  exact ⟨h.frame, h.journal, h.fired, h.kills⟩

/-- Writing an event changes nothing that the status tells. -/
theorem status_emit (w : World α) (e : Event α) : (w.emit e).status = w.status := rfl

/-- Burying reports every dead target once, and each of them is counted as a kill. -/
theorem reports_bury (w : World α) :
    Reports w (w.board.targets.dead.map fun t => .targetKilled t.id) w.bury := by
  have hfired : (w.board.targets.dead.map fun t => Event.targetKilled (α := α) t.id).filterMap
      Event.fired? = [] := by
    rw [List.filterMap_map]
    exact List.filterMap_eq_nil_iff.mpr fun _ _ => rfl
  have hkilled := filterMap_killed w.board.targets.dead
  rw [bury, emitAll_eq]
  refine ⟨rfl, rfl, ?_, ?_⟩
  · rw [hfired]
    rfl
  · rw [hkilled, List.length_map]
    rfl

end World

/-! ### Frames -/

namespace Frame

variable [Scalar α]

/-- The hearts that are cleared at the start of the frame. -/
def lost (f : Frame α) : List (Heart α) :=
  f.world.board.hearts.values.filter fun h => !f.pruned.board.hearts.contains h.id

/-- The effects that the nodes asked for as they fired. -/
def emitted (f : Frame α) : List (Effect α) := f.fired.flatMap f.asked.board.effectsOf

/-- What a frame reports: the hearts that it lost; the nodes that still waited and the hearts that
beat, if one did; the nodes that fired, as the frame leaves them; the effects that they asked for,
each with the terrain that it created; the targets that were killed; and its status. -/
def report (f : Frame α) : List (Event α) :=
  f.lost.map World.destruction ++ f.pruned.pulses f.dt ++
    f.fired.filterMap (World.conclusion f.ended.board) ++
    Progress.along World.apply World.carrying f.emitted f.unloaded ++
    f.dropped.map (fun t => .targetKilled t.id) ++ [.frame f.ended.status]

/-- The report under the number of the frame. -/
def entries (f : Frame α) : List (Entry α) := f.report.map (Entry.mk (f.world.frame + 1))

/-- When the hearts beat, those are left that reaping spared. -/
theorem hearts_pruned (f : Frame α) :
    f.pruned.board.hearts = f.world.board.reapDead.board.hearts := by
  have hreap : (f.world.tick f.dt).reap.board = f.world.board.reapDead.board :=
    World.board_emitAll _ _
  rw [pruned, World.prune]
  split
  · have hprune (b : Board α) : b.prune.board.hearts = b.hearts := rfl
    exact (hprune _).trans (congrArg Board.hearts hreap)
  · exact congrArg Board.hearts hreap

/-- Up to the beat a frame reports the hearts that it lost. -/
theorem reports_pruned {f : Frame α} (hw : f.world.board.Consistent) :
    World.Reports (f.world.tick f.dt) (f.lost.map World.destruction) f.pruned := by
  have hreap := (f.world.tick f.dt).reports_reap.trans (World.reports_prune _)
  rw [List.append_nil] at hreap
  rw [lost, hearts_pruned, ← Board.hearts_reapDead hw]
  exact hreap

/-- Nothing is asked for before the pass. -/
theorem sink_asked (f : Frame α) : f.asked.sink = f.world.sink := by
  have hreap : (f.world.tick f.dt).reap.sink = f.world.sink :=
    (World.leaves_emitAll _ _).sink
  have hpruned : f.pruned.sink = f.world.sink := by
    rw [pruned, World.prune]
    split
    · exact hreap
    · exact hreap
  have hcalling : (f.pruned.calling f.dt).sink = f.pruned.sink := by
    rw [World.calling]
    split <;> rfl
  rw [asked, World.beat_eq]
  split
  · exact hpruned
  · exact (World.sink_pulses _ _ _).trans (hcalling.trans hpruned)

namespace Course

variable {f : Frame α}

/-- The stage of the pass ends with the board of the pass. -/
theorem board_activated (h : f.Course) : f.activated.board = f.passed.board := by
  rw [activated, World.activate_state h.activate, passed]

/-- The effects that are carried out are those that were asked for in the pass. -/
theorem sink_activated (h : f.Course) (hs : f.Stages) (hw : f.world.board.Consistent)
    (hsink : f.world.sink = []) : f.activated.sink = f.emitted := by
  have hpassed : f.activated.sink = f.passed.sink := by
    rw [activated, World.activate_state h.activate, passed]
  rw [hpassed, (hs.alone hw).sink, sink_asked, hsink, List.nil_append, emitted, hs.fired]

/-- The third part of a report: the nodes that fired, in the state in which the frame ends with
them. -/
theorem reports_activated (h : f.Course) (hs : f.Stages) (hw : f.world.board.Consistent) :
    World.Reports f.asked (f.fired.filterMap (World.conclusion f.ended.board)) f.activated := by
  -- the nodes are reported as the pass leaves them, and nothing behind it changes them
  have hconclusion : World.conclusion f.ended.board = World.conclusion f.passed.board := by
    funext id
    rw [World.conclusion, World.conclusion, h.nodes_ended]
  rw [hconclusion, hs.fired, passed, activated]
  exact World.reports_activate (hs.asked_keyed hw) h.activate

/-- The fourth part of a report: the effects that the pass asked for, as they are carried out. -/
theorem reports_carried (h : f.Course) (hs : f.Stages) (hw : f.world.board.Consistent)
    (hsink : f.world.sink = []) : World.Reports f.activated
      (Progress.along World.apply World.carrying f.emitted f.unloaded) f.carried := by
  have hconsistent : f.activated.board.Consistent := by
    rw [h.board_activated]
    exact hs.passed_consistent hw
  rw [← h.sink_activated hs hw hsink, unloaded, carried]
  exact World.reports_applyAll hconsistent h.carry

/-- A frame ends with the targets that are left by the reaping behind the walk. -/
theorem targets_ended (h : f.Course) : f.ended.board.targets = f.walked.board.targets.reap := by
  rw [h.ended, World.bury, World.emitAll_eq]
  rfl

/-- The targets that are dropped are those that are gone. -/
theorem perm_dropped (h : f.Course) : (f.dropped ++ f.ended.board.targets.table.values).Perm
    f.walked.board.targets.table.values := by
  rw [h.targets_ended, Targets.reap, Table.values_filter]
  exact List.perm_append_comm.trans (List.filter_append_perm _ _)

/-- The last part of a report: the targets that are dropped, and the status of the frame. -/
theorem reports_ended (h : f.Course) : World.Reports f.carried
    (f.dropped.map (fun t => .targetKilled t.id) ++ [.frame f.ended.status]) f.ended := by
  have hflown : World.Reports f.carried [] f.flown := World.reports_fly f.carried f.dt
  have hwalked : World.Reports f.flown [] f.walked := World.reports_walked f.flown f.dt
  have hburied : World.Reports f.walked (f.dropped.map fun t => .targetKilled t.id)
      f.walked.bury := World.reports_bury f.walked
  have hended : World.Reports f.walked.bury [.frame f.ended.status] f.ended := by
    rw [h.ended, World.status_emit]
    exact World.reports_emit _ ⟨rfl, rfl⟩
  exact hflown.trans (hwalked.trans (hburied.trans hended))

end Course

/-- A frame without a fault writes its report, and the totals count it. -/
theorem reports {f : Frame α} (h : (f.world.step f.dt).fault = none)
    (hw : f.world.board.Consistent) (hsink : f.world.sink = []) :
    World.Reports (f.world.tick f.dt) f.report f.ended := by
  have hs := stages h
  have hc := course h
  have hpruned : World.Reports (f.world.tick f.dt) (f.lost.map World.destruction) f.pruned :=
    reports_pruned hw
  have hasked : World.Reports f.pruned (f.pruned.pulses f.dt) f.asked := World.reports_beat hc.beat
  have hpassed := ((hpruned.trans hasked).trans (hc.reports_activated hs hw)).trans
    (hc.reports_carried hs hw hsink)
  rw [report, List.append_assoc]
  exact hpassed.trans hc.reports_ended

end Frame

/-! ### Runs -/

/-- A request changes nothing but the board. -/
theorem World.perform_eq [Scalar α] (w : World α) (r : Request α) :
    w.perform r = { w with board := (w.perform r).board } := by
  have hedited {ε : Type} (e : Except ε (Board α)) :
      w.edited e = { w with board := (w.edited e).board } := by
    cases e <;> rfl
  cases r with
  | addTarget cell health path =>
    rw [perform]
    split
    · next h =>
      obtain ⟨_, -, h⟩ := exists_of_bind_eq_ok h
      obtain ⟨-, rfl⟩ := Prod.mk.inj (Except.ok.inj h)
      rfl
    · rfl
  | _ => exact hedited _

namespace Run

variable [Scalar α] {w : World α} {inputs : List (Input α)} {frames : List (Frame α)}

/-- The journal and the totals of a run that begins with none. -/
structure Journaled (frames : List (Frame α)) (w : World α) : Prop where
  journal : w.journal = frames.reverse.flatMap Frame.entries
  frame : w.frame = frames.length
  sink : w.sink = []
  fired : (w.journal.filterMap fun e => e.event.fired?).length = w.firedTotal
  kills : (w.journal.filterMap fun e => e.event.killed?).length = w.kills

/-- What a frame reports is added to the journal, and counted. -/
theorem Journaled.step {f : Frame α} (h : Journaled frames f.world)
    (hr : World.Reports (f.world.tick f.dt) f.report f.ended) (hsink : f.ended.sink = []) :
    Journaled (f :: frames) f.ended := by
  have hjournal : f.ended.journal = f.world.journal ++ f.entries := hr.journal
  have hcount (g : Event α → Option Int) : (f.ended.journal.filterMap fun e => g e.event).length =
      (f.world.journal.filterMap fun e => g e.event).length + (f.report.filterMap g).length := by
    rw [hjournal, Frame.entries, List.filterMap_append, List.length_append, List.filterMap_map]
    rfl
  constructor
  case journal =>
    rw [hjournal, h.journal, List.reverse_cons, List.flatMap_append, List.flatMap_singleton]
  case frame =>
    rw [List.length_cons, Int.natCast_succ, ← h.frame]
    exact hr.frame
  case sink => exact hsink
  case fired =>
    rw [hcount, h.fired]
    exact hr.fired.symm
  case kills =>
    rw [hcount, h.kills]
    exact hr.kills.symm

/-- The journal of a run is made of the reports of its frames, one behind the other. -/
theorem journaled {catalogue : Catalogue} {settings : Settings α} {draws : Draws α}
    (h : Run World.step (.new catalogue settings draws) inputs frames w) :
    Journaled frames w := by
  induction h with
  | start => exact ⟨rfl, rfl, rfl, rfl, rfl⟩
  | request _ r ih =>
    rw [World.perform_eq]
    exact ⟨ih.journal, ih.frame, ih.sink, ih.fired, ih.kills⟩
  | @frame _ frames w dt h faultless ih =>
    have hw := h.consistent (.new catalogue settings)
    have hr := Frame.reports (f := ⟨w, dt⟩) faultless hw ih.sink
    exact ih.step hr (Frame.course (f := ⟨w, dt⟩) faultless).sink_ended

/-- **The journal is exact.**  In every run of a new world the journal is the reports of its frames,
one behind the other and each under the number of its frame, and nothing else, and what is written of
its entries tells of them; it tells of as many nodes that fired and targets that were killed as the
totals count; and no effect is left that was not carried out.  In every frame those nodes fire that
were ready, in the order of the table, and none of them is missing when it is reported; the targets
that are reported as killed are all that are gone behind the walk; and the status counts the nodes, as
they are and by their phases. -/
theorem exact_journal {catalogue : Catalogue} {settings : Settings α} {draws : Draws α}
    (h : Run World.step (.new catalogue settings draws) inputs frames w) :
    w.journal = frames.reverse.flatMap Frame.entries ∧ (∀ e ∈ w.journal, e.Recorded e.fields) ∧
    w.frame = frames.length ∧ w.sink = [] ∧
    (w.journal.filterMap fun e => e.event.fired?).length = w.firedTotal ∧
    (w.journal.filterMap fun e => e.event.killed?).length = w.kills ∧
    ∀ f ∈ frames, f.fired = f.asked.board.ready.map (·.id) ∧
      (∀ id ∈ f.fired, ∃ n, f.ended.board.nodes.get? id = some n) ∧
      (f.dropped ++ f.ended.board.targets.table.values).Perm f.walked.board.targets.table.values ∧
      f.ended.status.Tallies f.ended.board := by
  have hj := h.journaled
  refine ⟨hj.journal, fun e _ => e.recorded, hj.frame, hj.sink, hj.fired, hj.kills, fun f hf => ?_⟩
  obtain ⟨later, past, hsplit⟩ := List.append_of_mem hf
  obtain ⟨⟨_, hpast⟩, hfaultless⟩ := h.split hsplit
  have hs := Frame.stages hfaultless
  have hc := Frame.course hfaultless
  have hw := hpast.consistent (.new catalogue settings)
  have hk := hs.asked_keyed hw
  have hpass := Pass.run_eq hk ((Pass.run_fault_eq_none_iff hk).mp hs.pass) f.asked.sink
  refine ⟨?_, fun id hid => ?_, hc.perm_dropped, f.ended.tallies_status⟩
  · rw [hs.fired, Frame.passed, hpass, Progress.done_state]
  · rw [hc.nodes_ended]
    have halone := hs.alone hw
    rw [hs.fired] at hid
    -- the nodes that fired are nodes of the pass, and no node goes behind it
    refine Option.ne_none_iff_exists'.mp fun e => Table.get?_eq_none_iff.mp e ?_
    rw [halone.keys]
    exact halone.order.subset hid

/-- The number that a node is reported to hold. -/
def Event.held? : Event α → Option (Int × α)
  | .nodeDone id _ (.ok (.number x)) => some (id, x)
  | _ => none

open Beacon in
/-- The heart beats and the constant fires, and in the frame behind it the product does; both are
reported with the number of the constant. -/
theorem exact_journal_beacon :
    echo.ended.journal = pulse.entries ++ echo.entries ∧ echo.ended.firedTotal = 2 ∧
      (pulse.entries.map fun e => (e.frame, e.event.name)) =
        [(1, "HEARTBEAT"), (1, "NODE_DONE"), (1, "FRAME")] ∧
      (echo.entries.map fun e => (e.frame, e.event.name)) = [(2, "NODE_DONE"), (2, "FRAME")] ∧
      (echo.ended.journal.filterMap fun e => Event.held? e.event) = [(2, 2.0), (3, 2.0)] ∧
      echo.ended.status.Tallies echo.ended.board ∧ echo.ended.status.nodes = 2 := by
  obtain ⟨_, h⟩ := run_echo
  obtain ⟨hjournal, -, -, -, -, -, hframes⟩ := exact_journal h
  obtain ⟨-, -, -, htallies⟩ := hframes echo List.mem_cons_self
  exact ⟨hjournal.trans (by simp), by decide +kernel, by decide +kernel, by decide +kernel,
    by decide +kernel, htallies, by decide +kernel⟩

end Run

end HexPulse
