import HexPulse.Proofs.Evaluation.References
import HexPulse.Proofs.World.Life

/-!
# HexPulse — Proofs — World — Census

Who is on the board, and who is meant.  Ids of targets are issued one after the other, every target
that was added stands on the board or was reported as killed, and what nodes remember of targets
never comes to mean another one.

* `Board.Within`: all entities that nodes hold, or have as their constants, are among some ids.
  Requests bring in those that they write (`World.within_perform`), and a frame those of live
  targets (`Frame.within_ended`).
* `Life.census`: nobody is lost, and nobody is mistaken for another.
-/

namespace HexPulse

variable {α : Type}

/-- A direction that is bound leaves the constant as it is. -/
theorem Wiring.constant_bind {w w' : Wiring α} {d : Direction} {port : Port}
    (h : w.bind d port = .ok w') : w'.constant = w.constant := by
  rw [bind] at h
  split at h
  · split at h
    · cases h
      rfl
    · cases h
  · cases h
    rfl

/-! ### What nodes name -/

/-- All entities that the node holds, or has as its constant, are among some ids. -/
def Node.Within (S : Int → Prop) (n : Node α) : Prop :=
  (∀ v, n.state = .ok v → v.Within S) ∧ ∀ v, n.wiring.constant = some v → v.Within S

/-- A node that holds nothing names at most whom its constant names. -/
theorem Node.Within.blank {S : Int → Prop} {n : Node α} (h : n.Within S) {s : NodeState α}
    (hs : ∀ v, s ≠ .ok v) : Node.Within S { n with state := s } :=
  ⟨fun v hv => absurd hv (hs v), h.2⟩

namespace Board

/-- The same of all nodes of a board. -/
def Within (S : Int → Prop) (b : Board α) : Prop := ∀ n ∈ b.nodes.values, n.Within S

namespace Within

variable {S T : Int → Prop} {b c : Board α}

theorem mono (h : b.Within S) (hST : ∀ id, S id → T id) : b.Within T := fun n hn =>
  ⟨fun v hv => ((h n hn).1 v hv).mono hST, fun v hv => ((h n hn).2 v hv).mono hST⟩

theorem of_eq (h : b.Within S) (nodes : c.nodes = b.nodes) : c.Within S := fun n hn =>
  h n (nodes ▸ hn)

/-- Clearing a cell takes a node away at most, and names nobody. -/
theorem emptied (h : b.Within S) (cell : Hex) : (b.emptied cell).Within S := by
  rw [Board.emptied]
  split
  · exact fun n hn => h n (Table.mem_values_of_mem_erase hn)
  · exact h.of_eq rfl
  · exact h.of_eq rfl
  · exact h

theorem foldl_emptied (h : b.Within S) (cells : List Hex) :
    (cells.foldl Board.emptied b).Within S :=
  List.foldlRecOn cells _ h fun _ hc cell _ => hc.emptied cell

/-- A board whose nodes are rewritten names nobody new if the rewriting does not. -/
theorem mapNodes (h : b.Within S) {f : Node α → Node α} (hf : ∀ n, n.Within S → (f n).Within S)
    (nodes : c.nodes = b.nodes.mapValues f) : c.Within S := by
  intro n hn
  rw [nodes, Table.values_mapValues] at hn
  obtain ⟨m, hm, rfl⟩ := List.mem_map.mp hn
  exact hf m (h m hm)

theorem updateNode (h : b.Within S) (id : Int) {f : Node α → Node α}
    (hf : ∀ n, n.Within S → (f n).Within S) : (b.updateNode id f).Within S := by
  intro n hn
  rcases Table.mem_values_modify hn with hn | ⟨m, hm, rfl⟩
  · exact h n hn
  · exact hf m (h m hm)

/-- A node was wired, and has the constant of a node of the board or another one within the ids. -/
theorem rewire (h : b.Within S) (id : Int) {w : Wiring α}
    (hw : ∀ v, w.constant = some v → v.Within S) :
    (b.updateNode id fun n => { n with wiring := w }).Within S :=
  h.updateNode id fun _ hn => ⟨hn.1, hw⟩

theorem placeNode (h : b.Within S) {cell : Hex} {kind : String} {n : Node α}
    (hc : b.placeNode cell kind = .ok (n, c)) : c.Within S := by
  obtain ⟨d, -, hc⟩ := exists_of_bind_eq_ok hc
  obtain ⟨⟨i, e⟩, hclaim, hc⟩ := exists_of_bind_eq_ok hc
  obtain ⟨-, rfl⟩ := Prod.mk.inj (Except.ok.inj hc)
  intro m hm
  rcases Table.mem_values_insert hm with rfl | hm
  · exact ⟨by simp, by simp [Wiring.empty]⟩
  · exact h m hm

/-- Binding a direction touches neither a value nor a constant. -/
theorem bind (h : b.Within S) {id : Int} {direction port : String}
    (hc : b.bind id direction port = .ok c) : c.Within S := by
  obtain ⟨n, hn, hc⟩ := exists_of_bind_eq_ok hc
  obtain ⟨_, -, hc⟩ := exists_of_bind_eq_ok hc
  split at hc
  · cases hc
  · obtain ⟨_, -, hc⟩ := exists_of_bind_eq_ok hc
    obtain ⟨w, hw, hc⟩ := exists_of_bind_eq_ok hc
    obtain rfl := Except.ok.inj hc
    have hn := Table.mem_values_of_get? (get?_of_node_eq_ok (of_mapError_eq_ok hn))
    refine h.rewire id fun v hv => (h n hn).2 v ?_
    rwa [Wiring.constant_bind (of_mapError_eq_ok hw)] at hv

theorem unbind (h : b.Within S) {id : Int} {direction : String}
    (hc : b.unbind id direction = .ok c) : c.Within S := by
  obtain ⟨n, hn, hc⟩ := exists_of_bind_eq_ok hc
  obtain ⟨_, -, hc⟩ := exists_of_bind_eq_ok hc
  obtain rfl := Except.ok.inj hc
  have hn := Table.mem_values_of_get? (get?_of_node_eq_ok (of_mapError_eq_ok hn))
  exact h.rewire id (h n hn).2

/-- A constant that is set names only the entities in its value. -/
theorem setConstant (h : b.Within S) {id : Int} {value : Option (Value α)}
    (hvalue : ∀ v, value = some v → v.Within S) (hc : b.setConstant id value = .ok c) :
    c.Within S := by
  obtain ⟨n, hn, hc⟩ := exists_of_bind_eq_ok hc
  obtain ⟨_, -, hc⟩ := exists_of_bind_eq_ok hc
  split at hc
  · obtain rfl := Except.ok.inj hc
    exact h.updateNode id fun n hn => ⟨hn.1, hvalue⟩
  · cases hc

end Within

end Board

/-- The request writes the id into a constant. -/
def Request.Writes (id : Int) : Request α → Prop
  | .setConstant _ (some v) => id ∈ v.refs
  | _ => False

namespace World

variable [Scalar α] {S : Int → Prop} {w : World α}

/-- A request brings no entities to the nodes but those of the constant that it writes. -/
theorem within_perform (hw : w.board.Within S) {r : Request α} (hr : ∀ id, r.Writes id → S id) :
    (w.perform r).board.Within S := by
  cases r with
  | placeNode cell kind => exact edited_map_rec hw fun n c h => hw.placeNode h
  | removeNode id =>
    refine edited_map_rec hw fun n c h => ?_
    rw [Board.eq_emptied_of_removeNode h]
    exact hw.emptied _
  | clearCell cell =>
    refine edited_map_rec hw fun t c h => ?_
    rw [Board.eq_emptied_of_clearCell h]
    exact hw.emptied _
  | placeHeart cell =>
    exact edited_map_rec hw fun _ _ h => hw.of_eq (Board.rest_of_placeHeart h).1
  | placeTerrain cell health =>
    exact edited_map_rec hw fun _ _ h => hw.of_eq (Board.rest_of_placeTerrain h).1
  | bind id direction port => exact edited_rec hw fun c h => hw.bind h
  | unbind id direction => exact edited_rec hw fun c h => hw.unbind h
  | setConstant id value =>
    refine edited_rec hw fun c h => hw.setConstant (fun v hv i hi => hr i ?_) h
    subst hv
    exact hi
  | addTarget cell health path =>
    rw [perform]
    split
    · next h =>
      obtain ⟨_, -, h⟩ := exists_of_bind_eq_ok h
      obtain ⟨-, rfl⟩ := Prod.mk.inj (Except.ok.inj h)
      exact hw.of_eq rfl
    · exact hw

theorem nodes_pulses (requested : Nat) (beating : List (Heart α)) (w : World α) :
    (Progress.fold (pulse requested) beating w).state.board.nodes = w.board.nodes := by
  let R (w w' : World α) : Prop := w'.board.nodes = w.board.nodes
  have htrans {w w₁ w₂ : World α} (h : R w w₁) (h' : R w₁ w₂) : R w w₂ := Eq.trans h' h
  exact Progress.fold_rel (R := R) (fun _ => rfl) htrans (fun _ _ => rfl) beating w

/-- The beat asks nodes, and gives none of them a value. -/
theorem within_beat (hw : w.board.Within S) (dt : α) : (w.beat dt).state.board.Within S := by
  rw [beat_eq]
  split
  · exact hw.of_eq rfl
  · have hcalling : (w.calling dt).board.Within S := by
      rw [calling]
      refine hw.mapNodes (f := Board.requestNode) (fun n hn => ?_) ?_
      · rw [Board.requestNode]
        split
        · exact hn
        · exact hn.blank (by simp)
      · split <;> rfl
    exact hcalling.of_eq (nodes_pulses _ _ _)

end World

namespace Frame

variable [Scalar α] {f : Frame α} {S : Int → Prop}

/-- Pruning takes values away, and adds none. -/
theorem within_pruned (hw : f.world.board.Within S) : f.pruned.board.Within S := by
  have hreap : (f.world.tick f.dt).reap.board.Within S := by
    rw [World.reap, World.emitAll_eq]
    exact hw.foldl_emptied _
  rw [pruned, World.prune]
  split
  · refine hreap.mapNodes (f := Board.pruneNode _) (fun n hn => ?_) rfl
    rw [Board.pruneNode]
    split
    · split
      · exact hn.blank (by simp)
      · exact hn
    · exact hn.blank (by simp)
  · exact hreap

/-- A node that fires names live targets, and entities that it has read or has as its constant. -/
theorem within_after {b : Board α} (hb : b.Within S) (htargets : ∀ t ∈ b.targets.live, S t.id)
    {n : Node α} (hn : n.Within S) : (n.after (b.evaluate n)).Within S := by
  refine ⟨fun v hv => ?_, hn.2⟩
  refine Board.within_evaluate htargets hn.2 (fun port u hu => ?_)
    (Evaluation.result_of_state_eq_ok hv)
  obtain ⟨d, m, -, hm, hu⟩ := Board.read_eq_ok_iff.mp hu
  obtain ⟨i, -, hi⟩ := Board.nodeAt?_eq_some_iff.mp hm
  exact (hb m (Table.mem_values_of_get? hi)).1 u hu

/-- **The nodes behind a frame name whom the nodes before it named, or live targets.** -/
theorem within_ended (h : (f.world.step f.dt).fault = none) (hw : f.world.board.Within S)
    (hc : f.world.board.Consistent) (htargets : ∀ t ∈ f.asked.board.targets.live, S t.id) :
    f.ended.board.Within S := by
  have hs := stages h
  have hasked : f.asked.board.Within S := World.within_beat (within_pruned hw) f.dt
  have hk := hs.asked_keyed hc
  have hpassed : f.passed.board.Within S := by
    rw [passed, Pass.run_eq hk ((Pass.run_fault_eq_none_iff hk).mp hs.pass), Progress.done_state]
    refine hasked.mapNodes (fun n hn => ?_) (Board.nodes_settle _ _)
    split
    · exact within_after hasked htargets hn
    · exact hn
  exact hpassed.of_eq (course h).nodes_ended

end Frame

/-- The id is that of a target that was added, or a request wrote it into a constant. -/
def Life.Named (deeds : List (Deed α)) (added : List (Target α)) (id : Int) : Prop :=
  id ∈ added.map (·.id) ∨ ∃ r, .request r ∈ deeds ∧ r.Writes id

/-- A name that was accounted for stays so as a life goes on. -/
theorem Life.Named.mono {deeds deeds' : List (Deed α)} {added added' : List (Target α)} {id : Int}
    (h : Named deeds added id) (hdeeds : deeds ⊆ deeds') (hadded : added ⊆ added') :
    Named deeds' added' id := by
  rcases h with h | ⟨r, hr, hid⟩
  · exact .inl (List.map_subset _ hadded h)
  · exact .inr ⟨r, hdeeds hr, hid⟩

/-! ### What is reported -/

/-- Where effects are carried out, effects and terrain are reported. -/
theorem World.mem_along [Scalar α] {es : List (Effect α)} {w : World α} {x : Event α}
    (hx : x ∈ Progress.along apply carrying es w) :
    (∃ e, x = .effect e) ∨ ∃ terrain source cell, x = .terrainPlaced terrain source cell := by
  induction es generalizing w with
  | nil => cases hx
  | cons e es ih =>
    rw [Progress.along, carrying] at hx
    rcases List.mem_append.mp hx with hx | hx
    · rcases List.mem_cons.mp hx with rfl | hx
      · exact .inl ⟨e, rfl⟩
      · obtain ⟨t, -, rfl⟩ := List.mem_map.mp hx
        exact .inr ⟨_, _, _, rfl⟩
    · exact ih hx

/-- No effect kills a target on the spot: the dead are told when they are buried. -/
theorem World.killed_along (es : List (Effect α)) [Scalar α] (w : World α) :
    (Progress.along apply carrying es w).filterMap Event.killed? = [] := by
  refine List.filterMap_eq_nil_iff.mpr fun x hx => ?_
  rcases mem_along hx with ⟨e, rfl⟩ | ⟨terrain, source, cell, rfl⟩
  · rfl
  · rfl

variable [Scalar α]

theorem World.killed_pulses (w : World α) (dt : α) :
    (w.pulses dt).filterMap Event.killed? = [] := by
  rw [pulses]
  split
  · rfl
  · refine List.filterMap_eq_nil_iff.mpr fun x hx => ?_
    rcases List.mem_append.mp hx with hx | hx
    · rw [delay] at hx
      split at hx
      · cases hx
      · obtain rfl := List.mem_singleton.mp hx
        rfl
    · obtain ⟨h, -, rfl⟩ := List.mem_map.mp hx
      rfl

/-- A frame reports those as killed whom it drops. -/
theorem Frame.killed_report (f : Frame α) :
    f.report.filterMap Event.killed? = f.dropped.map (·.id) := by
  have hlost : (f.lost.map World.destruction).filterMap Event.killed? = [] := by
    rw [List.filterMap_map]
    exact List.filterMap_eq_nil_iff.mpr fun _ _ => rfl
  simp only [report, List.filterMap_append, hlost, World.killed_pulses,
    World.filterMap_conclusion_killed, World.killed_along, World.filterMap_killed]
  simp [Event.killed?]

/-- A frame leaves only live targets behind. -/
theorem Frame.Course.alive_ended {f : Frame α} (h : f.Course) :
    ∀ t ∈ f.ended.board.targets.table.values, t.alive = true := by
  intro t ht
  rw [h.targets_ended, Targets.values_reap] at ht
  exact (List.mem_filter.mp ht).2

/-! ### Lives -/

namespace Life

variable {w : World α} {deeds : List (Deed α)} {added dropped : List (Target α)}
  {catalogue : Catalogue} {settings : Settings α} {draws : Draws α}

/-- What a life that began with nothing has reported of killed targets. -/
structure Tallied (dropped : List (Target α)) (w : World α) : Prop where
  killed : w.journal.filterMap (fun e => e.event.killed?) = dropped.map (·.id)
  kills : w.kills = dropped.length
  sink : w.sink = []

/-- **The journal and the count of kills agree with the targets that were dropped.** -/
theorem tallied (h : Life (.new catalogue settings draws) deeds added dropped w) :
    Tallied dropped w := by
  induction h with
  | start => exact ⟨rfl, rfl, rfl⟩
  | request _ r ih =>
    rw [World.perform_eq]
    exact ⟨ih.killed, ih.kills, ih.sink⟩
  | blow _ _ _ ih => exact ⟨ih.killed, ih.kills, ih.sink⟩
  | @frame deeds added dropped f h faultless ih =>
    have hr := Frame.reports faultless (h.consistent (.new catalogue settings)) ih.sink
    refine ⟨?_, ?_, (Frame.course faultless).sink_ended⟩
    · rw [hr.journal, List.filterMap_append, List.filterMap_map, List.map_append,
        ← f.killed_report, ← ih.killed]
      rfl
    · rw [hr.kills, f.killed_report, List.length_map, List.length_append, ← ih.kills]
      rfl

/-- Whom nodes name was added, or was named by a request. -/
theorem within (h : Life (.new catalogue settings draws) deeds added dropped w) :
    w.board.Within (Named deeds added) := by
  induction h with
  | start => exact fun n hn => absurd hn List.not_mem_nil
  | @request deeds added dropped w h r ih =>
    refine World.within_perform (ih.mono fun id hid => ?_) fun id hid => ?_
    · exact hid.mono (List.subset_cons_self _ _) (List.subset_append_left _ _)
    · exact .inr ⟨r, List.mem_cons_self, hid⟩
  | @blow deeds added dropped w h target amount ih =>
    have hmono : w.board.Within (Named (.blow target amount :: deeds) added) :=
      ih.mono fun id hid => hid.mono (List.subset_cons_self _ _) (List.Subset.refl _)
    exact hmono.of_eq rfl
  | @frame deeds added dropped f h faultless ih =>
    have hw := h.consistent (.new catalogue settings)
    refine Frame.within_ended faultless (ih.mono fun id hid => ?_) hw fun t ht => ?_
    · exact hid.mono (List.subset_cons_self _ _) (List.subset_append_left _ _)
    · -- whoever can be seen in this frame was added before it or by its beat
      obtain ⟨struck, ht₀, -⟩ := h.turnover (.new catalogue settings) .empty
      obtain ⟨struck', ht₁, -⟩ := Frame.turns_asked (Frame.course faultless) (ht₀.sound .empty)
      have hperm := (ht₀.trans ht₁).perm .empty
      obtain ⟨ht, -⟩ := List.mem_filter.mp ht
      have hmem : t.individual ∈ (added ++ f.spawned).map Target.individual :=
        hperm.mem_iff.mpr (List.mem_map_of_mem (List.mem_append_left _ ht))
      obtain ⟨u, hu, e⟩ := List.mem_map.mp hmem
      exact .inl (List.mem_map.mpr ⟨u, hu, congrArg (·.1) e⟩)

/-- **Nobody is lost, and nobody is mistaken for another.**  In every life of a new world, whatever
the draws are: the targets that were added have the ids one, two, three and so on; each of them
stands on the board or was reported as killed, not both, and was reported once; so there are as many
as were killed and stand there; behind a frame only live ones stand there; the entities in what
nodes hold are targets that were added, but for those that requests wrote into constants; and
however the life goes on, a target that cannot be found any more is never found again, and who is
found under its id is the same individual. -/
theorem census (h : Life (.new catalogue settings draws) deeds added dropped w) :
    added.map (·.id) = (List.range added.length).map (fun k : Nat => 1 + (k : Int)) ∧
    (w.board.targets.table.values.map (·.id) ++
      w.journal.filterMap fun e => e.event.killed?).Perm (added.map (·.id)) ∧
    w.kills + w.board.targets.table.size = added.length ∧
    (∀ dt earlier, deeds = .frame dt :: earlier →
      ∀ t ∈ w.board.targets.table.values, t.alive = true) ∧
    (∀ n ∈ w.board.nodes.values, ∀ v, n.state = .ok v → ∀ id ∈ v.refs, Named deeds added id) ∧
    ∀ {deeds' added' dropped' w'}, Life w deeds' added' dropped' w' → ∀ t ∈ added,
      (w.board.targets.get? t.id = none → w'.board.targets.get? t.id = none) ∧
      ∀ u, w'.board.targets.get? t.id = some u → u.individual = t.individual := by
  have htallied := h.tallied
  have hperm := h.perm_added
  have hids := hperm.map (·.1)
  obtain ⟨struck, ht, -⟩ := h.turnover (.new catalogue settings) .empty
  have hw := h.consistent (.new catalogue settings)
  refine ⟨h.ids_added, ?_, ?_, ?_, fun n hn v hv => (h.within n hn).1 v hv, ?_⟩
  · rw [htallied.killed, ← List.map_append]
    rw [List.map_map, List.map_map] at hids
    exact hids.symm
  · have hlength := hperm.length_eq
    simp only [List.length_map, List.length_append] at hlength
    rw [htallied.kills, ← Table.length_keys, Table.keys, List.length_map, hlength, Table.values,
      List.length_map, Nat.add_comm]
  · intro dt earlier e
    cases h with
    | frame h faultless => exact (Frame.course faultless).alive_ended
    | start => cases e
    | request => cases e
    | blow => cases e
  · intro deeds' added' dropped' w' h' t ht'
    obtain ⟨struck', hlater, -⟩ := h'.turnover hw (ht.sound .empty)
    refine ⟨hlater.get?_eq_none (ht.sound .empty) (ht.id_lt_nextId ht'), fun u hu => ?_⟩
    -- whoever is found later was added at some time, and no two that were added share an id
    have hall := ht.trans hlater
    obtain ⟨hu, hid, -⟩ := (hall.sound .empty).get?_eq_some_iff.mp hu
    have hmem : u.individual ∈ (added ++ added').map Target.individual :=
      (hall.perm .empty).mem_iff.mpr (List.mem_map_of_mem (List.mem_append_left _ hu))
    obtain ⟨x, hx, e⟩ := List.mem_map.mp hmem
    have hxid : x.id = t.id := (congrArg (·.1) e).trans hid
    rw [← e, List.inj_on_of_nodup_map hall.nodup_added hx (List.mem_append_left _ ht') hxid]

/-- The target that a node holds is shot in the next frame; a blow against it changes nothing. -/
theorem census_duel : ∃ deeds added,
    Life (.new .builtin Duel.settings .none) deeds added (Duel.aim.dropped ++ Duel.shot.dropped)
      (Duel.shot : Frame Float).ended ∧
    ((Duel.aim : Frame Float).ended.board.nodes.get? 2).bind (·.state.value?.map Value.refs) =
      some [1] ∧
    (Duel.shot : Frame Float).ended.journal.filterMap (fun e => e.event.killed?) = [1] ∧
    (Duel.shot : Frame Float).ended.kills +
      (Duel.shot : Frame Float).ended.board.targets.table.size = added.length ∧
    ∀ t ∈ added, (Duel.shot : Frame Float).ended.board.targets.get? t.id = none → ∀ amount,
      ((Duel.shot : Frame Float).ended.board.targets.damage 1 amount).get? t.id = none := by
  obtain ⟨deeds, added, h, -⟩ := Duel.life (α := Float)
  have haim := Life.frame (f := Duel.aim) h (by decide +kernel)
  have hshot := Life.frame (f := Duel.shot) haim (by decide +kernel)
  obtain ⟨-, -, hcount, -, -, hlater⟩ := census hshot
  exact ⟨_, _, hshot, by decide +kernel, by decide +kernel, hcount,
    fun t ht hn amount => (hlater (Life.start.blow 1 amount) t ht).1 hn⟩

end Life

end HexPulse
