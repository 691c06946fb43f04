import HexPulse.Proofs.World.Charging

/-!
# HexPulse — Proofs — World — Hearts

The hearts of a world as they come and go.  A heart whose health is used up is cleared at the start
of a frame, with every other one that is (`Frame.lost_eq`, `Frame.mem_hearts_pruned_iff`).

* `Board.Gone`: the heart of an id is gone.  It stays so, whatever is done to the board.
* `World.Spares`: a stage keeps every heart where it stands.  All stages behind the clearing do.
* `Frame.concerns_report`: what a frame reports of the heart of an id.
-/

namespace HexPulse

variable {α : Type}

/-- In a table that is keyed by ids, one entry has the id of an entry. -/
theorem Table.Keyed.filter_id {ν : Type} {id : ν → Int} {t : Table Int ν} (h : t.Keyed id) {v : ν}
    (hv : v ∈ t.values) {p : ν → Bool} (hp : p v = true) :
    (t.values.filter p).filter (fun u => id u = id v) = [v] := by
  have hnodup : t.values.Nodup := by
    have := h.nodup
    rw [h.keys_eq] at this
    exact this.of_map
  refine List.perm_singleton.mp ((List.perm_ext_iff_of_nodup ((hnodup.filter _).filter _)
    (List.nodup_singleton v)).mpr fun u => ?_)
  rw [List.mem_filter, List.mem_filter, decide_eq_true_eq, List.mem_singleton]
  constructor
  · rintro ⟨⟨hu, -⟩, hid⟩
    exact h.eq_of_id_eq hu hv hid
  · rintro rfl
    exact ⟨⟨hv, hp⟩, rfl⟩

namespace Board

variable {b c : Board α} {id : Int}

/-- A tile that is claimed adds no heart of itself. -/
theorem hearts_of_claim {cell : Hex} {tile : Int → Tile} (h : b.claim cell tile = .ok (id, c)) :
    c.hearts = b.hearts := by
  obtain ⟨-, -, rfl⟩ := claim_eq_ok h
  rfl

theorem hearts_of_placeTerrain {cell : Hex} {health : Option α} {t : Terrain α}
    (h : b.placeTerrain cell health = .ok (t, c)) : c.hearts = b.hearts := by
  obtain ⟨⟨i, d⟩, hclaim, h⟩ := exists_of_bind_eq_ok h
  obtain ⟨-, rfl⟩ := Prod.mk.inj (Except.ok.inj h)
  exact hearts_of_claim (c := d) hclaim

/-! ### Hearts that are gone -/

/-- The id was issued, and there is no heart of it. -/
structure Gone (b : Board α) (id : Int) : Prop where
  issued : id < b.nextId
  absent : b.hearts.get? id = none

theorem Gone.of_eq (h : b.Gone id) (hearts : c.hearts = b.hearts) (nextId : c.nextId = b.nextId) :
    c.Gone id := ⟨nextId ▸ h.issued, hearts ▸ h.absent⟩

/-- **No change brings a heart back.** -/
theorem Change.gone (hc : Change b c) (h : b.Gone id) : c.Gone id := by
  refine ⟨h.issued.trans_le hc.nextId_le, ?_⟩
  cases hc with
  | node n claimed position state =>
    obtain ⟨-, -, rfl⟩ := claim_eq_ok claimed
    exact h.absent
  | heart v claimed position =>
    have hne : id ≠ v.id := by
      rw [(claim_eq_ok claimed).2.1]
      exact h.issued.ne
    rw [Table.get?_insert_of_ne _ _ hne]
    exact h.absent
  | terrain t claimed position =>
    obtain ⟨-, -, rfl⟩ := claim_eq_ok claimed
    exact h.absent
  | clear cell =>
    rw [emptied]
    split
    · exact h.absent
    · next i _ =>
      by_cases e : id = i
      · rw [e]
        exact Table.get?_erase_self _ _
      · exact (Table.get?_erase_of_ne _ e).trans h.absent
    · exact h.absent
    · exact h.absent
  | wiring i f => exact h.absent
  | targets ts => exact h.absent
  | hearts t sites =>
    have hkeys := congrArg Table.keys sites
    rw [Table.keys_mapValues, Table.keys_mapValues] at hkeys
    rw [Table.get?_eq_none_iff, hkeys, ← Table.get?_eq_none_iff]
    exact h.absent

/-- Changes bring no heart back, however many they are. -/
theorem Changes.gone (hc : Changes b c) (h : b.Gone id) : c.Gone id :=
  hc.rec_of (P := (Gone · id)) Change.gone h

/-- A heart on the board has an id that was issued. -/
theorem Consistent.heart_lt_nextId (hb : b.Consistent) {v : Heart α} (hv : v ∈ b.hearts.values) :
    v.id < b.nextId := hb.issued _ _ _ (hb.hearts.tile_of_mem hv) rfl

/-- Clearing the cell of a heart. -/
theorem gone_emptied (hb : b.Consistent) {v : Heart α} (hv : v ∈ b.hearts.values) :
    (b.emptied v.position).Gone v.id := by
  have hissued := (hb.heart_lt_nextId hv).trans_le (Change.clear v.position).nextId_le
  refine ⟨hissued, Table.get?_eq_none_iff.mpr fun hmem => ?_⟩
  obtain ⟨u, hu, hid⟩ := (hb.emptied v.position).hearts.keyed.mem_keys_iff.mp hmem
  obtain ⟨hu, hposition⟩ := (mem_hearts_emptied hb).mp hu
  exact hposition (congrArg Heart.position (hb.hearts.keyed.eq_of_id_eq hu hv hid))

end Board

namespace World

open Board

/-! ### Hearts that stay -/

/-- From `w` to `w'` every heart stays where it stands, and the game is over if it was. -/
structure Spares (w w' : World α) : Prop where
  sites : w'.board.hearts.mapValues (fun v => (v.id, v.position)) =
    w.board.hearts.mapValues fun v => (v.id, v.position)
  gameOver : w'.gameOver = w.gameOver

namespace Spares

variable {w w₁ w₂ : World α}

theorem of_eq (hearts : w₁.board.hearts = w.board.hearts) (gameOver : w₁.gameOver = w.gameOver) :
    Spares w w₁ := ⟨by rw [hearts], gameOver⟩

theorem refl (w : World α) : Spares w w := of_eq rfl rfl

theorem trans (h : Spares w w₁) (h' : Spares w₁ w₂) : Spares w w₂ :=
  ⟨h'.sites.trans h.sites, h'.gameOver.trans h.gameOver⟩

/-- The heart behind the stage. -/
theorem exists_of_mem (h : Spares w w₁) {v : Heart α} (hv : v ∈ w.board.hearts.values) :
    ∃ u ∈ w₁.board.hearts.values, u.id = v.id ∧ u.position = v.position := by
  have hvalues := congrArg Table.values h.sites
  rw [Table.values_mapValues, Table.values_mapValues] at hvalues
  have hmem : (v.id, v.position) ∈ w.board.hearts.values.map fun v => (v.id, v.position) :=
    List.mem_map_of_mem hv
  rw [← hvalues] at hmem
  obtain ⟨u, hu, e⟩ := List.mem_map.mp hmem
  exact ⟨u, hu, Prod.mk.inj e⟩

end Spares

/-! ### Requests -/

variable [Scalar α] {w : World α} {v : Heart α}

/-- A request leaves a heart as it is, unless it clears the cell. -/
theorem mem_hearts_perform (hw : w.board.Consistent) (hv : v ∈ w.board.hearts.values)
    {r : Request α} (hr : r ≠ .clearCell v.position) :
    v ∈ (w.perform r).board.hearts.values := by
  let P (b : Board α) : Prop := v ∈ b.hearts.values
  cases r with
  | placeNode cell kind =>
    refine edited_map_rec (P := P) hv fun n c h => ?_
    obtain ⟨_, -, h⟩ := exists_of_bind_eq_ok h
    obtain ⟨⟨i, d⟩, hd, h⟩ := exists_of_bind_eq_ok h
    obtain ⟨-, rfl⟩ := Prod.mk.inj (Except.ok.inj h)
    exact (hearts_of_claim (of_mapError_eq_ok hd)).symm ▸ hv
  | removeNode i =>
    refine edited_map_rec (P := P) hv fun n c h => ?_
    rw [eq_emptied_of_removeNode h]
    obtain ⟨m, hm, h⟩ := exists_of_bind_eq_ok h
    obtain ⟨_, -, h⟩ := exists_of_bind_eq_ok h
    obtain ⟨rfl, -⟩ := Prod.mk.inj (Except.ok.inj h)
    -- a node and a heart stand on different cells
    have htile := hw.nodes.tile_of_mem (Table.mem_values_of_get? (get?_of_node_eq_ok hm))
    refine (mem_hearts_emptied hw).mpr ⟨hv, fun e => ?_⟩
    rw [← e, hw.hearts.tile_of_mem hv] at htile
    cases htile
  | clearCell cell =>
    refine edited_map_rec (P := P) hv fun t c h => ?_
    rw [eq_emptied_of_clearCell h]
    exact (mem_hearts_emptied hw).mpr ⟨hv, fun e => hr (congrArg Request.clearCell e.symm)⟩
  | placeHeart cell =>
    refine edited_map_rec (P := P) hv fun u c h => ?_
    obtain ⟨⟨i, d⟩, hd, h⟩ := exists_of_bind_eq_ok h
    obtain ⟨-, rfl⟩ := Prod.mk.inj (Except.ok.inj h)
    obtain ⟨-, rfl, -⟩ := claim_eq_ok hd
    have hnew := Table.get?_eq_none_iff.mp (hw.get?_nextId hw.hearts fun _ => rfl)
    change v ∈ (w.board.hearts.insert w.board.nextId _).values
    rw [Table.values_insert_of_notMem hnew]
    exact List.mem_append_left _ hv
  | placeTerrain cell health =>
    refine edited_map_rec (P := P) hv fun t c h => ?_
    change v ∈ c.hearts.values
    rw [hearts_of_placeTerrain h]
    exact hv
  | bind i direction port =>
    refine edited_rec (P := P) hv fun c h => ?_
    obtain ⟨i, f, rfl⟩ := exists_updateNode_of_bind h
    exact hv
  | unbind i direction =>
    refine edited_rec (P := P) hv fun c h => ?_
    obtain ⟨i, f, rfl⟩ := exists_updateNode_of_unbind h
    exact hv
  | setConstant i value =>
    refine edited_rec (P := P) hv fun c h => ?_
    obtain ⟨i, f, rfl⟩ := exists_updateNode_of_setConstant h
    exact hv
  | addTarget cell health path =>
    rw [perform]
    split
    · next h =>
      obtain ⟨_, -, h⟩ := exists_of_bind_eq_ok h
      obtain ⟨-, rfl⟩ := Prod.mk.inj (Except.ok.inj h)
      exact hv
    · exact hv

/-- The request that clears the cell of a heart is granted. -/
theorem gone_perform (hw : w.board.Consistent) (hv : v ∈ w.board.hearts.values) :
    (w.perform (.clearCell v.position)).board.Gone v.id := by
  have hclear : w.board.clearCell v.position = .ok (.heart v.id, w.board.emptied v.position) := by
    rw [clearCell, tile?, hw.hearts.tile_of_mem hv]
  rw [perform, hclear]
  exact gone_emptied hw hv

/-- **Between two frames** a heart stays as it is, or its cell is cleared and it is gone. -/
theorem hearts_performs (hw : w.board.Consistent) (hv : v ∈ w.board.hearts.values)
    (rs : List (Request α)) :
    (.clearCell v.position ∉ rs → v ∈ (rs.foldl perform w).board.hearts.values) ∧
      (.clearCell v.position ∈ rs → (rs.foldl perform w).board.Gone v.id) := by
  have hgone {w : World α} (rs : List (Request α)) (h : w.board.Gone v.id) :
      (rs.foldl perform w).board.Gone v.id := by
    induction rs generalizing w with
    | nil => exact h
    | cons r rs ih => exact ih ((World.aside_perform w r).board.gone h)
  induction rs generalizing w with
  | nil => exact ⟨fun _ => hv, fun h => absurd h List.not_mem_nil⟩
  | cons r rs ih =>
    by_cases hr : r = .clearCell v.position
    · subst hr
      exact ⟨fun h => absurd List.mem_cons_self h, fun _ => hgone rs (gone_perform hw hv)⟩
    · obtain ⟨hstays, hcleared⟩ := ih ((World.aside_perform w r).board.consistent hw)
        (mem_hearts_perform hw hv hr)
      refine ⟨fun h => hstays fun hmem => h (List.mem_cons_of_mem _ hmem), fun h => ?_⟩
      exact hcleared ((List.mem_cons.mp h).resolve_left (Ne.symm hr))

/-! ### Stages -/

/-- The world after the targets walked and hurt hearts. -/
def harmed (w : World α) (dt : α) : World α :=
  ((w.withTargets (w.board.targets.follow w.board.layout dt).state).contact dt).state

namespace Spares

/-- Hearts stay where they are while their timers go on. -/
theorem advanced (w : World α) (dt : α) : Spares w (w.advanced dt) := by
  refine ⟨?_, rfl⟩
  rw [World.advanced]
  dsimp only
  rw [Table.mapValues_mapValues, Table.mapValues_mapValues]
  exact Table.mapValues_congr fun v _ => site_advance _ dt v

/-- Hearts that beat stay, and the game goes on. -/
theorem beat (w : World α) (dt : α) : Spares w (w.beat dt).state := by
  have hcalling : Spares (w.advanced dt) (w.calling dt) := by
    rw [calling]
    split
    · exact .of_eq rfl rfl
    · exact .of_eq rfl rfl
  rw [beat_eq]
  split
  · exact advanced w dt
  · refine (advanced w dt).trans (hcalling.trans ?_)
    exact Progress.fold_rel (R := Spares) .refl .trans (fun _ _ => .of_eq rfl rfl) _ _

theorem activate {w : World α} (h : w.activate.fault = none) : Spares w w.activate.state := by
  rw [activate_state h]
  refine .of_eq ?_ rfl
  rw [(Fired.run w.board w.sink).rest]

theorem apply (w : World α) (e : Effect α) : Spares w (w.apply e).state := by
  by_cases he : ∃ cell source, e = .terrain cell source
  · obtain ⟨cell, source, rfl⟩ := he
    change Spares w ((w.emit _).project cell source)
    rw [project]
    split
    · exact .of_eq rfl rfl
    · next h => exact .of_eq (hearts_of_placeTerrain h) rfl
  · obtain ⟨ts, inFlight, dealt, happly⟩ :=
      apply_state (w := w) fun cell source h => he ⟨cell, source, h⟩
    rw [happly]
    exact .of_eq rfl rfl

theorem applyAll (w : World α) : Spares w w.applyAll.state := by
  have h : Spares { w with sink := [] } w.applyAll.state :=
    Progress.fold_rel (R := Spares) .refl .trans apply _ _
  exact ⟨h.sites, h.gameOver⟩

/-- What is in flight passes the hearts by. -/
theorem fly (w : World α) (dt : α) : Spares w (w.fly dt).state := by
  obtain ⟨ts, inFlight, dealt, hfly⟩ := w.fly_state dt
  rw [hfly]
  exact .of_eq rfl rfl

/-- A heart that is bitten stays until the next frame reaps it. -/
theorem contact (w : World α) (dt : α) : Spares w (w.contact dt).state := by
  refine ⟨congrArg Table.mk (Progress.map_each (fun e => ?_) _), rfl⟩
  cases h : touch w.board (w.settings.heart.contactDamage * dt) e.2 with
  | error f => rfl
  | ok v => exact congrArg (e.1, ·) (touch_site h)

theorem harmed (w : World α) (dt : α) : Spares w (w.harmed dt) := by
  have hfollow : Spares w (w.withTargets (w.board.targets.follow w.board.layout dt).state) :=
    .of_eq rfl rfl
  exact hfollow.trans (contact _ dt)

theorem regenerate (w : World α) (dt : α) : Spares w (w.regenerate dt) := by
  rw [World.regenerate]
  split
  split
  · refine ⟨?_, rfl⟩
    rw [Table.mapValues_mapValues]
    refine Table.mapValues_congr fun v _ => ?_
    rw [Heart.heal]
    split <;> rfl
  · exact .of_eq rfl rfl

theorem bury (w : World α) : Spares w w.bury := by
  rw [World.bury, emitAll_eq]
  exact .of_eq rfl rfl

end Spares

/-- Regeneration passes by the hearts that do not live. -/
theorem mem_hearts_regenerate (hv : v ∈ w.board.hearts.values) (hdead : v.alive = false) (dt : α) :
    v ∈ (w.regenerate dt).board.hearts.values := by
  rw [regenerate]
  split
  split
  · change v ∈ (w.board.hearts.mapValues _).values
    rw [Table.values_mapValues]
    refine List.mem_map.mpr ⟨v, hv, ?_⟩
    rw [Heart.heal, hdead, if_neg Bool.false_ne_true]
  · exact hv

end World

/-! ### Reports -/

/-- The event tells that the heart of the id is gone, or that it beats. -/
def Event.concerns (id : Int) : Event α → Bool
  | .heartDestroyed heart _ => heart = id
  | .heartbeat heart .. => heart = id
  | _ => false

namespace World

variable [Scalar α]

/-- Effects are no tidings of hearts. -/
theorem concerns_along (id : Int) (es : List (Effect α)) (w : World α) :
    (Progress.along apply carrying es w).filter (Event.concerns id) = [] := by
  refine List.filter_eq_nil_iff.mpr fun x hx => ?_
  rcases mem_along hx with ⟨e, rfl⟩ | ⟨terrain, source, cell, rfl⟩
  · exact Bool.false_ne_true
  · exact Bool.false_ne_true

/-- Of a heart is reported that it beats, if it does. -/
theorem concerns_pulses (id : Int) (w : World α) (dt : α) :
    (w.pulses dt).filter (Event.concerns id) =
      ((w.beating dt).filter (fun v => v.id = id)).map (heartbeat w.board.requestCount) := by
  have hdelay : (delay w.board).filter (Event.concerns id) = [] := by
    rw [delay]
    split <;> rfl
  rw [pulses]
  split
  · next h =>
    rw [List.isEmpty_iff.mp h]
    rfl
  · rw [List.filter_append, hdelay, List.nil_append, List.filter_map]
    rfl

/-- A heart that is gone does not beat. -/
theorem beating_of_gone {w : World α} (hw : w.board.Consistent) {id : Int} (h : w.board.Gone id)
    (dt : α) : (w.beating dt).filter (fun v => v.id = id) = [] := by
  rw [List.filter_eq_nil_iff]
  intro u hu
  rw [decide_eq_true_eq]
  rintro rfl
  obtain ⟨x, hx, rfl⟩ := List.mem_map.mp hu
  obtain ⟨v, hv, rfl⟩ := List.mem_map.mp (List.mem_of_mem_filter hx)
  have hid : (v.advance w.settings.heart dt).1.id = v.id := congrArg Prod.fst (site_advance _ dt v)
  refine Table.get?_eq_none_iff.mp h.absent ?_
  exact hid ▸ hw.hearts.keyed.mem_keys_iff.mpr ⟨v, hv, rfl⟩

end World

/-! ### Frames -/

namespace Frame

open Board

variable [Scalar α] {f : Frame α} {v : Heart α} {id : Int}

/-- What a report says of a heart: its destruction if it was lost, its beat if it beat. -/
theorem concerns_report (f : Frame α) (id : Int) : f.report.filter (Event.concerns id) =
    (f.lost.filter (fun v => v.id = id)).map World.destruction ++
      ((f.pruned.beating f.dt).filter (fun v => v.id = id)).map
        (World.heartbeat f.pruned.board.requestCount) := by
  have hlost : (f.lost.map World.destruction).filter (Event.concerns id) =
      (f.lost.filter (fun v => v.id = id)).map World.destruction := by
    rw [List.filter_map]
    rfl
  have hfired : (f.fired.filterMap (World.conclusion f.ended.board)).filter (Event.concerns id) =
      [] := by
    rw [List.filter_eq_nil_iff]
    intro x hx
    obtain ⟨i, -, hi⟩ := List.mem_filterMap.mp hx
    obtain ⟨n, -, rfl⟩ := Option.map_eq_some_iff.mp hi
    exact Bool.false_ne_true
  have hkilled : (f.dropped.map fun t => Event.targetKilled (α := α) t.id).filter
      (Event.concerns id) = [] := by
    rw [List.filter_map]
    exact List.map_eq_nil_iff.mpr (List.filter_eq_nil_iff.mpr fun _ _ => Bool.false_ne_true)
  have hframe : [Event.frame f.ended.status].filter (Event.concerns id) = [] := rfl
  -- of the six parts of a report only the first two speak of hearts
  simp only [report, List.filter_append, hlost, World.concerns_pulses, hfired,
    World.concerns_along, hkilled, hframe, List.append_nil]

/-! #### The clearing -/

/-- The hearts that are lost are those that are used up. -/
theorem lost_eq (hw : f.world.board.Consistent) :
    f.lost = f.world.board.hearts.values.filter fun v => v.health ≤ (0.0 : α) := by
  rw [lost, hearts_pruned, ← hearts_reapDead hw]
  rfl

/-- The hearts that are left to beat are those whose health is not at or below zero. -/
theorem mem_hearts_pruned_iff (hw : f.world.board.Consistent) : v ∈ f.pruned.board.hearts.values ↔
    v ∈ f.world.board.hearts.values ∧ ¬ v.health ≤ (0.0 : α) := by
  rw [hearts_pruned]
  exact mem_hearts_reapDead hw

namespace Stages

theorem gone_pruned (h : f.Stages) (hid : f.world.board.Gone id) : f.pruned.board.Gone id :=
  h.pruned_rec (P := (Gone · id)) Change.gone (fun _ hb => hb.of_eq rfl rfl) hid

/-- **A heart that is used up is cleared at the start of the frame.** -/
theorem gone_of_dead (h : f.Stages) (hw : f.world.board.Consistent)
    (hv : v ∈ f.world.board.hearts.values) (hdead : v.health ≤ (0.0 : α)) :
    f.pruned.board.Gone v.id := by
  refine ⟨(hw.heart_lt_nextId hv).trans_le h.nextId_le_pruned, ?_⟩
  rw [Table.get?_eq_none_iff, (h.pruned_consistent hw).hearts.keyed.mem_keys_iff]
  rintro ⟨u, hu, hid⟩
  obtain ⟨hu, hlives⟩ := (mem_hearts_pruned_iff hw).mp hu
  exact hlives (hw.hearts.keyed.eq_of_id_eq hu hv hid ▸ hdead)

/-- Behind the pruning no heart comes back either. -/
theorem gone_ended (h : f.Stages) (hid : f.pruned.board.Gone id) : f.ended.board.Gone id := by
  have hasked : f.asked.board.Gone id :=
    h.asked_rec (P := (Gone · id)) Change.gone (fun _ hb => hb.of_eq rfl rfl) hid
  refine h.ended_rec (P := (Gone · id)) Change.gone (fun hfired hb => ?_) hasked
  rw [hfired.rest]
  exact hb.of_eq rfl rfl

end Stages

/-! #### Behind the clearing -/

/-- The world after the targets hurt the hearts, before these regenerate. -/
def hurt (f : Frame α) : World α := f.flown.harmed f.dt

namespace Course

/-- **Behind the clearing no heart comes or goes.** -/
theorem spares (h : f.Course) : World.Spares f.pruned f.ended := by
  have hasked : World.Spares f.pruned f.asked := .beat f.pruned f.dt
  have hactivated : World.Spares f.asked f.activated := .activate h.activate
  have hcarried : World.Spares f.activated f.carried := .applyAll f.activated
  have hflown : World.Spares f.carried f.flown := .fly f.carried f.dt
  have hhurt : World.Spares f.flown f.hurt := .harmed f.flown f.dt
  have hwalked : World.Spares f.hurt f.walked := .regenerate f.hurt f.dt
  have hended : World.Spares f.walked f.ended := by
    rw [h.ended]
    exact (World.Spares.bury f.walked).trans (.of_eq rfl rfl)
  exact hasked.trans (hactivated.trans (hcarried.trans (hflown.trans (hhurt.trans
    (hwalked.trans hended)))))

/-- **A heart that does not survive the targets is not healed.** -/
theorem mem_hearts_ended (h : f.Course) (hv : v ∈ f.hurt.board.hearts.values)
    (hdead : v.alive = false) : v ∈ f.ended.board.hearts.values := by
  have hwalked : v ∈ f.walked.board.hearts.values := World.mem_hearts_regenerate hv hdead f.dt
  rw [h.ended, World.bury, World.emitAll_eq]
  exact hwalked

end Course

end Frame

end HexPulse
