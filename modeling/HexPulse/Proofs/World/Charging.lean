import HexPulse.Proofs.Board.Reachable
import HexPulse.Proofs.Evaluation.Charging
import HexPulse.Proofs.World.Census

/-!
# HexPulse — Proofs — World — Charging

The charges of nodes in a run.  A node keeps its kind and its charge from its placement on, whatever
is done to the board, except where it fires (`Board.Inherits`, `World.inherits_perform`,
`Frame.inherits_asked`).

* `Run.charging`: so what happens to a plasma node in a run is a `Charging`, with the evaluations of
  the frames in which it fires.
* `Charging.accounts`: its evaluations are in balance with its charge.
-/

namespace HexPulse

variable {α : Type}

namespace Board

/-- Every node of `c` comes from one of `b`, with its kind and its charge. -/
def Inherits (b c : Board α) : Prop := ∀ id n, c.nodes.get? id = some n →
  ∃ m, b.nodes.get? id = some m ∧ n.kind = m.kind ∧ n.charge = m.charge

namespace Inherits

variable {b c d : Board α}

theorem of_nodes (h : c.nodes = b.nodes) : Inherits b c := fun _ n hn => ⟨n, h ▸ hn, rfl, rfl⟩

theorem trans (h : Inherits b c) (h' : Inherits c d) : Inherits b d := by
  intro id n hn
  obtain ⟨m, hm, hkind, hcharge⟩ := h' id n hn
  obtain ⟨k, hk, hkind', hcharge'⟩ := h id m hm
  exact ⟨k, hk, hkind.trans hkind', hcharge.trans hcharge'⟩

/-- Nodes that are rewritten inherit if the rewriting touches neither kind nor charge. -/
theorem mapNodes {f : Node α → Node α} (hf : ∀ n, (f n).kind = n.kind ∧ (f n).charge = n.charge)
    (nodes : c.nodes = b.nodes.mapValues f) : Inherits b c := by
  intro id n hn
  rw [nodes, Table.get?_mapValues] at hn
  obtain ⟨m, hm, rfl⟩ := Option.map_eq_some_iff.mp hn
  exact ⟨m, hm, hf m⟩

/-- Clearing a cell takes a node away at most. -/
theorem emptied (b : Board α) (cell : Hex) : Inherits b (b.emptied cell) := by
  rw [Board.emptied]
  split
  · next i _ =>
    intro id n hn
    by_cases e : id = i
    · rw [e, Table.get?_erase_self] at hn
      cases hn
    · exact ⟨n, by rwa [Table.get?_erase_of_ne _ e] at hn, rfl, rfl⟩
  · exact of_nodes rfl
  · exact of_nodes rfl
  · exact of_nodes rfl

theorem foldl_emptied (b : Board α) (cells : List Hex) :
    Inherits b (cells.foldl Board.emptied b) :=
  List.foldlRecOn cells _ (of_nodes rfl) fun c hc cell _ => hc.trans (emptied c cell)

end Inherits

variable {b c : Board α}

/-- After a change, a node whose id is not new was there before. -/
theorem Change.inherits (hc : Change b c) {id : Int} (hid : id ≠ b.nextId) {n : Node α}
    (hn : c.nodes.get? id = some n) :
    ∃ m, b.nodes.get? id = some m ∧ n.kind = m.kind ∧ n.charge = m.charge := by
  cases hc with
  | node n' claimed position state =>
    rw [← (claim_eq_ok claimed).2.1] at hid
    rw [Table.get?_insert_of_ne _ _ hid] at hn
    exact ⟨n, hn, rfl, rfl⟩
  | heart h claimed position =>
    obtain ⟨-, -, rfl⟩ := claim_eq_ok claimed
    exact ⟨n, hn, rfl, rfl⟩
  | terrain t claimed position =>
    obtain ⟨-, -, rfl⟩ := claim_eq_ok claimed
    exact ⟨n, hn, rfl, rfl⟩
  | clear cell => exact Inherits.emptied b cell id n hn
  | wiring i f =>
    by_cases e : id = i
    · subst e
      rw [updateNode, Table.get?_modify_self] at hn
      obtain ⟨m, hm, rfl⟩ := Option.map_eq_some_iff.mp hn
      exact ⟨m, hm, rfl, rfl⟩
    · rw [updateNode, Table.get?_modify_of_ne _ _ e] at hn
      exact ⟨n, hn, rfl, rfl⟩
  | targets ts => exact ⟨n, hn, rfl, rfl⟩
  | hearts t sites => exact ⟨n, hn, rfl, rfl⟩

/-- A change that wires a node where it stands. -/
theorem Inherits.wired (hb : b.Consistent) (hc : Change b c)
    (hnodes : ∃ i f, c = b.updateNode i f) : Inherits b c := by
  intro id n hn
  refine hc.inherits (fun e => ?_) hn
  -- no node has the next id, before the change and after it
  obtain ⟨i, f, rfl⟩ := hnodes
  have hnone := hb.get?_nextId hb.nodes fun _ => rfl
  rw [Table.get?_eq_none_iff, ← e, ← Table.keys_modify _ i f, ← Table.get?_eq_none_iff] at hnone
  cases hnone.symm.trans hn

/-- A node that is placed has the next id, and is added behind the others. -/
theorem placeNode_new {cell : Hex} {kind : String} {n : Node α}
    (h : b.placeNode cell kind = .ok (n, c)) :
    n.id = b.nextId ∧ c.nodes = b.nodes.insert n.id n := by
  obtain ⟨_, -, h⟩ := exists_of_bind_eq_ok h
  obtain ⟨⟨i, _⟩, hclaim, h⟩ := exists_of_bind_eq_ok h
  obtain ⟨rfl, rfl⟩ := Prod.mk.inj (Except.ok.inj h)
  exact ⟨(claim_eq_ok (of_mapError_eq_ok hclaim)).2.1, rfl⟩

/-! ### Ids -/

/-- No change takes an id back. -/
theorem Change.nextId_le (hc : Change b c) : b.nextId ≤ c.nextId := by
  cases hc with
  | node n claimed position state =>
    obtain ⟨-, -, rfl⟩ := claim_eq_ok claimed
    exact Int.le_add_one (le_refl _)
  | heart h claimed position =>
    obtain ⟨-, -, rfl⟩ := claim_eq_ok claimed
    exact Int.le_add_one (le_refl _)
  | terrain t claimed position =>
    obtain ⟨-, -, rfl⟩ := claim_eq_ok claimed
    exact Int.le_add_one (le_refl _)
  | clear cell =>
    rw [Board.emptied]
    split <;> exact le_refl _
  | wiring i f => exact le_refl _
  | targets ts => exact le_refl _
  | hearts t sites => exact le_refl _

/-- What every change keeps, any number of them keeps. -/
theorem Changes.rec_of {P : Board α → Prop} (change : ∀ {b c}, Change b c → P b → P c)
    (hc : Changes b c) (hb : P b) : P c := by
  induction hc with
  | refl => exact hb
  | tail _ hc ih => exact change hc ih

theorem Changes.nextId_le (hc : Changes b c) : b.nextId ≤ c.nextId :=
  hc.rec_of (P := (b.nextId ≤ ·.nextId)) (fun h hb => hb.trans h.nextId_le) le_rfl

end Board

namespace World

open Board

variable [Scalar α]

/-- **After a request a node is as charged as before it**, unless the request has placed it. -/
theorem inherits_perform {w : World α} (hw : w.board.Consistent) (r : Request α) {id : Int}
    {n : Node α} (hn : (w.perform r).board.nodes.get? id = some n) :
    (∃ m, w.board.nodes.get? id = some m ∧ n.kind = m.kind ∧ n.charge = m.charge) ∨
      id = w.board.nextId ∧ ∃ cell kind c, w.board.placeNode cell kind = .ok (n, c) := by
  have hrefl : Inherits w.board w.board := .of_nodes rfl
  cases r with
  | placeNode cell kind =>
    rw [perform] at hn
    cases h : w.board.placeNode cell kind with
    | error _ =>
      rw [h] at hn
      exact .inl (hrefl id n hn)
    | ok p =>
      rw [h] at hn
      obtain ⟨hid, hnodes⟩ := placeNode_new h
      change p.2.nodes.get? id = some n at hn
      rw [hnodes] at hn
      -- the new node stands under the next id, and every other id has the node that it had
      by_cases e : id = p.1.id
      · rw [e, Table.get?_insert_self] at hn
        obtain rfl := Option.some.inj hn
        exact .inr ⟨e.trans hid, cell, kind, p.2, h⟩
      · rw [Table.get?_insert_of_ne _ _ e] at hn
        exact .inl ⟨n, hn, rfl, rfl⟩
  | removeNode i =>
    refine .inl (edited_map_rec (P := Inherits w.board) hrefl (fun _ c h => ?_) id n hn)
    rw [eq_emptied_of_removeNode h]
    exact .emptied _ _
  | clearCell cell =>
    refine .inl (edited_map_rec (P := Inherits w.board) hrefl (fun _ c h => ?_) id n hn)
    rw [eq_emptied_of_clearCell h]
    exact .emptied _ _
  | placeHeart cell =>
    exact .inl (edited_map_rec (P := Inherits w.board) hrefl
      (fun _ c h => .of_nodes (rest_of_placeHeart h).1) id n hn)
  | placeTerrain cell health =>
    exact .inl (edited_map_rec (P := Inherits w.board) hrefl
      (fun _ c h => .of_nodes (rest_of_placeTerrain h).1) id n hn)
  | bind i direction port =>
    exact .inl (edited_rec (P := Inherits w.board) hrefl
      (fun c h => .wired hw (.bind h) (exists_updateNode_of_bind h)) id n hn)
  | unbind i direction =>
    exact .inl (edited_rec (P := Inherits w.board) hrefl
      (fun c h => .wired hw (.unbind h) (exists_updateNode_of_unbind h)) id n hn)
  | setConstant i value =>
    exact .inl (edited_rec (P := Inherits w.board) hrefl
      (fun c h => .wired hw (.setConstant h) (exists_updateNode_of_setConstant h)) id n hn)
  | addTarget cell health path =>
    rw [perform] at hn
    split at hn
    · next h =>
      obtain ⟨_, -, h⟩ := exists_of_bind_eq_ok h
      obtain ⟨-, rfl⟩ := Prod.mk.inj (Except.ok.inj h)
      exact .inl (hrefl id n hn)
    · exact .inl (hrefl id n hn)

/-- Nodes are asked with the charge that they have. -/
theorem inherits_beat (w : World α) (dt : α) : Inherits w.board (w.beat dt).state.board := by
  rw [beat_eq]
  split
  · exact .of_nodes rfl
  · have hcalling : Inherits w.board (w.calling dt).board := by
      rw [calling]
      refine .mapNodes (f := requestNode) (fun n => ?_) ?_
      · rw [requestNode]
        split <;> exact ⟨rfl, rfl⟩
      · split <;> rfl
    exact hcalling.trans (.of_nodes (nodes_pulses _ _ _))

end World

/-! ### Frames -/

namespace Frame

open Board

variable [Scalar α] {f : Frame α}

/-- Pruning silences nodes, and leaves them their charge. -/
theorem inherits_pruned (f : Frame α) : Inherits f.world.board f.pruned.board := by
  have hreap : Inherits f.world.board (f.world.tick f.dt).reap.board := by
    rw [World.reap, World.emitAll_eq]
    exact .foldl_emptied f.world.board _
  rw [pruned, World.prune]
  split
  · refine hreap.trans (.mapNodes (f := pruneNode _) (fun n => ?_) rfl)
    rw [pruneNode]
    split
    · split <;> exact ⟨rfl, rfl⟩
    · exact ⟨rfl, rfl⟩
  · exact hreap

/-- Up to the pass no charge changes. -/
theorem inherits_asked (f : Frame α) : Inherits f.world.board f.asked.board :=
  f.inherits_pruned.trans (World.inherits_beat f.pruned f.dt)

namespace Stages

section Rec

variable {P : Board α → Prop} (change : ∀ {b c : Board α}, Change b c → P b → P c)
include change

/-- What changes and prunings keep holds when the hearts are to beat. -/
theorem pruned_rec (h : f.Stages) (prune : ∀ b, P b → P b.prune.board) (hw : P f.world.board) :
    P f.pruned.board := by
  have hreap := h.reap.rec_of change hw
  rw [pruned, World.prune]
  split
  · exact prune _ hreap
  · exact hreap

/-- What changes and requests keep holds from there to the pass. -/
theorem asked_rec (h : f.Stages) (request : ∀ b, P b → P b.request) (hp : P f.pruned.board) :
    P f.asked.board := by
  obtain ⟨c, hc, -, hbeat⟩ := h.beat
  refine hbeat.rec_of change ?_
  split
  · exact request c (change hc hp)
  · exact change hc hp

/-- What changes and passes keep holds from there to the end. -/
theorem ended_rec (h : f.Stages) (fired : ∀ {b c}, Fired b c → P b → P c)
    (ha : P f.asked.board) : P f.ended.board := by
  have hfired : Fired f.asked.board f.passed.board := by
    rw [passed]
    exact .run f.asked.board f.asked.sink
  exact h.rest.rec_of change (fired hfired ha)

end Rec

/-- No id is taken back before the beat. -/
theorem nextId_le_pruned (h : f.Stages) : f.world.board.nextId ≤ f.pruned.board.nextId :=
  h.pruned_rec (P := (f.world.board.nextId ≤ ·.nextId)) (fun hc hb => hb.trans hc.nextId_le)
    (fun _ hb => hb) le_rfl

/-- No id is taken back behind the beat. -/
theorem nextId_asked_le (h : f.Stages) : f.asked.board.nextId ≤ f.ended.board.nextId := by
  refine h.ended_rec (P := (f.asked.board.nextId ≤ ·.nextId))
    (fun hc hb => hb.trans hc.nextId_le) (fun hfired hb => ?_) le_rfl
  rw [hfired.rest]
  exact hb

theorem nextId_le (h : f.Stages) : f.world.board.nextId ≤ f.ended.board.nextId := by
  have hasked : f.pruned.board.nextId ≤ f.asked.board.nextId :=
    h.asked_rec (P := (f.pruned.board.nextId ≤ ·.nextId)) (fun hc hb => hb.trans hc.nextId_le)
      (fun _ hb => hb) le_rfl
  exact h.nextId_le_pruned.trans (hasked.trans h.nextId_asked_le)

/-- A node that fires has an id that was issued. -/
theorem lt_nextId_of_fired (h : f.Stages) (hw : f.world.board.Consistent) {id : Int}
    (hid : id ∈ f.fired) : id < f.ended.board.nextId := by
  obtain ⟨n, hn, -⟩ := h.ready_of_mem hw hid
  have hc := h.asked_consistent hw
  have htile := hc.nodes.tile_of_mem (Table.mem_values_of_get? hn)
  rw [hc.nodes.keyed.id_of_get? hn] at htile
  exact (hc.issued _ _ _ htile rfl).trans_le h.nextId_asked_le

end Stages

end Frame

/-! ### Runs -/

variable [Scalar α]

/-- The evaluation of the node of an id in a frame, if the node fires in it. -/
def Frame.evaluation? (f : Frame α) (id : Int) : Option (Evaluation α) :=
  if id ∈ f.fired then (f.asked.board.nodes.get? id).map f.asked.board.evaluate else none

/-- The evaluations of the node of an id in some frames. -/
def evaluations (frames : List (Frame α)) (id : Int) : List (Evaluation α) :=
  frames.filterMap (·.evaluation? id)

namespace Frame

open Board

/-- The board on which the ready nodes are told comes from an empty one. -/
theorem reachable_asked {catalogue : Catalogue} {settings : Settings α} {f : Frame α}
    (hw : f.world.board.Reachable catalogue settings) :
    f.asked.board.Reachable catalogue settings :=
  World.onward_beat _ f.dt (World.onward_prune _ (World.onward_reap (f.world.tick f.dt) hw))

/-- **In a frame a plasma node is evaluated once or not at all.** -/
theorem charging_step {f : Frame α} (h : (f.world.step f.dt).fault = none) {catalogue : Catalogue}
    {settings : Settings α} (hw : f.world.board.Reachable catalogue settings) {id : Int}
    {n : Node α} (hn : f.ended.board.nodes.get? id = some n) :
    ∃ m, f.world.board.nodes.get? id = some m ∧ n.kind = m.kind ∧
      ∀ es, Charging settings.weapons.plasmaMaxThreshold m es →
        Charging settings.weapons.plasmaMaxThreshold n ((f.evaluation? id).toList ++ es) := by
  have hs := stages h
  have hk := hs.asked_keyed hw.consistent
  have hpass := hs.alone hw.consistent
  have hsettings : f.asked.board.settings = settings := (reachable_asked hw).fixed.1
  rw [(course h).nodes_ended] at hn
  -- the node went into the pass, with the kind and the charge that it had before the frame
  obtain ⟨k, hk'⟩ : ∃ k, f.asked.board.nodes.get? id = some k := by
    rw [← Option.ne_none_iff_exists', ne_eq, Table.get?_eq_none_iff, ← hpass.keys,
      ← Table.get?_eq_none_iff, hn]
    exact nofun
  obtain ⟨m, hm, hkind, hcharge⟩ := f.inherits_asked id k hk'
  obtain ⟨hv, rfl⟩ := hk.get?_eq_some_iff.mp hk'
  rw [evaluation?, hs.fired]
  by_cases hr : f.asked.board.Ready k
  · obtain rfl := Option.some.inj ((hpass.ready k hv hr).symm.trans hn)
    refine ⟨m, hm, hkind, fun es hes => ?_⟩
    rw [if_pos ((hpass.mem_fired_iff hk hk').mpr hr), hk']
    refine (hes.meanwhile hkind hcharge).evaluated f.asked.board (by rw [hsettings]) ?_
    exact (Pass.run_fault_eq_none_iff hk).mp hs.pass k (mem_ready_iff.mpr ⟨hv, hr⟩)
  · obtain rfl := Option.some.inj ((hpass.other k hv hr).symm.trans hn)
    refine ⟨m, hm, hkind, fun es hes => ?_⟩
    rw [if_neg fun hid => hr ((hpass.mem_fired_iff hk hk').mp hid)]
    exact hes.meanwhile hkind hcharge

end Frame

namespace Run

open Board

variable {catalogue : Catalogue} {settings : Settings α} {draws : Draws α} {w : World α}
  {inputs : List (Input α)} {frames : List (Frame α)}

/-- The board of a run comes from an empty one. -/
theorem reachable (h : Run World.step (.new catalogue settings draws) inputs frames w) :
    w.board.Reachable catalogue settings := by
  induction h with
  | start => exact .new
  | request _ r ih => exact World.onward_perform _ r ih
  | @frame _ _ w dt _ _ ih => exact World.onward_step w dt ih

theorem lt_nextId_of_fired (h : Run World.step (.new catalogue settings draws) inputs frames w) :
    ∀ f ∈ frames, ∀ id ∈ f.fired, id < w.board.nextId := by
  induction h with
  | start => exact fun f hf => absurd hf List.not_mem_nil
  | @request _ _ w _ r ih =>
    have hle := (World.aside_perform w r).board.nextId_le
    exact fun f hf id hid => (ih f hf id hid).trans_le hle
  | @frame _ _ w dt h faultless ih =>
    have hs := Frame.stages (f := ⟨w, dt⟩) faultless
    intro f hf id hid
    rcases List.mem_cons.mp hf with rfl | hf
    · exact hs.lt_nextId_of_fired (h.consistent (.new catalogue settings)) hid
    · exact (ih f hf id hid).trans_le hs.nextId_le

/-- A node that is placed has not fired yet. -/
theorem evaluations_nextId (h : Run World.step (.new catalogue settings draws) inputs frames w) :
    evaluations frames w.board.nextId = [] := by
  refine List.filterMap_eq_nil_iff.mpr fun f hf => if_neg fun hid => ?_
  exact lt_irrefl _ (h.lt_nextId_of_fired f hf _ hid)

/-- **In a run, the evaluations of a plasma node follow its placement.** -/
theorem charging (h : Run World.step (.new catalogue settings draws) inputs frames w) {id : Int}
    {n : Node α} (hn : w.board.nodes.get? id = some n) (hk : n.kind = .plasma) :
    Charging settings.weapons.plasmaMaxThreshold n (evaluations frames id) := by
  induction h generalizing n with
  | start => cases hn
  | @request _ _ w h r ih =>
    rcases World.inherits_perform (h.consistent (.new catalogue settings)) r hn with
      ⟨m, hm, hkind, hcharge⟩ | ⟨rfl, cell, kind, c, hplaced⟩
    · exact (ih hm (hkind ▸ hk)).meanwhile hkind hcharge
    · rw [h.evaluations_nextId]
      exact .placed hplaced hk
  | @frame _ frames w dt h faultless ih =>
    obtain ⟨m, hm, hkind, hstep⟩ := Frame.charging_step (f := ⟨w, dt⟩) faultless h.reachable hn
    have hcharging := hstep _ (ih hm (hkind ▸ hk))
    -- the evaluation of this frame, if there is one, is put in front of the earlier ones
    rw [evaluations, List.filterMap_cons]
    cases he : (⟨w, dt⟩ : Frame α).evaluation? id with
    | none =>
      rw [he] at hcharging
      exact hcharging
    | some e =>
      rw [he] at hcharging
      exact hcharging

end Run

/-- **Every charge is accounted for.**  Whatever the aims and thresholds of a plasma node are from
one evaluation to the next, if no evaluation meets a fault, its values are as many as its charge and
the charges that it shot together; each shot has a charge of at least one, whose number is the value
of its evaluation, and all other values are zero; and if the greatest threshold is a number, the
charge stays below it, or below one.  So it is with the evaluations of every plasma node in every
run. -/
theorem Charging.accounts :
    (∀ (greatest : Float) (n : Node Float) (es : List (Evaluation Float)),
      Charging greatest n es → Balanced greatest n es) ∧
    ∀ (catalogue : Catalogue) (settings : Settings Float) (draws : Draws Float)
      (inputs : List (Input Float)) (frames : List (Frame Float)) (w : World Float),
      Run World.step (.new catalogue settings draws) inputs frames w →
        ∀ id n, w.board.nodes.get? id = some n → n.kind = .plasma →
          Balanced settings.weapons.plasmaMaxThreshold n (evaluations frames id) :=
  ⟨fun _ _ _ h => h.balanced, fun _ _ _ _ _ _ h _ _ hn hk => (h.charging hn hk).balanced⟩

/-! ### A node that charges -/

namespace Battery

/-- A heart, two constants, the vector that is made of them, and a plasma node that aims there. -/
def requests : List (Request Float) := [
  .placeHeart ⟨0, 0⟩, .placeNode ⟨1, -1⟩ "ConstantNumber", .placeNode ⟨0, 1⟩ "ConstantNumber",
  .placeNode ⟨1, 0⟩ "VectorCreate", .placeNode ⟨2, 0⟩ "Plasma",
  .setConstant 2 (some (.number 1.0)), .setConstant 3 (some (.number 0.0)),
  .bind 4 "north" "x", .bind 4 "south_west" "y", .bind 5 "north_west" "target"]

/-- The world after these requests. -/
@[irreducible] def world : World Float :=
  requests.foldl World.perform (.new .builtin Beacon.settings .none)

/-- The frame in which the heart beats and the constants fire. -/
def first : Frame Float := ⟨world, 10.0⟩

/-- The frame in which the vector is made. -/
def second : Frame Float := ⟨first.ended, 0.5⟩

/-- The frame in which the plasma node fires. -/
def third : Frame Float := ⟨second.ended, 0.5⟩

/-- The battery runs its three frames, and meets no fault. -/
theorem run_third : ∃ inputs, Run World.step (.new .builtin Beacon.settings .none) inputs
    [third, second, first] third.ended := by
  have hworld : Run World.step (.new .builtin Beacon.settings .none)
      (requests.reverse.map .request ++ []) [] world := by
    unfold world
    exact Run.requests .start requests
  have hfirst := Run.snoc (f := first) hworld (by decide +kernel)
  have hsecond := Run.snoc (f := second) hfirst (by decide +kernel)
  exact ⟨_, Run.snoc (f := third) hsecond (by decide +kernel)⟩

end Battery

open Battery in
/-- The node has fired once, and its charge is one. -/
theorem Charging.accounts_battery : ∃ inputs n,
    Run World.step (.new .builtin Beacon.settings .none) inputs [third, second, first] third.ended ∧
      third.ended.board.nodes.get? 5 = some n ∧ n.charge = 1 ∧
      Balanced Beacon.settings.weapons.plasmaMaxThreshold n
        (evaluations [third, second, first] 5) := by
  obtain ⟨inputs, h⟩ := run_third
  have hfifth : (third.ended.board.nodes.get? 5).map (fun n => (n.kind, n.charge)) =
      some (.plasma, 1) := by
    decide +kernel
  obtain ⟨n, hn, e⟩ := Option.map_eq_some_iff.mp hfifth
  obtain ⟨hk, hcharge⟩ := Prod.mk.inj e
  exact ⟨inputs, n, h, hn, hcharge, Charging.accounts.2 _ _ _ _ _ _ h 5 n hn hk⟩

end HexPulse
