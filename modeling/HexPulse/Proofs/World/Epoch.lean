import HexPulse.Proofs.Activation.Order
import HexPulse.Proofs.World.Run

/-!
# HexPulse — Proofs — World — Epoch

An epoch goes from a frame in which a heart beats up to the next such frame.  Between the firing of
a producer and that of its consumer nodes may be pruned, rewired, removed and placed again; still
no value outlives its epoch, and nothing fires twice in it.

* `Run.epochs`: before the first beat nothing fires; in an epoch a node fires at most once; what it
  reads was produced in an earlier frame of the epoch; and a node that pruning found disabled does
  not fire until the next beat.

The invariant is `Traced`: a node that waits was asked to by the beat of this epoch, and has been
enabled and has not fired since; a node that holds a value got it by firing in this epoch.
-/

namespace HexPulse

open Board

variable {α : Type} [Scalar α]

/-- The frames since the last beat, the last ones first; all frames if no heart has beaten yet. -/
def epoch : List (Frame α) → List (Frame α)
  | [] => []
  | f :: past => f :: if f.beats then [] else epoch past

/-- The frames of the same epoch before a frame. -/
def Frame.earlier (f : Frame α) (past : List (Frame α)) : List (Frame α) :=
  if f.beats then [] else epoch past

/-- All that waits or holds a value on the board goes back to the current epoch. -/
structure Traced (frames : List (Frame α)) (b : Board α) : Prop where
  asked : ∀ id, b.state? id = some .requested → ∃ f ∈ frames, f.beats = true
  waiting : ∀ id, b.state? id = some .requested → ∀ g ∈ epoch frames,
    id ∉ g.fired ∧ g.pruned.board.state? id ≠ some .disabled
  value : ∀ id v, b.state? id = some (.ok v) → ∃ g ∈ epoch frames,
    id ∈ g.fired ∧ g.passed.board.state? id = some (.ok v)

/-- A new board has no nodes to be traced. -/
theorem Traced.new (catalogue : Catalogue) (settings : Settings α) :
    Traced [] (Board.new catalogue settings) := by
  have hnone (id : Int) : (Board.new catalogue settings).state? id = none := rfl
  refine ⟨fun id hs => ?_, fun id hs => ?_, fun id v hs => ?_⟩
  · cases (hnone id).symm.trans hs
  · cases (hnone id).symm.trans hs
  · cases (hnone id).symm.trans hs

/-- What changes no state but to idle or disabled keeps all traces. -/
theorem Traced.mono {frames : List (Frame α)} {b c : Board α} (h : Traced frames b)
    (hc : ∀ id s, c.state? id = some s → s ≠ .disabled → s ≠ .idle → b.state? id = some s) :
    Traced frames c where
  asked id hs := h.asked id (hc id _ hs nofun nofun)
  waiting id hs := h.waiting id (hc id _ hs nofun nofun)
  value id v hs := h.value id v (hc id _ hs nofun nofun)

/-! ### The states in a frame -/

namespace Frame.Stages

variable {f : Frame α} {past : List (Frame α)} {id : Int} {s : NodeState α}

/-- Up to the beat, a frame makes nodes only idle or disabled. -/
theorem state?_pruned (h : f.Stages) (hs : f.pruned.board.state? id = some s) (hd : s ≠ .disabled)
    (hi : s ≠ .idle) : f.world.board.state? id = some s := by
  refine h.reap.state?_eq ?_ hd
  rw [pruned, World.prune] at hs
  split at hs
  · exact state?_prune hs hd hi
  · exact hs

/-- If a heart beats, all nodes that take part wait. -/
theorem state?_asked_of_beats (h : f.Stages) (hb : f.beats = true)
    (hs : f.asked.board.state? id = some s) (hd : s ≠ .disabled) :
    s = .requested ∧ f.pruned.board.state? id ≠ some .disabled := by
  obtain ⟨c, hc, hnodes, hrest⟩ := h.beat
  rw [if_pos hb] at hrest
  rcases state?_request (hrest.state?_eq hs hd) with hdis | ⟨rfl, s', hs', hd'⟩
  · exact absurd hdis hd
  · refine ⟨rfl, fun e => hd' ?_⟩
    rw [state?, hnodes] at hs'
    exact Option.some.inj (hs'.symm.trans e)

/-- If no heart beats, the nodes are as pruning left them. -/
theorem state?_asked_of_not_beats (h : f.Stages) (hb : f.beats = false)
    (hs : f.asked.board.state? id = some s) (hd : s ≠ .disabled) :
    f.pruned.board.state? id = some s := by
  obtain ⟨c, hc, hnodes, hrest⟩ := h.beat
  rw [if_neg (by rw [hb]; exact Bool.false_ne_true)] at hrest
  exact hc.state?_eq (hrest.state?_eq hs hd) hd

/-- In the pass of a frame each node is evaluated by itself. -/
theorem alone (h : f.Stages) (hw : f.world.board.Consistent) :
    Pass.Alone f.asked.board f.asked.sink f.passed := by
  rw [passed]
  exact Pass.alone (h.asked_keyed hw) h.pass

/-- A node that fired is done, and any other is in the state in which it went into the pass. -/
theorem state?_passed (h : f.Stages) (hw : f.world.board.Consistent)
    (hs : f.passed.board.state? id = some s) :
    (id ∈ f.fired ∧ s.phase = .done) ∨ (id ∉ f.fired ∧ f.asked.board.state? id = some s) := by
  have hp := h.alone hw
  rw [h.fired]
  by_cases hid : id ∈ f.passed.fired
  · obtain ⟨n, hn, rfl, hr⟩ := (hp.fired id).mp hid
    rw [state?_of_get? (hp.ready n hn hr)] at hs
    obtain rfl := Option.some.inj hs
    exact .inl ⟨hid, hp.done n hn hr⟩
  · rw [state?, hp.get?_of_notMem (h.asked_keyed hw) hid] at hs
    exact .inr ⟨hid, hs⟩

/-- A node that waits when the pass begins. -/
theorem traced_asked (h : f.Stages) (hp : Traced past f.world.board)
    (hs : f.asked.board.state? id = some .requested) :
    (∃ g ∈ f :: past, g.beats = true) ∧ f.pruned.board.state? id ≠ some .disabled ∧
      ∀ g ∈ f.earlier past, id ∉ g.fired ∧ g.pruned.board.state? id ≠ some .disabled := by
  rw [earlier]
  cases hb : f.beats with
  | true =>
    -- the request of this frame begins the epoch, and passes over disabled nodes
    obtain ⟨-, hd⟩ := h.state?_asked_of_beats hb hs nofun
    exact ⟨⟨f, List.mem_cons_self, hb⟩, hd, fun g hg => absurd hg List.not_mem_nil⟩
  | false =>
    have hpruned := h.state?_asked_of_not_beats hb hs nofun
    have hworld := h.state?_pruned hpruned nofun nofun
    obtain ⟨g, hg, hbeat⟩ := hp.asked id hworld
    refine ⟨⟨g, List.mem_cons_of_mem _ hg, hbeat⟩, fun e => ?_, hp.waiting id hworld⟩
    cases hpruned.symm.trans e

/-- A value that can be read in the pass. -/
theorem traced_value (h : f.Stages) (hp : Traced past f.world.board) {v : Value α}
    (hs : f.asked.board.state? id = some (.ok v)) :
    ∃ g ∈ f.earlier past, id ∈ g.fired ∧ g.passed.board.state? id = some (.ok v) := by
  rw [earlier]
  cases hb : f.beats with
  | true =>
    -- behind a request no node holds a value
    cases (h.state?_asked_of_beats hb hs nofun).1
  | false =>
    exact hp.value id v
      (h.state?_pruned (h.state?_asked_of_not_beats hb hs nofun) nofun nofun)

/-- A frame keeps all traces. -/
theorem traced_ended (h : f.Stages) (hw : f.world.board.Consistent)
    (hp : Traced past f.world.board) : Traced (f :: past) f.ended.board := by
  have hwaits : ∀ id, f.ended.board.state? id = some .requested →
      id ∉ f.fired ∧ f.asked.board.state? id = some .requested := by
    intro id hs
    rcases h.state?_passed hw (h.rest.state?_eq hs nofun) with ⟨-, hdone⟩ | hwaits
    · cases hdone
    · exact hwaits
  -- what waits has not fired, and what holds a value has fired now or held it before the pass
  refine ⟨fun id hs => ?_, fun id hs g hg => ?_, fun id v hs => ?_⟩
  · exact (h.traced_asked hp (hwaits id hs).2).1
  · obtain ⟨hnot, hasked⟩ := hwaits id hs
    obtain ⟨-, hd, hearlier⟩ := h.traced_asked hp hasked
    rcases List.mem_cons.mp hg with rfl | hg
    · exact ⟨hnot, hd⟩
    · exact hearlier g hg
  · have hpassed := h.rest.state?_eq hs nofun
    rcases h.state?_passed hw hpassed with ⟨hfired, -⟩ | ⟨-, hasked⟩
    · exact ⟨f, List.mem_cons_self, hfired, hpassed⟩
    · obtain ⟨g, hg, hfired⟩ := h.traced_value hp hasked
      exact ⟨g, List.mem_cons_of_mem _ hg, hfired⟩

/-- A node that fires was ready. -/
theorem ready_of_mem (h : f.Stages) (hw : f.world.board.Consistent) (hid : id ∈ f.fired) :
    ∃ n, f.asked.board.nodes.get? id = some n ∧ f.asked.board.Ready n := by
  rw [h.fired] at hid
  obtain ⟨n, hn, rfl, hr⟩ := ((h.alone hw).fired id).mp hid
  exact ⟨n, (h.asked_keyed hw).get?_id hn, hr⟩

theorem state?_of_mem (h : f.Stages) (hw : f.world.board.Consistent) (hid : id ∈ f.fired) :
    f.asked.board.state? id = some .requested := by
  obtain ⟨n, hn, hr⟩ := h.ready_of_mem hw hid
  rw [state?_of_get? hn, hr.1]

end Frame.Stages

namespace Run

variable {w₀ w : World α} {inputs : List (Input α)} {frames : List (Frame α)}

/-- **In a run every request and every value has its trace.** -/
theorem traced (hc : w₀.board.Consistent) (h₀ : Traced [] w₀.board)
    (h : Run World.step w₀ inputs frames w) : Traced frames w.board := by
  induction h with
  | start => exact h₀
  | request _ r ih =>
    exact ih.mono fun id s hs hd _ => (World.aside_perform _ r).board.state?_eq hs hd
  | @frame _ _ w dt h faultless ih =>
    exact (Frame.stages (f := ⟨w, dt⟩) faultless).traced_ended (h.consistent hc) ih

/-- **What happens in an epoch.**  In every run of a new world, for every frame `f` of it and the
frames before it: if no heart has beaten up to now, nothing fires; no node fires twice in the frame
or fires that fired earlier in the epoch; every direction of a node that fires leads to a node that
holds a value, and got it by firing in an earlier frame of the epoch; and no node fires that was
disabled when a heart could have beaten in this frame or an earlier one of the epoch. -/
theorem epochs {catalogue : Catalogue} {settings : Settings α} {draws : Draws α}
    (h : Run World.step (.new catalogue settings draws) inputs frames w)
    {later past : List (Frame α)} {f : Frame α} (hf : frames = later ++ f :: past) :
    ((∀ g ∈ f :: past, g.beats = false) → f.fired = []) ∧
    f.fired.Nodup ∧ (∀ g ∈ f.earlier past, ∀ id ∈ g.fired, id ∉ f.fired) ∧
    (∀ id ∈ f.fired, ∃ n, f.asked.board.nodes.get? id = some n ∧
      ∀ d ∈ n.wiring.directions, ∃ m v, f.asked.board.nodeAt? (n.position.neighbor d) = some m ∧
        m.state = .ok v ∧
        ∃ g ∈ f.earlier past, m.id ∈ g.fired ∧ g.passed.board.state? m.id = some (.ok v)) ∧
    (∀ g ∈ epoch (f :: past), ∀ id, g.pruned.board.state? id = some .disabled → id ∉ f.fired) := by
  obtain ⟨⟨_, hpast⟩, hfaultless⟩ := h.split hf
  have hnew := Consistent.new catalogue settings
  have hw : f.world.board.Consistent := hpast.consistent hnew
  have hp : Traced past f.world.board := hpast.traced hnew (.new catalogue settings)
  have hs := Frame.stages hfaultless
  -- a node that fires waited, and so goes back to the beat of the epoch
  have hwaited := fun id (hid : id ∈ f.fired) => hs.traced_asked hp (hs.state?_of_mem hw hid)
  refine ⟨fun hbeats => ?_, ?_, fun g hg id hg' hid => ?_, fun id hid => ?_,
    fun g hg id hd hid => ?_⟩
  · refine List.eq_nil_iff_forall_not_mem.mpr fun id hid => ?_
    obtain ⟨⟨g, hg, hbeat⟩, -⟩ := hwaited id hid
    rw [hbeats g hg] at hbeat
    cases hbeat
  · rw [hs.fired]
    exact (hs.alone hw).order.nodup (hs.asked_keyed hw).nodup
  · exact ((hwaited id hid).2.2 g hg).1 hg'
  · obtain ⟨n, hn, hr⟩ := hs.ready_of_mem hw hid
    refine ⟨n, hn, fun d hd => ?_⟩
    obtain ⟨m, v, hm, hv⟩ := hr.2 d hd
    obtain ⟨i, -, hi⟩ := nodeAt?_eq_some_iff.mp hm
    obtain rfl := (hs.asked_keyed hw).id_of_get? hi
    have hstate : f.asked.board.state? m.id = some (.ok v) := by
      rw [state?_of_get? hi, hv]
    exact ⟨m, v, hm, hv, hs.traced_value hp hstate⟩
  · rcases List.mem_cons.mp hg with rfl | hg
    · exact (hwaited id hid).2.1 hd
    · exact ((hwaited id hid).2.2 g hg).2 hd

open Beacon in
/-- The constant fires when the heart beats, and the product reads it in the frame behind. -/
theorem epochs_beacon : pulse.beats = true ∧ pulse.fired = [2] ∧ echo.fired = [3] ∧
    ∀ id ∈ echo.fired, ∃ n, echo.asked.board.nodes.get? id = some n ∧
      ∀ d ∈ n.wiring.directions, ∃ m v,
        echo.asked.board.nodeAt? (n.position.neighbor d) = some m ∧ m.state = .ok v ∧
        ∃ g ∈ echo.earlier [pulse], m.id ∈ g.fired ∧
          g.passed.board.state? m.id = some (.ok v) := by
  obtain ⟨_, h⟩ := run_echo
  obtain ⟨-, -, -, hread, -⟩ := epochs h (show [echo, pulse] = [] ++ echo :: [pulse] from rfl)
  exact ⟨by decide +kernel, by decide +kernel, by decide +kernel, hread⟩

end Run

end HexPulse
