import HexPulse.Proofs.Activation.Order
import Mathlib.Data.List.Flatten
import Mathlib.Data.List.Perm.Subperm
import Mathlib.Logic.Relation

/-!
# HexPulse — Proofs — Activation — Wave

A request, and then pass after pass: in which pass does a node fire?  `Passes b rounds c` says that
the board `b`, after one request and as many passes as there are rounds, became `c`, and that the
nodes of each round fired in that pass.  Between passes everything but the tiles and the nodes may
change.

* `Passes.firing_schedule`: a node fires as soon as all that it reads from hold values.  So nodes
  that wait for a cycle, for an empty cell, for a disabled node or for one that failed never fire,
  and when a pass fires nothing, the wave is over.

What carries the induction over the passes is `Wave`: every node is disabled as it was, or waits as
it was asked to, or has fired in one round (`Wave.pass`).
-/

namespace HexPulse

variable {α : Type}

/-! ### Rounds -/

/-- The id is in the round of a number; the first round has number zero. -/
def FiredIn (rounds : List (List Int)) (k : Nat) (id : Int) : Prop :=
  ∃ ids, rounds[k]? = some ids ∧ id ∈ ids

section Rounds

variable {rounds : List (List Int)} {ids : List Int} {id : Int} {i j k : Nat}

theorem FiredIn.lt (h : FiredIn rounds k id) : k < rounds.length := by
  obtain ⟨ids, hk, -⟩ := h
  exact (List.getElem?_eq_some_iff.mp hk).1

/-- Whoever fired did so in some round. -/
theorem mem_flatten_iff_firedIn : id ∈ rounds.flatten ↔ ∃ k, FiredIn rounds k id := by
  rw [List.mem_flatten]
  constructor
  · rintro ⟨ids, hids, hid⟩
    obtain ⟨k, hk⟩ := List.mem_iff_getElem?.mp hids
    exact ⟨k, ids, hk, hid⟩
  · rintro ⟨k, ids, hk, hid⟩
    exact ⟨ids, List.mem_iff_getElem?.mpr ⟨k, hk⟩, hid⟩

theorem FiredIn.mem (h : FiredIn rounds k id) : id ∈ rounds.flatten :=
  mem_flatten_iff_firedIn.mpr ⟨k, h⟩

/-- One more round leaves the earlier ones as they are. -/
theorem firedIn_snoc_iff :
    FiredIn (rounds ++ [ids]) k id ↔ FiredIn rounds k id ∨ (k = rounds.length ∧ id ∈ ids) := by
  rw [FiredIn, FiredIn]
  rcases Nat.lt_trichotomy k rounds.length with hk | hk | hk
  · simp [List.getElem?_append_left hk, Nat.ne_of_lt hk]
  · subst hk
    simp
  · rw [List.getElem?_eq_none (by simp; omega), List.getElem?_eq_none (Nat.le_of_lt hk)]
    simp [Nat.ne_of_gt hk]

/-- What happened before the last round does not depend on the last round. -/
theorem firedIn_snoc_of_lt (hk : k < rounds.length) :
    FiredIn (rounds ++ [ids]) k id ↔ FiredIn rounds k id := by
  rw [firedIn_snoc_iff, or_iff_left fun h => Nat.ne_of_lt hk h.1]

/-- An id that comes once in all rounds comes in one round. -/
theorem FiredIn.unique (h : rounds.flatten.Nodup) (hi : FiredIn rounds i id)
    (hj : FiredIn rounds j id) : i = j := by
  obtain ⟨xs, hx, hxi⟩ := hi
  obtain ⟨ys, hy, hyi⟩ := hj
  obtain ⟨hil, rfl⟩ := List.getElem?_eq_some_iff.mp hx
  obtain ⟨hjl, rfl⟩ := List.getElem?_eq_some_iff.mp hy
  have hp := List.pairwise_iff_getElem.mp (List.nodup_flatten.mp h).2
  rcases Nat.lt_trichotomy i j with hlt | heq | hlt
  · exact absurd hyi (hp i j hil hjl hlt hxi)
  · exact heq
  · exact absurd hxi (hp j i hjl hil hlt hyi)

/-- If every round has somebody in it, there are no more rounds than firings. -/
theorem length_le_length_flatten (h : ∀ ids ∈ rounds, ids ≠ []) :
    rounds.length ≤ rounds.flatten.length := by
  induction rounds with
  | nil => exact Nat.zero_le _
  | cons ids rounds ih =>
    have hids := List.length_pos_iff.mpr (h ids List.mem_cons_self)
    have := ih fun xs hx => h xs (List.mem_cons_of_mem _ hx)
    rw [List.length_cons, List.flatten_cons, List.length_append]
    omega

end Rounds

/-! ### Wires -/

namespace Board

/-- The node of an id holds a value. -/
def Holds (b : Board α) (id : Int) : Prop := ∃ m v, b.nodes.get? id = some m ∧ m.state = .ok v

/-- A wire: a direction of `n` is bound, and `m` stands there. -/
def Reads (b : Board α) (n m : Node α) : Prop :=
  ∃ d ∈ n.wiring.directions, b.nodeAt? (n.position.neighbor d) = some m

/-- All wires of `n` lead to nodes that fired before a round, and that hold values on `c`. -/
def Supplied (b : Board α) (rounds : List (List Int)) (c : Board α) (k : Nat) (n : Node α) :
    Prop :=
  ∀ d ∈ n.wiring.directions, ∃ m, b.nodeAt? (n.position.neighbor d) = some m ∧
    (∃ j < k, FiredIn rounds j m.id) ∧ c.Holds m.id

/-- Following one or more wires from `n` leads to a cycle, to a cell without a node, to a disabled
node, or to a node that holds an error on `c`. -/
def Blocked (b c : Board α) (n : Node α) : Prop :=
  (∃ m, Relation.TransGen b.Reads n m ∧ Relation.TransGen b.Reads m m) ∨
  (∃ m, Relation.ReflTransGen b.Reads n m ∧
    ∃ d ∈ m.wiring.directions, b.nodeAt? (m.position.neighbor d) = none) ∨
  (∃ m, Relation.TransGen b.Reads n m ∧ m.state = .disabled) ∨
  (∃ m, Relation.TransGen b.Reads n m ∧
    ∃ m' e, c.nodes.get? m.id = some m' ∧ m'.state = .err e)

theorem Reads.mem_values {b : Board α} {n m : Node α} (h : b.Reads n m) : m ∈ b.nodes.values := by
  obtain ⟨_, -, hm⟩ := h
  obtain ⟨_, -, hg⟩ := nodeAt?_eq_some_iff.mp hm
  exact Table.mem_values_of_get? hg

end Board

/-- What holds after a request and some passes: a node is disabled as it was, waits as it was asked
to, or is done; every node that fired was supplied by then, and every node that was supplied has
fired. -/
structure Wave (b : Board α) (rounds : List (List Int)) (c : Board α) : Prop where
  tiles : c.tiles = b.tiles
  keys : c.nodes.keys = b.nodes.keys
  keyed : c.nodes.Keyed Node.id
  disabled : ∀ n ∈ b.nodes.values, n.state = .disabled → c.nodes.get? n.id = some n
  waiting : ∀ n ∈ b.nodes.values, n.state ≠ .disabled → n.id ∉ rounds.flatten →
    c.nodes.get? n.id = some { n with state := .requested }
  fired : ∀ n ∈ b.nodes.values, n.id ∈ rounds.flatten → n.state ≠ .disabled ∧
    ∃ s q, NodeState.phase s = .done ∧ c.nodes.get? n.id = some { n with state := s, charge := q }
  listed : ∀ id ∈ rounds.flatten, id ∈ b.nodes.keys
  nodup : rounds.flatten.Nodup
  sound : ∀ n ∈ b.nodes.values, ∀ k, FiredIn rounds k n.id → b.Supplied rounds c k n
  complete : ∀ n ∈ b.nodes.values, n.state ≠ .disabled → ∀ k < rounds.length,
    b.Supplied rounds c k n → ∃ j ≤ k, FiredIn rounds j n.id

namespace Wave

open Board

variable {b c c' : Board α} {rounds : List (List Int)} {n : Node α} {k : Nat}

/-- A wave begins with a request, before any round. -/
theorem start (hb : b.nodes.Keyed Node.id) : Wave b [] b.request := by
  have hget (n : Node α) (hn : n ∈ b.nodes.values) :
      b.request.nodes.get? n.id = some (requestNode n) := by
    rw [request, Table.get?_mapValues, hb.get?_id hn, Option.map_some]
  refine ⟨rfl, Table.keys_mapValues _ _, ?_, fun n hn hd => ?_, fun n hn hd _ => ?_,
    fun n _ h => absurd h List.not_mem_nil, fun id h => absurd h List.not_mem_nil, List.nodup_nil,
    fun n _ k h => absurd h.lt (Nat.not_lt_zero k), fun n _ _ k h => absurd h (Nat.not_lt_zero k)⟩
  · refine hb.mapValues fun n _ => ?_
    rw [requestNode]
    split <;> rfl
  · rw [hget n hn, requestNode, hd]
  · rw [hget n hn]
    rw [requestNode]
    split
    · next h => exact absurd h hd
    · rfl

/-- Only the tiles and the nodes count. -/
theorem of_eq (h : Wave b rounds c) (tiles : c'.tiles = c.tiles) (nodes : c'.nodes = c.nodes) :
    Wave b rounds c' where
  tiles := tiles.trans h.tiles
  keys := nodes ▸ h.keys
  keyed := nodes ▸ h.keyed
  disabled := nodes ▸ h.disabled
  waiting := nodes ▸ h.waiting
  fired := nodes ▸ h.fired
  listed := h.listed
  nodup := h.nodup
  sound n hn k hk d hd := by
    obtain ⟨m, hm, hj, v, hv⟩ := h.sound n hn k hk d hd
    exact ⟨m, hm, hj, v, nodes ▸ hv⟩
  complete n hn hd k hk hs := by
    refine h.complete n hn hd k hk fun d hd => ?_
    obtain ⟨m, hm, hj, v, hv⟩ := hs d hd
    exact ⟨m, hm, hj, v, nodes ▸ hv⟩

/-- Whoever fires is a node of the board. -/
theorem exists_of_mem (h : Wave b rounds c) (hb : b.nodes.Keyed Node.id) {id : Int}
    (hid : id ∈ rounds.flatten) : ∃ n ∈ b.nodes.values, n.id = id :=
  hb.mem_keys_iff.mp (h.listed id hid)

/-- The nodes that hold values are among those that fired. -/
theorem mem_of_holds (h : Wave b rounds c) (hn : n ∈ b.nodes.values) (hc : c.Holds n.id) :
    n.id ∈ rounds.flatten := by
  obtain ⟨m, v, hm, hv⟩ := hc
  by_contra hnot
  by_cases hd : n.state = .disabled
  · rw [h.disabled n hn hd] at hm
    obtain rfl := Option.some.inj hm
    rw [hd] at hv
    cases hv
  · rw [h.waiting n hn hd hnot] at hm
    obtain rfl := Option.some.inj hm
    cases hv

/-- What a node reads from a direction during the wave. -/
theorem source_iff (h : Wave b rounds c) (hb : b.NodesAgree) {cell : Hex} :
    (∃ m v, c.nodeAt? cell = some m ∧ m.state = .ok v) ↔
      ∃ m, b.nodeAt? cell = some m ∧ (∃ j < rounds.length, FiredIn rounds j m.id) ∧
        c.Holds m.id := by
  have htile : c.tile? cell = b.tile? cell := by rw [tile?, h.tiles]; rfl
  constructor
  · rintro ⟨m, v, hm, hv⟩
    obtain ⟨id, ht, hg⟩ := nodeAt?_eq_some_iff.mp hm
    rw [htile] at ht
    obtain ⟨n, hn, -⟩ := (hb.tile_iff cell id).mp ht
    obtain ⟨hnv, rfl⟩ := hb.keyed.get?_eq_some_iff.mp hn
    have hc : c.Holds n.id := ⟨m, v, hg, hv⟩
    obtain ⟨j, hj⟩ := mem_flatten_iff_firedIn.mp (h.mem_of_holds hnv hc)
    exact ⟨n, nodeAt?_eq_some_iff.mpr ⟨n.id, ht, hn⟩, ⟨j, hj.lt, hj⟩, hc⟩
  · rintro ⟨n, hn, -, m, v, hm, hv⟩
    obtain ⟨id, ht, hg⟩ := nodeAt?_eq_some_iff.mp hn
    obtain rfl := hb.keyed.id_of_get? hg
    exact ⟨m, v, nodeAt?_eq_some_iff.mpr ⟨n.id, htile ▸ ht, hm⟩, hv⟩

/-! ### What follows for a whole wave -/

/-- What a node that fired reads from fired before it and holds a value. -/
theorem source_of_fired (h : Wave b rounds c) (hn : n ∈ b.nodes.values)
    (hk : FiredIn rounds k n.id) {m : Node α} (hr : b.Reads n m) :
    (∃ j < k, FiredIn rounds j m.id) ∧ c.Holds m.id := by
  obtain ⟨d, hd, hm⟩ := hr
  obtain ⟨m', hm', hs⟩ := h.sound n hn k hk d hd
  obtain rfl := Option.some.inj (hm.symm.trans hm')
  exact hs

/-- The same over one wire or more. -/
theorem upstream (h : Wave b rounds c) (hn : n ∈ b.nodes.values) (hk : FiredIn rounds k n.id)
    {m : Node α} (hm : Relation.TransGen b.Reads n m) :
    m ∈ b.nodes.values ∧ (∃ j < k, FiredIn rounds j m.id) ∧ c.Holds m.id := by
  induction hm with
  | single hr => exact ⟨hr.mem_values, h.source_of_fired hn hk hr⟩
  | tail _ hr ih =>
    obtain ⟨hv, ⟨i, hi, hfi⟩, -⟩ := ih
    obtain ⟨⟨j, hj, hfj⟩, hs⟩ := h.source_of_fired hv hfi hr
    exact ⟨hr.mem_values, ⟨j, Nat.lt_trans hj hi, hfj⟩, hs⟩

/-- A node that is blocked does not fire. -/
theorem notMem_of_blocked (h : Wave b rounds c) (hn : n ∈ b.nodes.values) (hb : b.Blocked c n) :
    n.id ∉ rounds.flatten := by
  intro hmem
  obtain ⟨k, hk⟩ := mem_flatten_iff_firedIn.mp hmem
  rcases hb with ⟨m, hm, hcycle⟩ | ⟨m, hm, d, hd, hnone⟩ | ⟨m, hm, hdis⟩ | ⟨m, hm, m', e, hg, he⟩
  · -- on a cycle, a node would have fired before it fired
    obtain ⟨hv, ⟨j, -, hj⟩, -⟩ := h.upstream hn hk hm
    obtain ⟨-, ⟨i, hi, hi'⟩, -⟩ := h.upstream hv hj hcycle
    exact Nat.ne_of_lt hi (hi'.unique h.nodup hj)
  · have hfired : m ∈ b.nodes.values ∧ ∃ j, FiredIn rounds j m.id := by
      rcases Relation.reflTransGen_iff_eq_or_transGen.mp hm with rfl | hm
      · exact ⟨hn, k, hk⟩
      · obtain ⟨hv, ⟨j, -, hj⟩, -⟩ := h.upstream hn hk hm
        exact ⟨hv, j, hj⟩
    obtain ⟨hv, j, hj⟩ := hfired
    -- whoever is upstream of a firing fired before, and so was supplied from every direction
    obtain ⟨m', hm', -⟩ := h.sound m hv j hj d hd
    rw [hnone] at hm'
    cases hm'
  · obtain ⟨hv, ⟨j, -, hj⟩, -⟩ := h.upstream hn hk hm
    exact (h.fired m hv hj.mem).1 hdis
  · obtain ⟨-, -, x, v, hx, hval⟩ := h.upstream hn hk hm
    obtain rfl := Option.some.inj (hg.symm.trans hx)
    rw [he] at hval
    cases hval

/-- A node fires in the first pass before which it was supplied. -/
theorem firedIn_iff (h : Wave b rounds c) (hn : n ∈ b.nodes.values) (hk : k < rounds.length) :
    FiredIn rounds k n.id ↔ n.state ≠ .disabled ∧ b.Supplied rounds c k n ∧
      (k = 0 ∨ ∃ m, b.Reads n m ∧ ∃ j, j + 1 = k ∧ FiredIn rounds j m.id) := by
  constructor
  · intro hf
    refine ⟨(h.fired n hn hf.mem).1, h.sound n hn k hf, ?_⟩
    rcases k with _ | j
    · exact .inl rfl
    · -- if nothing that it reads from fired in the last pass, it was supplied before that one
      by_contra hlate
      rw [not_or, not_exists] at hlate
      have hsup : b.Supplied rounds c j n := by
        intro d hd
        obtain ⟨m, hm, ⟨i, hi, hfi⟩, hv⟩ := h.sound n hn _ hf d hd
        refine ⟨m, hm, ⟨i, ?_, hfi⟩, hv⟩
        have hij : i ≠ j := fun e => hlate.2 m ⟨⟨d, hd, hm⟩, i, by rw [e], hfi⟩
        omega
      obtain ⟨i, hi, hfi⟩ := h.complete n hn (h.fired n hn hf.mem).1 j (by omega) hsup
      have := hfi.unique h.nodup hf
      omega
  · rintro ⟨hd, hs, hprompt⟩
    obtain ⟨i, hi, hfi⟩ := h.complete n hn hd k hk hs
    rcases hprompt with rfl | ⟨m, hr, j, rfl, hfj⟩
    · rwa [Nat.le_zero.mp hi] at hfi
    · -- had it fired earlier, then so had the node of the last pass that it reads from
      obtain ⟨⟨j', hj', hfj'⟩, -⟩ := h.source_of_fired hn hfi hr
      have := hfj'.unique h.nodup hfj
      rwa [show i = j + 1 by omega] at hfi

/-- After a pass in which nothing fires, nothing fires any more. -/
theorem quiet (h : Wave b rounds c) (hb : b.nodes.Keyed Node.id) {j : Nat} {ids : List Int}
    (hj : rounds[j]? = some []) (hjk : j ≤ k) (hk : rounds[k]? = some ids) : ids = [] := by
  induction hjk generalizing ids with
  | refl => exact Option.some.inj (hk.symm.trans hj)
  | step hle ih =>
    refine List.eq_nil_iff_forall_not_mem.mpr fun id hid => ?_
    have hf : FiredIn rounds _ id := ⟨ids, hk, hid⟩
    obtain ⟨n, hn, rfl⟩ := h.exists_of_mem hb hf.mem
    obtain ⟨-, -, hzero | ⟨m, -, i, hi, xs, hxs, hm⟩⟩ := (h.firedIn_iff hn hf.lt).mp hf
    · omega
    · obtain rfl := Nat.succ.inj hi
      rw [ih hxs] at hm
      exact List.not_mem_nil hm

/-- The passes in which something fires are at most as many as there are nodes. -/
theorem quiet_of_size_le (h : Wave b rounds c) (hb : b.nodes.Keyed Node.id) {ids : List Int}
    (hsize : b.nodes.size ≤ k) (hk : rounds[k]? = some ids) : ids = [] := by
  by_contra hne
  have hlt : k < rounds.length := (List.getElem?_eq_some_iff.mp hk).1
  have hbusy : ∀ xs ∈ rounds.take (k + 1), xs ≠ [] := by
    rintro xs hxs rfl
    obtain ⟨j, hj⟩ := List.mem_iff_getElem?.mp hxs
    rw [List.getElem?_take] at hj
    split at hj
    · exact hne (h.quiet hb hj (by omega) hk)
    · cases hj
  have hrounds := length_le_length_flatten hbusy
  have htake : (rounds.take (k + 1)).flatten.length ≤ rounds.flatten.length :=
    (List.take_sublist _ _).flatten.length_le
  have hnodes : rounds.flatten.length ≤ b.nodes.keys.length :=
    (List.subperm_of_subset h.nodup h.listed).length_le
  rw [List.length_take] at hrounds
  rw [Table.length_keys] at hnodes
  omega

/-! ### One more pass -/

variable [Scalar α]

/-- **Who fires next.**  A node fires in the next pass exactly if it takes part, has not fired yet,
and reads from nodes that have fired and hold values. -/
theorem mem_fired_iff (h : Wave b rounds c) (hb : b.NodesAgree) {sink : List (Effect α)}
    {p : Pass α} (hp : Pass.Alone c sink p) (hn : n ∈ b.nodes.values) :
    n.id ∈ p.fired ↔
      n.state ≠ .disabled ∧ n.id ∉ rounds.flatten ∧ b.Supplied rounds c rounds.length n := by
  by_cases hd : n.state = .disabled
  · rw [hp.mem_fired_iff h.keyed (h.disabled n hn hd)]
    exact ⟨fun hr => absurd (hr.1.symm.trans hd) (nomatch ·), fun hr => absurd hd hr.1⟩
  by_cases hf : n.id ∈ rounds.flatten
  · obtain ⟨-, s, q, hs, hg⟩ := h.fired n hn hf
    rw [hp.mem_fired_iff h.keyed hg]
    refine ⟨fun hr => ?_, fun hr => absurd hf hr.2.1⟩
    rw [show s = .requested from hr.1] at hs
    cases hs
  · rw [hp.mem_fired_iff h.keyed (h.waiting n hn hd hf)]
    refine ⟨fun hr => ⟨hd, hf, fun d hdir => (h.source_iff hb).mp (hr.2 d hdir)⟩, fun hr => ?_⟩
    exact ⟨rfl, fun d hdir => (h.source_iff hb).mpr (hr.2.2 d hdir)⟩

/-- The nodes that fired keep their states. -/
theorem holds_iff (h : Wave b rounds c) (hb : b.NodesAgree) {sink : List (Effect α)} {p : Pass α}
    (hp : Pass.Alone c sink p) (hn : n ∈ b.nodes.values) (hf : n.id ∈ rounds.flatten) :
    p.board.Holds n.id ↔ c.Holds n.id := by
  rw [Holds, hp.get?_of_notMem h.keyed fun hi => ((h.mem_fired_iff hb hp hn).mp hi).2.1 hf]
  rfl

/-- Who is supplied in a pass does not depend on this pass. -/
theorem supplied_iff (h : Wave b rounds c) (hb : b.NodesAgree) {sink : List (Effect α)} {p : Pass α}
    (hp : Pass.Alone c sink p) (hk : k ≤ rounds.length) :
    b.Supplied (rounds ++ [p.fired]) p.board k n ↔ b.Supplied rounds c k n := by
  refine forall₂_congr fun d hd => exists_congr fun m => and_congr_right fun hm => ?_
  have hv : m ∈ b.nodes.values := Reads.mem_values ⟨d, hd, hm⟩
  have hearlier : (∃ j < k, FiredIn (rounds ++ [p.fired]) j m.id) ↔
      ∃ j < k, FiredIn rounds j m.id :=
    exists_congr fun j => and_congr_right fun hj => firedIn_snoc_of_lt (Nat.lt_of_lt_of_le hj hk)
  rw [hearlier]
  refine and_congr_right fun ⟨j, _, hj⟩ => ?_
  exact h.holds_iff hb hp hv hj.mem

/-- One more pass. -/
theorem pass (h : Wave b rounds c) (hb : b.NodesAgree) {sink : List (Effect α)}
    (hf : (Pass.run c sink).fault = none) :
    Wave b (rounds ++ [(Pass.run c sink).state.fired]) (Pass.run c sink).state.board := by
  have hp := Pass.alone h.keyed hf
  have hkeyed := Pass.keyed_run h.keyed hf
  generalize (Pass.run c sink).state = p at hp hkeyed
  have hflat : (rounds ++ [p.fired]).flatten = rounds.flatten ++ p.fired := by simp
  -- a node that is not in the last round is as it was before the pass
  have hframe (n : Node α) (hn : n.id ∉ p.fired) := hp.get?_of_notMem h.keyed hn
  have hfires (n : Node α) (hn : n ∈ b.nodes.values) := h.mem_fired_iff hb hp hn
  have hlisted : ∀ id ∈ p.fired, ∃ n ∈ b.nodes.values, n.id = id := by
    intro id hid
    exact hb.keyed.mem_keys_iff.mp (h.keys ▸ hp.order.subset hid)
  refine
    { tiles := by rw [hp.rest]; exact h.tiles
      keys := hp.keys.trans h.keys
      keyed := hkeyed
      disabled := fun n hn hd => ?_
      waiting := fun n hn hd hnot => ?_
      fired := fun n hn hmem => ?_
      listed := fun id hid => ?_
      nodup := ?_
      sound := fun n hn k hk => ?_
      complete := fun n hn hd k hk hs => ?_ }
  · rw [hframe n fun hi => ((hfires n hn).mp hi).1 hd]
    exact h.disabled n hn hd
  · rw [hflat, List.mem_append, not_or] at hnot
    rw [hframe n hnot.2]
    exact h.waiting n hn hd hnot.1
  · rw [hflat, List.mem_append] at hmem
    rcases hmem with hold | hnew
    · -- fired in an earlier round, and has not been touched since
      rw [hframe n fun hi => ((hfires n hn).mp hi).2.1 hold]
      exact h.fired n hn hold
    · have ⟨hd, hnot, _⟩ := (hfires n hn).mp hnew
      have hw := h.waiting n hn hd hnot
      have hr := (hp.mem_fired_iff h.keyed hw).mp hnew
      have hv := Table.mem_values_of_get? hw
      have hdone := hp.done _ hv hr
      have hready := hp.ready _ hv hr
      exact ⟨hd, _, _, hdone, hready⟩
  · rw [hflat, List.mem_append] at hid
    exact hid.elim (h.listed id) fun hid => hb.keyed.mem_keys_iff.mpr (hlisted id hid)
  · rw [hflat, List.nodup_append]
    refine ⟨h.nodup, hp.order.nodup h.keyed.nodup, fun id hold id' hnew e => ?_⟩
    subst e
    obtain ⟨n, hn, rfl⟩ := hlisted id hnew
    exact ((hfires n hn).mp hnew).2.1 hold
  · rcases firedIn_snoc_iff.mp hk with hold | ⟨rfl, hnew⟩
    · exact (h.supplied_iff hb hp (Nat.le_of_lt hold.lt)).mpr (h.sound n hn k hold)
    · exact (h.supplied_iff hb hp (Nat.le_refl _)).mpr ((hfires n hn).mp hnew).2.2
  · rw [List.length_append, List.length_singleton, Nat.lt_succ_iff] at hk
    have hs := (h.supplied_iff hb hp hk).mp hs
    rcases Nat.lt_or_eq_of_le hk with hlt | rfl
    · obtain ⟨j, hj, hfired⟩ := h.complete n hn hd k hlt hs
      exact ⟨j, hj, firedIn_snoc_iff.mpr (.inl hfired)⟩
    · -- supplied by now: it fired before, or fires in this pass
      by_cases hold : n.id ∈ rounds.flatten
      · obtain ⟨j, hj⟩ := mem_flatten_iff_firedIn.mp hold
        exact ⟨j, Nat.le_of_lt hj.lt, firedIn_snoc_iff.mpr (.inl hj)⟩
      · exact ⟨_, Nat.le_refl _,
          firedIn_snoc_iff.mpr (.inr ⟨rfl, (hfires n hn).mpr ⟨hd, hold, hs⟩⟩)⟩

end Wave

variable [Scalar α]

/-- The board `b` after one request and one pass for each round, without faults.  Before each pass
everything but the tiles and the nodes may have changed. -/
inductive Passes (b : Board α) : List (List Int) → Board α → Prop where
  | start : Passes b [] b.request
  | pass {rounds : List (List Int)} {c c' : Board α} {sink : List (Effect α)}
      (h : Passes b rounds c) (tiles : c'.tiles = c.tiles) (nodes : c'.nodes = c.nodes)
      (faultless : (Pass.run c' sink).fault = none) :
      Passes b (rounds ++ [(Pass.run c' sink).state.fired]) (Pass.run c' sink).state.board

namespace Passes

variable {b c : Board α} {rounds : List (List Int)}

/-- **A request and passes without faults make a wave.** -/
theorem wave (hb : b.NodesAgree) (h : Passes b rounds c) : Wave b rounds c := by
  induction h with
  | start => exact .start hb.keyed
  | pass _ tiles nodes faultless ih => exact (ih.of_eq tiles nodes).pass hb faultless

/-- **Who fires when.**  A node fires in a pass exactly if it takes part, everything that it is
bound to leads to nodes that fired in earlier passes and hold values, and one of these fired in the
pass just before, unless this is the first pass.  Nodes that are blocked never fire and stay as they
were asked to.  Once a pass fires nothing, no later one does, and this is so from the pass on whose
number is that of the nodes. -/
theorem firing_schedule (hb : b.NodesAgree) (h : Passes b rounds c) :
    (∀ n ∈ b.nodes.values, ∀ k < rounds.length,
      FiredIn rounds k n.id ↔ n.state ≠ .disabled ∧ b.Supplied rounds c k n ∧
        (k = 0 ∨ ∃ m, b.Reads n m ∧ ∃ j, j + 1 = k ∧ FiredIn rounds j m.id)) ∧
    (∀ n ∈ b.nodes.values, b.Blocked c n → n.id ∉ rounds.flatten ∧
      (n.state ≠ .disabled → c.nodes.get? n.id = some { n with state := .requested })) ∧
    (∀ (j k : Nat) ids, rounds[j]? = some [] → j ≤ k → rounds[k]? = some ids → ids = []) ∧
    (∀ (k : Nat) ids, b.nodes.size ≤ k → rounds[k]? = some ids → ids = []) := by
  have hw := h.wave hb
  refine ⟨fun n hn k hk => hw.firedIn_iff hn hk, fun n hn hblocked => ?_,
    fun j k ids hj hjk hk => hw.quiet hb.keyed hj hjk hk,
    fun k ids hsize hk => hw.quiet_of_size_le hb.keyed hsize hk⟩
  have hnot := hw.notMem_of_blocked hn hblocked
  exact ⟨hnot, fun hd => hw.waiting n hn hd hnot⟩

open Board in
/-- The product fires after the constant; the length waits for a cell outside the board. -/
theorem firing_schedule_relay : relay.NodesAgree ∧ ∃ c, Passes relay [[1, 3], [2], []] c ∧
    (∀ n ∈ relay.nodes.values, ∀ k < 3, FiredIn [[1, 3], [2], []] k n.id ↔
      n.state ≠ .disabled ∧ relay.Supplied [[1, 3], [2], []] c k n ∧
        (k = 0 ∨ ∃ m, relay.Reads n m ∧ ∃ j, j + 1 = k ∧ FiredIn [[1, 3], [2], []] j m.id)) ∧
    ∃ n, c.nodes.get? 4 = some n ∧ n.state = .requested := by
  have hb : relay.NodesAgree := by decide
  have hrun : ∃ c, Passes relay [[1, 3], [2], []] c := by
    have first := (Passes.start (b := relay)).pass rfl rfl
      (show (Pass.run relay.request []).fault = none by decide)
    have second := first.pass rfl rfl (show (Pass.run _ []).fault = none by decide)
    exact ⟨_, second.pass rfl rfl (show (Pass.run _ []).fault = none by decide)⟩
  obtain ⟨c, hc⟩ := hrun
  obtain ⟨hfires, hwaits, -⟩ := firing_schedule hb hc
  have hblocked : relay.Blocked c relay.nodes.values[3] :=
    .inr (.inl ⟨_, .refl, .north, by decide, rfl⟩)
  exact ⟨hb, c, hc, hfires, _,
    (hwaits _ (List.getElem_mem _) hblocked).2 (nomatch ·), rfl⟩

end Passes

end HexPulse
