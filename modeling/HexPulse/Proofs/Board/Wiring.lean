import HexPulse.Board.Reach
import HexPulse.Proofs.Board.History
import HexPulse.Proofs.Catalogue.Builtin

/-!
# HexPulse — Proofs — Board — Wiring

Binding looks up the port in the catalogue, so a node is bound to input ports of its kind and to no
others (`Board.Wired`).  Every edit keeps this, and so it holds all along a history
(`History.wired`).
-/

namespace HexPulse

variable {α : Type}

namespace Wiring

/-- Binding writes the port to the bindings, after the old binding of the port was taken away. -/
theorem inputs_bind {w w' : Wiring α} {d : Direction} {port : Port} (h : w.bind d port = .ok w') :
    ∃ t : Table Direction Port, (∀ p ∈ t.values, p ∈ w.inputs.values) ∧
      w'.inputs = t.insert d port := by
  rw [bind] at h
  split at h
  · split at h
    · cases h
      refine ⟨_, fun p hp => ?_, rfl⟩
      split at hp
      · exact Table.mem_values_of_mem_erase hp
      · exact hp
    · cases h
  · cases h
    refine ⟨_, fun p hp => ?_, rfl⟩
    split at hp
    · exact Table.mem_values_of_mem_erase hp
    · exact hp

/-- Binding adds one port. -/
theorem mem_ports_bind {w w' : Wiring α} {d : Direction} {port p : Port}
    (h : w.bind d port = .ok w') (hp : p ∈ w'.inputs.values) : p = port ∨ p ∈ w.inputs.values := by
  obtain ⟨t, ht, hinputs⟩ := inputs_bind h
  rw [hinputs] at hp
  exact (Table.mem_values_insert hp).imp_right (ht p)

theorem mem_ports_unbind {w : Wiring α} {d : Direction} {p : Port}
    (hp : p ∈ (w.unbind d).inputs.values) : p ∈ w.inputs.values :=
  Table.mem_values_of_mem_erase hp

end Wiring

namespace Board

/-- Every port that a node is bound to is an input port of its kind. -/
def Wired (b : Board α) : Prop :=
  ∀ n ∈ b.nodes.values, ∃ d, b.descriptor n = .ok d ∧ ∀ p ∈ n.wiring.inputs.values, p ∈ d.inputs

/-- A node that is found is in the table. -/
theorem get?_of_node_eq_ok {b : Board α} {id : Int} {n : Node α} (h : b.node id = .ok n) :
    b.nodes.get? id = some n := by
  rw [node] at h
  split at h
  · next hn => rw [hn, Except.ok.inj h]
  · cases h

theorem catalogue_prune [Scalar α] (b : Board α) : b.prune.board.catalogue = b.catalogue := rfl

namespace Wired

variable {b c : Board α}

/-- Some nodes remain, and they keep their kinds and their wiring. -/
theorem of_nodes (h : b.Wired) (catalogue : c.catalogue = b.catalogue)
    (nodes : ∀ m ∈ c.nodes.values, ∃ n ∈ b.nodes.values, m.kind = n.kind ∧ m.wiring = n.wiring) :
    c.Wired := by
  intro m hm
  obtain ⟨n, hn, hkind, hwiring⟩ := nodes m hm
  rw [descriptor, catalogue, hkind, hwiring]
  exact h n hn

theorem of_eq (h : b.Wired) (catalogue : c.catalogue = b.catalogue) (nodes : c.nodes = b.nodes) :
    c.Wired :=
  h.of_nodes catalogue fun m hm => ⟨m, nodes ▸ hm, rfl, rfl⟩

theorem emptied (h : b.Wired) (cell : Hex) : (b.emptied cell).Wired := by
  rw [Board.emptied]
  split
  · exact h.of_nodes rfl fun m hm => ⟨m, Table.mem_values_of_mem_erase hm, rfl, rfl⟩
  · exact h.of_eq rfl rfl
  · exact h.of_eq rfl rfl
  · exact h

theorem foldl_emptied (h : b.Wired) (cells : List Hex) : (cells.foldl Board.emptied b).Wired :=
  List.foldlRecOn cells _ h fun _ hc cell _ => hc.emptied cell

theorem prune [Scalar α] (h : b.Wired) : b.prune.board.Wired := by
  refine h.of_nodes rfl fun m hm => ?_
  rw [Board.prune, Table.values_mapValues, List.mem_map] at hm
  obtain ⟨n, hn, rfl⟩ := hm
  refine ⟨n, hn, ?_⟩
  rw [pruneNode]
  split
  · split <;> exact ⟨rfl, rfl⟩
  · exact ⟨rfl, rfl⟩

/-- A node was changed where it stands; its ports are those it had, or ports of its kind. -/
theorem updateNode (h : b.Wired) (hb : b.nodes.Keyed Node.id) {n : Node α} {id : Int}
    (hn : b.node id = .ok n) {f : Node α → Node α} (hkind : (f n).kind = n.kind)
    (hports : ∀ p ∈ (f n).wiring.inputs.values,
      p ∈ n.wiring.inputs.values ∨ ∃ d, b.descriptor n = .ok d ∧ p ∈ d.inputs) :
    (b.updateNode id f).Wired := by
  intro m hm
  rw [Board.updateNode, hb.modify_eq_mapValues, Table.values_mapValues, List.mem_map] at hm
  obtain ⟨k, hk, rfl⟩ := hm
  split
  · next hid =>
    have hget := hb.get?_eq_some_iff.mpr ⟨hk, hid⟩
    obtain rfl : k = n := Option.some.inj (hget.symm.trans (get?_of_node_eq_ok hn))
    obtain ⟨d, hd, hold⟩ := h k hk
    refine ⟨d, ?_, fun p hp => ?_⟩
    · rw [descriptor, hkind]
      exact hd
    · rcases hports p hp with hp | ⟨d', hd', hp⟩
      · exact hold p hp
      · rw [Except.ok.inj (hd.symm.trans hd')]
        exact hp
  · exact h k hk

/-- A direction is bound only to a port that the kind of the node has. -/
theorem bind (h : b.Wired) (hb : b.nodes.Keyed Node.id) {id : Int} {direction port : String}
    (hc : b.bind id direction port = .ok c) : c.Wired := by
  obtain ⟨n, hn, hc⟩ := exists_of_bind_eq_ok hc
  obtain ⟨d, hd, hc⟩ := exists_of_bind_eq_ok hc
  split at hc
  · cases hc
  · next p hp =>
    obtain ⟨_, -, hc⟩ := exists_of_bind_eq_ok hc
    obtain ⟨w, hw, hc⟩ := exists_of_bind_eq_ok hc
    obtain rfl := Except.ok.inj hc
    refine h.updateNode hb (of_mapError_eq_ok hn) rfl fun q hq => ?_
    rcases Wiring.mem_ports_bind (of_mapError_eq_ok hw) hq with rfl | hq
    · exact .inr ⟨d, of_mapError_eq_ok hd, List.mem_of_find?_eq_some hp⟩
    · exact .inl hq

/-- Setting a direction free leaves ports of the kind. -/
theorem unbind (h : b.Wired) (hb : b.nodes.Keyed Node.id) {id : Int} {direction : String}
    (hc : b.unbind id direction = .ok c) : c.Wired := by
  obtain ⟨n, hn, hc⟩ := exists_of_bind_eq_ok hc
  obtain ⟨_, -, hc⟩ := exists_of_bind_eq_ok hc
  obtain rfl := Except.ok.inj hc
  exact h.updateNode hb (of_mapError_eq_ok hn) rfl fun q hq => .inl (Wiring.mem_ports_unbind hq)

theorem setConstant (h : b.Wired) (hb : b.nodes.Keyed Node.id) {id : Int}
    {value : Option (Value α)} (hc : b.setConstant id value = .ok c) : c.Wired := by
  obtain ⟨n, hn, hc⟩ := exists_of_bind_eq_ok hc
  obtain ⟨_, -, hc⟩ := exists_of_bind_eq_ok hc
  split at hc
  · obtain rfl := Except.ok.inj hc
    exact h.updateNode hb (of_mapError_eq_ok hn) rfl fun q hq => .inl hq
  · cases hc

/-- A new node is bound to nothing. -/
theorem placeNode (h : b.Wired) (hb : b.catalogue = .builtin) {cell : Hex} {kind : String}
    {n : Node α} (hc : b.placeNode cell kind = .ok (n, c)) : c.Wired := by
  obtain ⟨d, hd, hc⟩ := exists_of_bind_eq_ok hc
  obtain ⟨⟨i, _⟩, hclaim, hc⟩ := exists_of_bind_eq_ok hc
  obtain ⟨-, rfl⟩ := Prod.mk.inj (Except.ok.inj hc)
  obtain ⟨-, -, rfl⟩ := claim_eq_ok (of_mapError_eq_ok hclaim)
  intro m hm
  rcases Table.mem_values_insert hm with rfl | hm
  · refine ⟨d, ?_, fun p hp => nomatch hp⟩
    rw [descriptor]
    dsimp only
    have hd := of_mapError_eq_ok hd
    rw [hb] at hd ⊢
    rwa [Catalogue.name_of_find hd]
  · exact h m hm

/-- **An edit binds nodes to ports of their kinds only.** -/
theorem edit [Scalar α] (h : b.Wired) (hb : b.Consistent) (hcatalogue : b.catalogue = .builtin)
    {e : Edit α} {id : Option Int} (hc : b.edit e = .ok (id, c)) : c.Wired := by
  have hkeyed := hb.nodes.keyed
  cases e with
  | placeNode cell kind =>
    obtain ⟨⟨n, d⟩, hplace, e⟩ := exists_of_map_eq_ok hc
    obtain ⟨-, rfl⟩ := Prod.mk.inj e
    exact h.placeNode hcatalogue hplace
  | placeHeart cell =>
    obtain ⟨⟨v, d⟩, hplace, e⟩ := exists_of_map_eq_ok hc
    obtain ⟨-, rfl⟩ := Prod.mk.inj e
    obtain ⟨⟨i, _⟩, hclaim, hplace⟩ := exists_of_bind_eq_ok (of_mapError_eq_ok hplace)
    obtain ⟨-, rfl⟩ := Prod.mk.inj (Except.ok.inj hplace)
    obtain ⟨-, -, rfl⟩ := claim_eq_ok hclaim
    exact h.of_eq rfl rfl
  | placeTerrain cell health =>
    obtain ⟨⟨t, d⟩, hplace, e⟩ := exists_of_map_eq_ok hc
    obtain ⟨-, rfl⟩ := Prod.mk.inj e
    obtain ⟨⟨i, _⟩, hclaim, hplace⟩ := exists_of_bind_eq_ok (of_mapError_eq_ok hplace)
    obtain ⟨-, rfl⟩ := Prod.mk.inj (Except.ok.inj hplace)
    obtain ⟨-, -, rfl⟩ := claim_eq_ok hclaim
    exact h.of_eq rfl rfl
  | clearCell cell =>
    obtain ⟨⟨t, d⟩, hclear, e⟩ := exists_of_map_eq_ok hc
    obtain ⟨-, rfl⟩ := Prod.mk.inj e
    obtain rfl := eq_emptied_of_clearCell (of_mapError_eq_ok hclear)
    exact h.emptied cell
  | removeNode i =>
    obtain ⟨⟨n, d⟩, hremove, e⟩ := exists_of_map_eq_ok hc
    obtain ⟨-, rfl⟩ := Prod.mk.inj e
    obtain rfl := eq_emptied_of_removeNode (of_mapError_eq_ok hremove)
    exact h.emptied _
  | reapDead =>
    obtain ⟨-, rfl⟩ := Prod.mk.inj (Except.ok.inj hc)
    exact h.foldl_emptied _
  | bind i direction port =>
    obtain ⟨_, hbind, e⟩ := exists_of_map_eq_ok hc
    obtain ⟨-, rfl⟩ := Prod.mk.inj e
    exact h.bind hkeyed hbind
  | unbind i direction =>
    obtain ⟨_, hunbind, e⟩ := exists_of_map_eq_ok hc
    obtain ⟨-, rfl⟩ := Prod.mk.inj e
    exact h.unbind hkeyed hunbind
  | setConstant i value =>
    obtain ⟨_, hset, e⟩ := exists_of_map_eq_ok hc
    obtain ⟨-, rfl⟩ := Prod.mk.inj e
    exact h.setConstant hkeyed hset
  | nodeHealth i health =>
    obtain ⟨-, rfl⟩ := Prod.mk.inj (Except.ok.inj hc)
    refine h.of_nodes rfl fun m hm => ?_
    rcases Table.mem_values_modify hm with hm | ⟨n, hn, rfl⟩
    · exact ⟨m, hm, rfl, rfl⟩
    · exact ⟨n, hn, rfl, rfl⟩
  | heartHealth i health =>
    obtain ⟨-, rfl⟩ := Prod.mk.inj (Except.ok.inj hc)
    exact h.of_eq rfl rfl
  | terrainHealth i health =>
    obtain ⟨-, rfl⟩ := Prod.mk.inj (Except.ok.inj hc)
    exact h.of_eq rfl rfl

end Wired

end Board

/-- **All along a history nodes are bound to ports of their kinds only.** -/
theorem History.wired [Scalar α] (settings : Settings α) (edits : List (Edit α)) :
    (History.of .builtin settings edits).board.Wired := by
  suffices ∀ h : History α, h.Sound .builtin settings → h.board.Wired →
      (edits.foldl History.next h).board.Wired from
    this _ .start fun n hn => nomatch hn
  induction edits with
  | nil => exact fun _ _ hw => hw
  | cons e edits ih =>
    intro h hs hw
    refine ih _ (hs.next e) ?_
    rw [History.next]
    split
    · next hedit => exact hw.edit hs.consistent hs.catalogue hedit
    · exact hw

end HexPulse
