import HexPulse.Proofs.Board.Reachable

/-!
# HexPulse — Proofs — Board — Matching

Bindings as a matching of directions and ports: no direction and no port is bound twice, and only
ports of the kind are bound, so it makes no difference whether a port is looked up by its name or
by its id.

* `Wiring.Distinct.entries_bind`: what binding does to the bindings, in order.
* `Board.rewired_edit`: what an edit makes of the bindings of any node.
* `Board.Reachable.matched`: the nodes of a board that comes from an empty one are bound like this.
-/

namespace HexPulse

variable {α : Type}

/-! ### The bindings of one node -/

namespace Wiring

/-- No direction is bound twice, and no port. -/
structure Distinct (w : Wiring α) : Prop where
  directions : w.inputs.keys.Nodup
  ports : (w.inputs.values.map Port.id).Nodup

/-- Binding is refused exactly if the direction holds another port. -/
theorem bind_eq_error_iff {w : Wiring α} {d : Direction} {p : Port} {e : WiringError} :
    w.bind d p = .error e ↔
      ∃ q, w.inputs.get? d = some q ∧ q.id ≠ p.id ∧ e = .directionTaken d q.name := by
  rw [bind]
  cases hq : w.inputs.get? d with
  | none =>
    constructor
    · intro h
      cases h
    · rintro ⟨_, h, -⟩
      cases h
  | some q =>
    dsimp only
    split
    · next hid =>
      constructor
      · intro h
        cases h
      · rintro ⟨q', h, hne, -⟩
        obtain rfl := Option.some.inj h
        exact absurd hid hne
    · next hid =>
      constructor
      · intro h
        exact ⟨q, rfl, hid, (Except.error.inj h).symm⟩
      · rintro ⟨q', h, -, rfl⟩
        rw [Option.some.inj h]

/-- A direction that is bound already can be bound to the same port only. -/
theorem id_eq_of_bind {w w' : Wiring α} {d : Direction} {p q : Port} (hb : w.bind d p = .ok w')
    (hq : w.inputs.get? d = some q) : q.id = p.id := by
  by_contra hne
  cases hb.symm.trans (bind_eq_error_iff.mpr ⟨q, hq, hne, rfl⟩)

namespace Distinct

variable {w w' : Wiring α} {d : Direction} {p : Port}

theorem empty : (Wiring.empty : Wiring α).Distinct := ⟨List.nodup_nil, List.nodup_nil⟩

/-- A port is bound once. -/
theorem eq_of_id (h : w.Distinct) {e e' : Direction × Port} (he : e ∈ w.inputs.entries)
    (he' : e' ∈ w.inputs.entries) (hid : e.2.id = e'.2.id) : e = e' := by
  have hports := h.ports
  rw [Table.values, List.map_map] at hports
  exact List.inj_on_of_nodup_map hports he he' hid

/-- Some bindings are gone, the others are as they were. -/
theorem of_sublist (h : w.Distinct) (hw : w'.inputs.entries.Sublist w.inputs.entries) :
    w'.Distinct :=
  ⟨h.directions.sublist (hw.map _), h.ports.sublist ((hw.map _).map _)⟩

theorem unbind (h : w.Distinct) (d : Direction) : (w.unbind d).Distinct :=
  h.of_sublist List.filter_sublist

/-- Taking away the direction of a port takes away this port alone. -/
theorem entries_stale (h : w.Distinct) (p : Port) :
    (match w.directionOfPort? p with
      | some stale => w.inputs.erase stale
      | none => w.inputs).entries = w.inputs.entries.filter fun e => e.2.id ≠ p.id := by
  cases hstale : w.directionOfPort? p with
  | none =>
    rw [directionOfPort?, directionWhere?, Option.map_eq_none_iff, List.find?_eq_none] at hstale
    refine (List.filter_eq_self.mpr fun e he => ?_).symm
    have := hstale e he
    rw [decide_eq_true_eq] at this
    exact decide_eq_true this
  | some stale =>
    obtain ⟨e, he, rfl⟩ := Option.map_eq_some_iff.mp hstale
    have hid := List.find?_some he
    rw [decide_eq_true_eq] at hid
    have hmem := List.mem_of_find?_eq_some he
    refine List.filter_congr fun e' he' => ?_
    -- a binding has the direction of `e` exactly if it has the port of `e`
    have hiff : e'.1 = e.1 ↔ e'.2.id = p.id := by
      rw [← hid]
      refine ⟨fun hkey => ?_, fun hport => ?_⟩
      · rw [List.inj_on_of_nodup_map h.directions he' hmem hkey]
      · rw [h.eq_of_id he' hmem hport]
    simp only [ne_eq, hiff]

/-- **Binding takes away the old binding of the port and puts the new one last.** -/
theorem entries_bind (h : w.Distinct) (hb : w.bind d p = .ok w') :
    w'.inputs.entries = (w.inputs.entries.filter fun e => e.2.id ≠ p.id) ++ [(d, p)] ∧
      w'.constant = w.constant := by
  have hstale := h.entries_stale p
  have hrebound : w' = { w with inputs := (match w.directionOfPort? p with
      | some stale => w.inputs.erase stale
      | none => w.inputs).insert d p } := by
    rw [Wiring.bind] at hb
    split at hb
    · split at hb
      · exact (Except.ok.inj hb).symm
      · cases hb
    · exact (Except.ok.inj hb).symm
  subst hrebound
  refine ⟨?_, rfl⟩
  dsimp only
  rw [Table.entries_insert_of_notMem ?_ p, hstale]
  rw [Table.keys, hstale, List.mem_map]
  -- the direction held nothing before, or the port itself, which was taken away
  rintro ⟨e, he, rfl⟩
  obtain ⟨he, hne⟩ := List.mem_filter.mp he
  have hheld := (Table.get?_eq_some_iff_mem h.directions).mpr he
  exact of_decide_eq_true hne (id_eq_of_bind hb hheld)

/-- **Binding a port takes its old binding away**, so that no port is bound twice. -/
theorem bind (h : w.Distinct) (hb : w.bind d p = .ok w') : w'.Distinct := by
  obtain ⟨hentries, -⟩ := h.entries_bind hb
  have hrest : (⟨⟨w.inputs.entries.filter fun e => e.2.id ≠ p.id⟩, none⟩ : Wiring α).Distinct :=
    h.of_sublist List.filter_sublist
  constructor
  · rw [Table.keys, hentries, List.map_append, List.nodup_append]
    refine ⟨hrest.directions, List.nodup_singleton _, fun x hx y hy e => ?_⟩
    obtain rfl : y = d := List.mem_singleton.mp hy
    obtain ⟨e', he', rfl⟩ := List.mem_map.mp hx
    obtain ⟨he', hne⟩ := List.mem_filter.mp he'
    have hheld := (Table.get?_eq_some_iff_mem h.directions).mpr he'
    rw [e] at hheld
    exact of_decide_eq_true hne (id_eq_of_bind hb hheld)
  · rw [Table.values, hentries, List.map_append, List.map_append, List.nodup_append]
    refine ⟨hrest.ports, List.nodup_singleton _, fun x hx y hy e => ?_⟩
    obtain rfl : y = p.id := List.mem_singleton.mp hy
    obtain ⟨q, hq, rfl⟩ := List.mem_map.mp hx
    obtain ⟨e', he', rfl⟩ := List.mem_map.mp hq
    exact of_decide_eq_true (List.mem_filter.mp he').2 e

/-- The port is found where it was bound. -/
theorem directionWhere?_bind_self (h : w.Distinct) (hb : w.bind d p = .ok w') {test : Port → Bool}
    (hp : test p) (hrest : ∀ q ∈ w.inputs.values, q.id ≠ p.id → test q = false) :
    w'.directionWhere? test = some d := by
  have hnone : (w.inputs.entries.filter fun e => e.2.id ≠ p.id).find? (fun e => test e.2) =
      none := by
    refine List.find?_eq_none.mpr fun e he ht => ?_
    obtain ⟨he, hne⟩ := List.mem_filter.mp he
    have := hrest e.2 (List.mem_map_of_mem he) (of_decide_eq_true hne)
    rw [this] at ht
    cases ht
  have hlast : [(d, p)].find? (fun e => test e.2) = some (d, p) := List.find?_cons_of_pos hp
  rw [directionWhere?, (h.entries_bind hb).1, List.find?_append, hnone, Option.none_or, hlast]
  rfl

/-- Every other port is found where it was. -/
theorem directionWhere?_bind_of_ne (h : w.Distinct) (hb : w.bind d p = .ok w')
    {test : Port → Bool} (hp : test p = false)
    (hrest : ∀ q ∈ w.inputs.values, test q → q.id ≠ p.id) :
    w'.directionWhere? test = w.directionWhere? test := by
  have hfilter : (w.inputs.entries.filter fun e => e.2.id ≠ p.id).find? (fun e => test e.2) =
      w.inputs.entries.find? fun e => test e.2 := by
    rw [← List.head?_filter, ← List.head?_filter, List.filter_filter]
    refine congrArg List.head? (List.filter_congr fun e he => ?_)
    cases ht : test e.2 with
    | false => rfl
    | true => exact decide_eq_true (hrest e.2 (List.mem_map_of_mem he) ht)
  have hlast : [(d, p)].find? (fun e => test e.2) = none :=
    List.find?_cons_of_neg (Bool.eq_false_iff.mp hp)
  rw [directionWhere?, directionWhere?, (h.entries_bind hb).1, List.find?_append, hfilter, hlast,
    Option.or_none]

end Distinct

end Wiring

/-! ### The ports of a kind -/

/-- The input ports of a kind are known by their ids as well as by their names. -/
structure Descriptor.Distinct (d : Descriptor) : Prop where
  ids : (d.inputs.map Port.id).Nodup
  names : (d.inputs.map Port.name).Nodup

namespace Descriptor.Distinct

variable {d : Descriptor} {p q : Port}

/-- The ports of every built-in kind are distinct. -/
theorem of_find {name : String} (h : Catalogue.builtin.find name = .ok d) : d.Distinct :=
  ⟨Catalogue.nodup_ports_of_find h, Catalogue.nodup_port_names_of_find h⟩

/-- The inputs of a kind are told apart by their ids. -/
theorem id_eq_iff (h : d.Distinct) (hp : p ∈ d.inputs) (hq : q ∈ d.inputs) :
    p.id = q.id ↔ p = q :=
  ⟨List.inj_on_of_nodup_map h.ids hp hq, congrArg _⟩

theorem name_eq_iff (h : d.Distinct) (hp : p ∈ d.inputs) (hq : q ∈ d.inputs) :
    p.name = q.name ↔ p = q :=
  ⟨List.inj_on_of_nodup_map h.names hp hq, congrArg _⟩

/-- A port of the kind is found by its name. -/
theorem input?_name (h : d.Distinct) (hp : p ∈ d.inputs) : d.input? p.name = some p := by
  cases hq : d.input? p.name with
  | none =>
    have := List.find?_eq_none.mp hq p hp
    exact absurd (decide_eq_true rfl) this
  | some q =>
    obtain ⟨hq, hname⟩ := Descriptor.input?_eq_some hq
    rw [(h.name_eq_iff hq hp).mp hname]

end Descriptor.Distinct

/-- Where ports of one kind are bound, binding one of them is seen under its name and under no
other. -/
theorem Wiring.Distinct.directionOf?_bind {w w' : Wiring α} {d : Descriptor} {dir : Direction}
    {p : Port} (h : w.Distinct) (declared : ∀ q ∈ w.inputs.values, q ∈ d.inputs) (hd : d.Distinct)
    (hp : p ∈ d.inputs) (hb : w.bind dir p = .ok w') :
    w'.directionOf? p.name = some dir ∧
      ∀ q ≠ p.name, w'.directionOf? q = w.directionOf? q := by
  constructor
  · refine h.directionWhere?_bind_self hb (decide_eq_true rfl) fun q hq hne => ?_
    refine decide_eq_false fun e => hne ?_
    rw [(hd.name_eq_iff (declared q hq) hp).mp e]
  · intro q hq
    refine h.directionWhere?_bind_of_ne hb (decide_eq_false fun e => hq e.symm)
      fun q' hq' e hid => ?_
    rw [decide_eq_true_eq] at e
    rw [(hd.id_eq_iff (declared q' hq') hp).mp hid] at e
    exact hq e.symm

/-- A node of a board is bound as its kind allows. -/
structure Board.Matched (b : Board α) (n : Node α) (d : Descriptor) : Prop where
  descriptor : b.descriptor n = .ok d
  distinct : n.wiring.Distinct
  declared : ∀ p ∈ n.wiring.inputs.values, p ∈ d.inputs
  lookup : ∀ p ∈ d.inputs, n.wiring.directionOf? p.name = n.wiring.directionOfPort? p

/-! ### Directions by name -/

namespace Direction

theorem ofName?_eq_some_iff {s : String} {d : Direction} : ofName? s = some d ↔ d.name = s := by
  constructor
  · intro h
    have hname := List.find?_some h
    rwa [decide_eq_true_eq] at hname
  · rintro rfl
    cases d <;> decide

theorem ofName?_eq_none_iff {s : String} : ofName? s = none ↔ ∀ d : Direction, d.name ≠ s := by
  rw [ofName?, List.find?_eq_none]
  refine ⟨fun h d e => h d d.mem_all (decide_eq_true e), fun h d _ e => ?_⟩
  exact h d (of_decide_eq_true e)

end Direction

namespace Board

/-! ### Bindings along the life of a board -/

/-- The wirings that one edit can lead to. -/
inductive Rewired (b : Board α) : Wiring α → Prop where
  | empty : Rewired b .empty
  | kept {n : Node α} (hn : n ∈ b.nodes.values) : Rewired b n.wiring
  | bound {n : Node α} (hn : n ∈ b.nodes.values) {d : Direction} {p : Port} {w : Wiring α}
      (h : n.wiring.bind d p = .ok w) : Rewired b w
  | unbound {n : Node α} (hn : n ∈ b.nodes.values) (d : Direction) : Rewired b (n.wiring.unbind d)
  | constant {n : Node α} (hn : n ∈ b.nodes.values) (value : Option (Value α)) :
      Rewired b { n.wiring with constant := value }

theorem mem_nodes_emptied {b : Board α} {cell : Hex} {m : Node α}
    (hm : m ∈ (b.emptied cell).nodes.values) : m ∈ b.nodes.values := by
  rw [emptied] at hm
  split at hm
  · exact Table.mem_values_of_mem_erase hm
  · exact hm
  · exact hm
  · exact hm

theorem mem_nodes_foldl_emptied {b : Board α} {cells : List Hex} {m : Node α}
    (hm : m ∈ (cells.foldl emptied b).nodes.values) : m ∈ b.nodes.values := by
  induction cells generalizing b with
  | nil => exact hm
  | cons cell cells ih => exact mem_nodes_emptied (ih hm)

/-- **What an edit makes of the bindings of any node.** -/
theorem rewired_edit [Scalar α] {b c : Board α} {e : Edit α} {id : Option Int}
    (h : b.edit e = .ok (id, c)) {m : Node α} (hm : m ∈ c.nodes.values) :
    b.Rewired m.wiring := by
  cases e with
  | placeNode cell kind =>
    obtain ⟨⟨n, d⟩, hplace, e⟩ := exists_of_map_eq_ok h
    obtain ⟨-, rfl⟩ := Prod.mk.inj e
    obtain ⟨_, -, hplace⟩ := exists_of_bind_eq_ok hplace
    obtain ⟨⟨i, _⟩, hclaim, hplace⟩ := exists_of_bind_eq_ok hplace
    obtain ⟨-, rfl⟩ := Prod.mk.inj (Except.ok.inj hplace)
    rcases Table.mem_values_insert hm with rfl | hm
    · exact .empty
    · exact .kept hm
  | placeHeart cell =>
    obtain ⟨⟨v, d⟩, hplace, e⟩ := exists_of_map_eq_ok h
    obtain ⟨-, rfl⟩ := Prod.mk.inj e
    rw [(rest_of_placeHeart (of_mapError_eq_ok hplace)).1] at hm
    exact .kept hm
  | placeTerrain cell health =>
    obtain ⟨⟨t, d⟩, hplace, e⟩ := exists_of_map_eq_ok h
    obtain ⟨-, rfl⟩ := Prod.mk.inj e
    rw [(rest_of_placeTerrain (of_mapError_eq_ok hplace)).1] at hm
    exact .kept hm
  | clearCell cell =>
    obtain ⟨⟨t, d⟩, hclear, e⟩ := exists_of_map_eq_ok h
    obtain ⟨-, rfl⟩ := Prod.mk.inj e
    obtain rfl := eq_emptied_of_clearCell (of_mapError_eq_ok hclear)
    exact .kept (mem_nodes_emptied hm)
  | removeNode i =>
    obtain ⟨⟨n, d⟩, hremove, e⟩ := exists_of_map_eq_ok h
    obtain ⟨-, rfl⟩ := Prod.mk.inj e
    obtain rfl := eq_emptied_of_removeNode (of_mapError_eq_ok hremove)
    exact .kept (mem_nodes_emptied hm)
  | reapDead =>
    obtain ⟨-, rfl⟩ := Prod.mk.inj (Except.ok.inj h)
    exact .kept (mem_nodes_foldl_emptied hm)
  | bind i direction port =>
    obtain ⟨_, hbind, e⟩ := exists_of_map_eq_ok h
    obtain ⟨-, rfl⟩ := Prod.mk.inj e
    obtain ⟨n, hn, hbind⟩ := exists_of_bind_eq_ok hbind
    obtain ⟨_, -, hbind⟩ := exists_of_bind_eq_ok hbind
    have hn := Table.mem_values_of_get? (get?_of_node_eq_ok (of_mapError_eq_ok hn))
    split at hbind
    · cases hbind
    · obtain ⟨_, -, hbind⟩ := exists_of_bind_eq_ok hbind
      obtain ⟨w, hw, hbind⟩ := exists_of_bind_eq_ok hbind
      obtain rfl := Except.ok.inj hbind
      rcases Table.mem_values_modify hm with hm | ⟨_, -, rfl⟩
      · exact .kept hm
      · exact .bound hn (of_mapError_eq_ok hw)
  | unbind i direction =>
    obtain ⟨_, hunbind, e⟩ := exists_of_map_eq_ok h
    obtain ⟨-, rfl⟩ := Prod.mk.inj e
    obtain ⟨n, hn, hunbind⟩ := exists_of_bind_eq_ok hunbind
    obtain ⟨d, -, hunbind⟩ := exists_of_bind_eq_ok hunbind
    obtain rfl := Except.ok.inj hunbind
    have hn := Table.mem_values_of_get? (get?_of_node_eq_ok (of_mapError_eq_ok hn))
    rcases Table.mem_values_modify hm with hm | ⟨_, -, rfl⟩
    · exact .kept hm
    · exact .unbound hn d
  | setConstant i value =>
    obtain ⟨_, hset, e⟩ := exists_of_map_eq_ok h
    obtain ⟨-, rfl⟩ := Prod.mk.inj e
    obtain ⟨_, -, hset⟩ := exists_of_bind_eq_ok hset
    obtain ⟨_, -, hset⟩ := exists_of_bind_eq_ok hset
    split at hset
    · obtain rfl := Except.ok.inj hset
      rcases Table.mem_values_modify hm with hm | ⟨n, hn, rfl⟩
      · exact .kept hm
      · exact .constant hn value
    · cases hset
  | nodeHealth i health =>
    obtain ⟨-, rfl⟩ := Prod.mk.inj (Except.ok.inj h)
    rcases Table.mem_values_modify hm with hm | ⟨n, hn, rfl⟩
    · exact .kept hm
    · exact .kept (n := n) hn
  | heartHealth i health =>
    obtain ⟨-, rfl⟩ := Prod.mk.inj (Except.ok.inj h)
    exact .kept hm
  | terrainHealth i health =>
    obtain ⟨-, rfl⟩ := Prod.mk.inj (Except.ok.inj h)
    exact .kept hm

/-- Nothing is bound twice, at any node. -/
def Distinct (b : Board α) : Prop := ∀ n ∈ b.nodes.values, n.wiring.Distinct

/-- Some nodes remain, with the bindings that they had. -/
theorem Distinct.of_nodes {b c : Board α} (h : b.Distinct)
    (nodes : ∀ m ∈ c.nodes.values, ∃ n ∈ b.nodes.values, m.kind = n.kind ∧ m.wiring = n.wiring) :
    c.Distinct := by
  intro m hm
  obtain ⟨n, hn, -, hwiring⟩ := nodes m hm
  rw [hwiring]
  exact h n hn

/-- An edit rewires a node without binding a port twice. -/
theorem Distinct.of_rewired {b : Board α} (h : b.Distinct) {w : Wiring α} (hw : b.Rewired w) :
    w.Distinct := by
  cases hw with
  | empty => exact .empty
  | kept hn => exact h _ hn
  | bound hn hw => exact (h _ hn).bind hw
  | unbound hn d => exact (h _ hn).unbind d
  | constant hn value => exact ⟨(h _ hn).directions, (h _ hn).ports⟩

namespace Reachable

variable [Scalar α] {catalogue : Catalogue} {settings : Settings α} {b : Board α}

/-- No node of a board that comes from an empty one has a port bound twice. -/
theorem distinct (h : b.Reachable catalogue settings) : b.Distinct := by
  induction h with
  | new => exact fun n hn => nomatch hn
  | edit _ edited ih => exact fun m hm => ih.of_rewired (rewired_edit edited hm)
  | prune _ ih => exact ih.of_nodes fun _ => exists_of_mem_prune
  | request _ ih => exact ih.of_nodes fun _ => exists_of_mem_request
  | @pass b _ sink ih => exact ih.of_nodes fun _ hm => (Fired.run b sink).exists_of_mem hm
  | targets _ ts ih => exact ih
  | hearts _ t sites ih => exact ih

/-- The ports of a kind that stands on the board are told apart by their ids and their names. -/
theorem descriptor_distinct (h : b.Reachable .builtin settings) {n : Node α} {d : Descriptor}
    (hd : b.descriptor n = .ok d) : d.Distinct := by
  rw [Board.descriptor, h.fixed.2] at hd
  exact .of_find hd

/-- Every node of a board with the built-in kinds matches the descriptor of its kind. -/
theorem matched (h : b.Reachable .builtin settings) {n : Node α} (hn : n ∈ b.nodes.values) :
    ∃ d, b.Matched n d := by
  obtain ⟨d, hd, hports⟩ := h.wired n hn
  refine ⟨d, hd, h.distinct n hn, hports, fun p hp => ?_⟩
  have hdistinct := h.descriptor_distinct hd
  rw [Wiring.directionOf?, Wiring.directionOfPort?, Wiring.directionWhere?, Wiring.directionWhere?,
    ← List.head?_filter, ← List.head?_filter]
  refine congrArg (fun es => Option.map _ (List.head? es)) (List.filter_congr fun e he => ?_)
  have hq := hports e.2 (List.mem_map_of_mem he)
  simp only [hdistinct.name_eq_iff hq hp, hdistinct.id_eq_iff hq hp]

end Reachable

end Board

end HexPulse
