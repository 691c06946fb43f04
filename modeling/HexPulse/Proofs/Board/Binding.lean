import HexPulse.Proofs.Board.Matching

/-!
# HexPulse — Proofs — Board — Binding

Binding a port of a node, on boards that come from an empty one: when it is refused, and what it
does otherwise.

* `Board.Reachable.bind_refused_iff`: the reasons for which binding is refused.
* `Board.Reachable.binds`: binding changes what one port faces and nothing else.
* `Board.Reachable.binding`: both, after any edits.
-/

namespace HexPulse

variable {α : Type}

namespace Board

/-! ### When binding is refused -/

/-- Why binding a port of a node is refused, in the order in which it is checked. -/
inductive BindRefused (b : Board α) (id : Int) (direction port : String) : Refusal → Prop where
  | node (h : b.nodes.get? id = none) :
      BindRefused b id direction port (.board (.unknownNode id))
  | port {n : Node α} {d : Descriptor} (hn : b.nodes.get? id = some n)
      (hd : b.descriptor n = .ok d) (h : ∀ p ∈ d.inputs, p.name ≠ port) :
      BindRefused b id direction port (.wiring (.noInput n.kind port))
  | direction {n : Node α} {d : Descriptor} {p : Port} (hn : b.nodes.get? id = some n)
      (hd : b.descriptor n = .ok d) (hp : p ∈ d.inputs) (hname : p.name = port)
      (h : ∀ dir : Direction, dir.name ≠ direction) :
      BindRefused b id direction port (.wiring (.unknownDirection direction))
  | taken {n : Node α} {d : Descriptor} {p q : Port} {dir : Direction}
      (hn : b.nodes.get? id = some n) (hd : b.descriptor n = .ok d) (hp : p ∈ d.inputs)
      (hname : p.name = port) (hdir : dir.name = direction)
      (hq : n.wiring.inputs.get? dir = some q) (hne : q ≠ p) :
      BindRefused b id direction port (.wiring (.directionTaken dir q.name))

/-- A node is unknown exactly if the table has no entry for the id. -/
theorem node_eq_error_iff {b : Board α} {id : Int} {e : BoardError} :
    b.node id = .error e ↔ b.nodes.get? id = none ∧ e = .unknownNode id := by
  rw [Board.node]
  cases b.nodes.get? id with
  | none => exact ⟨fun he => ⟨rfl, (Except.error.inj he).symm⟩, fun he => congrArg _ he.2.symm⟩
  | some n =>
    constructor
    · intro he
      cases he
    · rintro ⟨h, -⟩
      cases h

theorem node_eq_ok {b : Board α} {id : Int} {n : Node α} (h : b.nodes.get? id = some n) :
    b.node id = .ok n := by
  rw [node, h]

/-- A direction is unknown exactly if it is none of the six names. -/
theorem direction_eq_error_iff {name : String} {e : WiringError} :
    direction name = .error e ↔ (∀ d : Direction, d.name ≠ name) ∧ e = .unknownDirection name := by
  rw [← Direction.ofName?_eq_none_iff, direction]
  cases Direction.ofName? name with
  | none => exact ⟨fun he => ⟨rfl, (Except.error.inj he).symm⟩, fun he => congrArg _ he.2.symm⟩
  | some n =>
    constructor
    · intro he
      cases he
    · rintro ⟨h, -⟩
      cases h

theorem direction_name (d : Direction) : direction d.name = .ok d := by
  rw [direction, Direction.ofName?_eq_some_iff.mpr rfl]

section Bind

variable {b : Board α} {id : Int} {n : Node α} {d : Descriptor} {directionName port : String}

/-- What is left to do once the node is found. -/
theorem bind_of_get? (hn : b.nodes.get? id = some n) (hd : b.descriptor n = .ok d) :
    b.bind id directionName port =
      match d.input? port with
      | none => .error (.wiring (.noInput n.kind port))
      | some p => ((direction directionName).mapError .wiring) >>= fun dir =>
          ((n.wiring.bind dir p).mapError .wiring) >>= fun w =>
            .ok (b.updateNode id fun m => { m with wiring := w }) := by
  rw [bind, node_eq_ok hn]
  change (b.descriptor n).mapError Refusal.kind >>= _ = _
  rw [hd]
  rfl

end Bind

namespace Reachable

variable [Scalar α] {settings : Settings α} {b : Board α} {id : Int} {directionName port : String}

/-- **Binding is refused in these cases and in no others.** -/
theorem bind_refused_iff (hb : b.Reachable .builtin settings) {r : Refusal} :
    b.bind id directionName port = .error r ↔ b.BindRefused id directionName port r := by
  constructor
  · intro h
    cases hn : b.nodes.get? id with
    | none =>
      rw [Board.bind, node_eq_error_iff.mpr ⟨hn, rfl⟩] at h
      cases h
      exact .node hn
    | some n =>
      obtain ⟨d, hm⟩ := hb.matched (Table.mem_values_of_get? hn)
      rw [bind_of_get? hn hm.descriptor] at h
      cases hp : d.input? port with
      | none =>
        rw [hp] at h
        cases h
        refine .port hn hm.descriptor fun p hp' hname => ?_
        exact List.find?_eq_none.mp hp p hp' (decide_eq_true hname)
      | some p =>
        rw [hp] at h
        obtain ⟨hmem, hname⟩ := Descriptor.input?_eq_some hp
        cases hdir : Direction.ofName? directionName with
        | none =>
          have hdir := Direction.ofName?_eq_none_iff.mp hdir
          rw [direction_eq_error_iff.mpr ⟨hdir, rfl⟩] at h
          cases h
          exact .direction hn hm.descriptor hmem hname hdir
        | some dir =>
          obtain rfl := Direction.ofName?_eq_some_iff.mp hdir
          rw [direction_name] at h
          rcases bind_eq_error_iff.mp h with h | ⟨dir', hdir', h⟩
          · cases h
          · obtain rfl := Except.ok.inj hdir'
            rcases bind_eq_error_iff.mp h with h | ⟨w, -, h⟩
            · obtain ⟨e, he, rfl⟩ := mapError_eq_error_iff.mp h
              obtain ⟨q, hq, hid, rfl⟩ := Wiring.bind_eq_error_iff.mp he
              exact .taken hn hm.descriptor hmem hname rfl hq fun e => hid (congrArg _ e)
            · cases h
  · intro h
    cases h with
    | node hn =>
      rw [Board.bind, node_eq_error_iff.mpr ⟨hn, rfl⟩]
      rfl
    | port hn hd h =>
      have hnone : Descriptor.input? _ port = none :=
        List.find?_eq_none.mpr fun p hp hname => h p hp (of_decide_eq_true hname)
      rw [bind_of_get? hn hd, hnone]
    | direction hn hd hp hname h =>
      rw [bind_of_get? hn hd, ← hname, (hb.descriptor_distinct hd).input?_name hp,
        direction_eq_error_iff.mpr ⟨h, rfl⟩]
      rfl
    | taken hn hd hp hname hdir hq hne =>
      -- the port that is held belongs to the kind, so it has another id
      obtain ⟨d', hm⟩ := hb.matched (Table.mem_values_of_get? hn)
      obtain rfl := Except.ok.inj (hm.descriptor.symm.trans hd)
      have hheld := hm.declared _ (Table.mem_values_of_get? hq)
      have hid := hne ∘ ((hb.descriptor_distinct hd).id_eq_iff hheld hp).mp
      rw [bind_of_get? hn hd, ← hname, (hb.descriptor_distinct hd).input?_name hp, ← hdir,
        direction_name]
      change (Wiring.bind _ _ _).mapError Refusal.wiring >>= _ = _
      rw [Wiring.bind_eq_error_iff.mpr ⟨_, hq, hid, rfl⟩]
      rfl

/-- Binding is refused if the node, the port or the direction is unknown, or if the direction holds
another port. -/
theorem exists_bind_refused_iff (hb : b.Reachable .builtin settings) :
    (∃ r, b.BindRefused id directionName port r) ↔
      b.nodes.get? id = none ∨
      (∃ n d, b.nodes.get? id = some n ∧ b.descriptor n = .ok d ∧ ∀ p ∈ d.inputs, p.name ≠ port) ∨
      (∀ dir : Direction, dir.name ≠ directionName) ∨
      ∃ n dir q, b.nodes.get? id = some n ∧ dir.name = directionName ∧
        n.wiring.inputs.get? dir = some q ∧ q.name ≠ port := by
  constructor
  · rintro ⟨r, h⟩
    cases h with
    | node hn => exact .inl hn
    | port hn hd h => exact .inr (.inl ⟨_, _, hn, hd, h⟩)
    | direction hn hd hp hname h => exact .inr (.inr (.inl h))
    | taken hn hd hp hname hdir hq hne =>
      obtain ⟨d', hm⟩ := hb.matched (Table.mem_values_of_get? hn)
      obtain rfl := Except.ok.inj (hm.descriptor.symm.trans hd)
      have hheld := hm.declared _ (Table.mem_values_of_get? hq)
      refine .inr (.inr (.inr ⟨_, _, _, hn, hdir, hq, fun e => hne ?_⟩))
      exact ((hb.descriptor_distinct hd).name_eq_iff hheld hp).mp (e.trans hname.symm)
  · intro h
    -- whichever check fails first, one of them does
    cases hn : b.nodes.get? id with
    | none => exact ⟨_, .node hn⟩
    | some n =>
      obtain ⟨d, hm⟩ := hb.matched (Table.mem_values_of_get? hn)
      by_cases hport : ∀ p ∈ d.inputs, p.name ≠ port
      · exact ⟨_, .port hn hm.descriptor hport⟩
      · push Not at hport
        obtain ⟨p, hp, hname⟩ := hport
        by_cases hdir : ∀ dir : Direction, dir.name ≠ directionName
        · exact ⟨_, .direction hn hm.descriptor hp hname hdir⟩
        · rcases h with h | ⟨n', d', hn', hd', h⟩ | h | ⟨n', dir, q, hn', hdir, hq, hne⟩
          · cases hn.symm.trans h
          · obtain rfl := Option.some.inj (hn.symm.trans hn')
            obtain rfl := Except.ok.inj (hm.descriptor.symm.trans hd')
            exact absurd hname (h p hp)
          · exact absurd h hdir
          · obtain rfl := Option.some.inj (hn.symm.trans hn')
            exact ⟨_, .taken hn hm.descriptor hp hname hdir hq fun e => hne (e ▸ hname)⟩

end Reachable

/-! ### What binding does -/

/-- From `b` to `c` the node `n` became `m`: the port was bound to the direction, and nothing else
happened to the node or around it. -/
structure Binds (b c : Board α) (n m : Node α) (p : Port) (dir : Direction) : Prop where
  before : b.nodes.get? n.id = some n
  after : c.nodes.get? n.id = some m
  node : m = { n with wiring := m.wiring }
  constant : m.wiring.constant = n.wiring.constant
  entries : m.wiring.inputs.entries =
    (n.wiring.inputs.entries.filter fun e => e.2 ≠ p) ++ [(dir, p)]
  bound : m.wiring.directionOf? p.name = some dir
  faces : c.resolve? m p.name = c.nodeAt? (m.position.neighbor dir) ∧
    c.nodeAt? (m.position.neighbor dir) = b.nodeAt? (n.position.neighbor dir)
  ports : ∀ q ≠ p.name, m.wiring.directionOf? q = n.wiring.directionOf? q ∧
    c.resolve? m q = b.resolve? n q
  others : ∀ j ≠ n.id, c.nodes.get? j = b.nodes.get? j
  faced : ∀ k ∈ b.nodes.values, k.id ≠ n.id → ∀ q,
    (c.resolve? k q).map Node.id = (b.resolve? k q).map Node.id
  order : c.nodes.keys = b.nodes.keys
  rest : c = { b with nodes := c.nodes }

theorem neighbor_ne (c : Hex) (d : Direction) : c.neighbor d ≠ c := by
  intro h
  have hq := congrArg Hex.q h
  have hr := congrArg Hex.r h
  rw [Hex.neighbor] at hq hr
  cases d <;> simp only [Direction.offset, Hex.q_add, Hex.r_add] at hq hr <;> omega

section Around

variable {b : Board α} {n : Node α} {f : Node α → Node α}

/-- A change of one node is not seen on other cells. -/
theorem nodeAt?_updateNode_of_ne (hb : b.NodesAgree) (hn : b.nodes.get? n.id = some n) {cell : Hex}
    (hcell : cell ≠ n.position) : (b.updateNode n.id f).nodeAt? cell = b.nodeAt? cell := by
  rw [nodeAt?, nodeAt?, show (b.updateNode n.id f).tile? cell = b.tile? cell from rfl]
  split
  · next id htile =>
    refine Table.get?_modify_of_ne _ _ fun e => hcell ?_
    obtain ⟨m, hm, hp⟩ := (hb.tile_iff cell id).mp htile
    rw [e] at hm
    obtain rfl := Option.some.inj (hm.symm.trans hn)
    exact hp.symm
  · rfl

/-- A change of a node that keeps its id is not seen in what stands where. -/
theorem id_nodeAt?_updateNode (hf : ∀ m, (f m).id = m.id) (cell : Hex) :
    ((b.updateNode n.id f).nodeAt? cell).map Node.id = (b.nodeAt? cell).map Node.id := by
  rw [nodeAt?, nodeAt?, show (b.updateNode n.id f).tile? cell = b.tile? cell from rfl]
  split
  · next id _ =>
    rw [updateNode]
    by_cases e : id = n.id
    · rw [e, Table.get?_modify_self, Option.map_map]
      exact congrArg (fun g => Option.map g _) (funext hf)
    · rw [Table.get?_modify_of_ne _ _ e]
  · rfl

end Around

namespace Reachable

variable [Scalar α] {settings : Settings α} {b c : Board α} {id : Int} {directionName port : String}

/-- **Binding a port changes what this port faces and nothing else.** -/
theorem binds (hb : b.Reachable .builtin settings) (h : b.bind id directionName port = .ok c) :
    ∃ n m p dir, n.id = id ∧ p.name = port ∧ dir.name = directionName ∧ Binds b c n m p dir := by
  obtain ⟨n, hn, h⟩ := exists_of_bind_eq_ok h
  have hn := get?_of_node_eq_ok (of_mapError_eq_ok hn)
  obtain rfl := hb.consistent.nodes.keyed.id_of_get? hn
  obtain ⟨d, hd, h⟩ := exists_of_bind_eq_ok h
  have hd := of_mapError_eq_ok hd
  split at h
  · cases h
  · next p hp =>
    obtain ⟨dir, hdir, h⟩ := exists_of_bind_eq_ok h
    obtain ⟨w, hw, h⟩ := exists_of_bind_eq_ok h
    have hw := of_mapError_eq_ok hw
    obtain rfl := Except.ok.inj h
    -- the kind of the node stands in the catalogue, so its ports are told apart by id and by name
    obtain ⟨hmem, rfl⟩ := Descriptor.input?_eq_some hp
    obtain ⟨d', hm⟩ := hb.matched (Table.mem_values_of_get? hn)
    obtain rfl := Except.ok.inj (hm.descriptor.symm.trans hd)
    have hports := hb.descriptor_distinct hd
    have hdir : dir.name = directionName := by
      have hdir := of_mapError_eq_ok hdir
      rw [direction] at hdir
      split at hdir
      · next hname =>
        obtain rfl := Except.ok.inj hdir
        exact Direction.ofName?_eq_some_iff.mp hname
      · cases hdir
    obtain ⟨hentries, hconstant⟩ := hm.distinct.entries_bind hw
    obtain ⟨hbound, hkept⟩ := hm.distinct.directionOf?_bind hm.declared hports hmem hw
    have haround (dir : Direction) := nodeAt?_updateNode_of_ne
      (f := fun m => { m with wiring := w }) hb.consistent.nodes hn (neighbor_ne n.position dir)
    refine ⟨n, { n with wiring := w }, p, dir, rfl, rfl, hdir, ?_⟩
    constructor
    case before => exact hn
    case after => rw [updateNode, Table.get?_modify_self, hn, Option.map_some]
    case node => rfl
    case constant => exact hconstant
    case entries =>
      rw [hentries]
      congr 1
      refine List.filter_congr fun e he => ?_
      have hq := hm.declared e.2 (List.mem_map_of_mem he)
      -- the old binding goes by the id of the port, the statement by the port itself
      simp only [ne_eq, hports.id_eq_iff hq hmem]
    case bound => exact hbound
    case faces =>
      refine ⟨?_, haround dir⟩
      rw [resolve?, hbound, Option.bind_some]
    case ports =>
      intro q hq
      refine ⟨hkept q hq, ?_⟩
      rw [resolve?, resolve?, hkept q hq]
      exact Option.bind_congr fun dir _ => haround dir
    case others => exact fun j hj => Table.get?_modify_of_ne _ _ hj
    case faced =>
      intro k hk hne q
      rw [resolve?, resolve?, Option.map_bind, Option.map_bind]
      exact Option.bind_congr fun dir _ =>
        id_nodeAt?_updateNode (f := fun m => { m with wiring := w }) (fun _ => rfl) _
    case order => exact Table.keys_modify _ _ _
    case rest => rfl

end Reachable

/-! ### Edits one after the other -/

section Attempts

variable [Scalar α]

/-- The board after an edit, or as it was if the edit is refused. -/
def attempt (b : Board α) (e : Edit α) : Board α :=
  match b.edit e with
  | .ok (_, c) => c
  | .error _ => b

variable {catalogue : Catalogue} {settings : Settings α} {b : Board α}

/-- An edit that is tried leads to a board that comes from an empty one, also if it is refused. -/
theorem Reachable.attempt (h : b.Reachable catalogue settings) (e : Edit α) :
    (b.attempt e).Reachable catalogue settings := by
  rw [Board.attempt]
  split
  · next hedit => exact h.edit hedit
  · exact h

theorem Reachable.attempts (h : b.Reachable catalogue settings) (edits : List (Edit α)) :
    (edits.foldl Board.attempt b).Reachable catalogue settings := by
  induction edits generalizing b with
  | nil => exact h
  | cons e edits ih => exact ih (h.attempt e)

/-- **On every board, after any edits, refused ones included, the bindings of every node match
directions with input ports of its kind, each at most once; binding is refused exactly if the node,
the port or the direction is unknown or the direction holds another port; and otherwise it changes
what this port faces and nothing else.** -/
theorem Reachable.binding (h : b.Reachable .builtin settings) (edits : List (Edit α)) :
    let c := edits.foldl Board.attempt b
    (∀ n ∈ c.nodes.values, ∃ d, c.Matched n d) ∧
      ∀ id directionName port,
        ((∃ r, c.bind id directionName port = .error r) ↔
          c.nodes.get? id = none ∨
          (∃ n d, c.nodes.get? id = some n ∧ c.descriptor n = .ok d ∧
            ∀ p ∈ d.inputs, p.name ≠ port) ∨
          (∀ dir : Direction, dir.name ≠ directionName) ∨
          ∃ n dir q, c.nodes.get? id = some n ∧ dir.name = directionName ∧
            n.wiring.inputs.get? dir = some q ∧ q.name ≠ port) ∧
        ∀ c', c.bind id directionName port = .ok c' → ∃ n m p dir,
          n.id = id ∧ p.name = port ∧ dir.name = directionName ∧ Binds c c' n m p dir := by
  have hc := h.attempts edits
  refine ⟨fun n hn => hc.matched hn, fun id directionName port => ⟨?_, fun c' => hc.binds⟩⟩
  rw [← hc.exists_bind_refused_iff]
  exact exists_congr fun r => hc.bind_refused_iff

/-- A port that is bound to a second direction leaves the first one to another port. -/
theorem Reachable.binding_moved :
    let b : Board Float := .new .builtin .standard
    let edits := [.placeNode .origin "NumberSubtract", .placeNode ⟨0, -1⟩ "ConstantNumber",
      .bind 1 "north" "a", .bind 1 "north" "b", .bind 1 "south" "a"]
    b.Reachable .builtin .standard ∧ ∃ c, (edits.foldl Board.attempt b).bind 1 "north" "b" = .ok c ∧
      ∃ n m p dir, n.id = 1 ∧ p.name = "b" ∧ dir.name = "north" ∧
        Binds (edits.foldl Board.attempt b) c n m p dir := by
  intro b edits
  obtain ⟨c, hc⟩ := exists_of_isOk
    (x := (edits.foldl Board.attempt b).bind 1 "north" "b") (by decide +kernel)
  exact ⟨.new, c, hc, ((Reachable.new.binding edits).2 1 "north" "b").2 c hc⟩

end Attempts

end Board

end HexPulse
