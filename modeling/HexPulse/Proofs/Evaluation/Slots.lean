import HexPulse.Proofs.Activation.Typing
import HexPulse.Proofs.Board.Binding
import HexPulse.Proofs.Record

/-!
# HexPulse — Proofs — Evaluation — Slots

The kinds with slots: products, differences, lists and logs.  A slot supplies a value if it is wired
to a node that holds one of the type that the slot declares (`Board.supplied?`), and all other slots
are passed over.  What the evaluation makes of the values that are supplied is `Combines`, a
relation between these values and the result that mentions neither the board nor the node; and
`Logs` is what it logs of them.

* `Board.supplied?_eq_some_iff`: where no port is bound twice, the order of the bindings does not
  matter to what is supplied.
* `Board.exists_combines`: an evaluation of these kinds never fails, and ends with what the values
  combine to; a log holds all of them.
* `Board.slots_combine`: the whole of it, with what follows for two boards that supply the same.
-/

namespace HexPulse

variable {α : Type}

/-- The kinds that take any number of inputs. -/
def Kind.variadic : List Kind :=
  [.numberMultiply, .numberSubtract, .vectorMultiply, .listConstruct, .debug]

/-- The ports of these kinds are the slots, in order, of the types that the evaluation asks for. -/
theorem Catalogue.slots_declared : ∀ k ∈ Kind.variadic, ∃ d, builtin.find k.name = .ok d ∧
    d.inputs.map (fun p => (p.name, p.type)) =
      ["a", "b", "c", "d", "e"].map fun s => (s, k.asks s) := by
  have hsome : ∀ k ∈ Kind.variadic, (builtin.find k.name).isOk = true := by decide +kernel
  have hports : ∀ e ∈ builtin.kinds.entries, e.1 ∈ Kind.variadic →
      e.2.inputs.map (fun p => (p.name, p.type)) = slots.map fun s => (s, e.1.asks s) := by
    decide +kernel
  intro k hk
  obtain ⟨d, hd⟩ := exists_of_isOk (hsome k hk)
  obtain ⟨k', hk', hget⟩ := find_eq_ok_iff.mp hd
  obtain rfl := Option.some.inj (k.ofName?_name.symm.trans hk')
  exact ⟨d, hd, hports _ (Table.mem_entries_of_get? hget) hk⟩

/-! ### What the slots supply -/

namespace Board

variable {b : Board α} {n : Node α} {slot : String}

/-- The value that a slot supplies: that of the node it is wired to, if this has ended with a value
of the type that the slot declares. -/
def supplied? (b : Board α) (n : Node α) (slot : String) : Option (Value α) :=
  ((b.resolve? n slot).bind fun m => m.state.value?).filter (·.matches? (n.kind.asks slot))

/-- The values that the slots supply, in the order of the slots. -/
def supplied (b : Board α) (n : Node α) : List (Value α) :=
  ["a", "b", "c", "d", "e"].filterMap (b.supplied? n)

/-- A slot supplies the value that is read at it, if it is of the type that the slot asks for. -/
theorem supplied?_eq : b.supplied? n slot =
    (b.read n slot).toOption.filter (·.matches? (n.kind.asks slot)) := by
  refine congrArg (Option.filter _) ?_
  rw [resolve?, read]
  cases n.wiring.directionOf? slot with
  | none => rfl
  | some d =>
    cases hm : b.nodeAt? (n.position.neighbor d) with
    | none => simp [hm, Except.toOption]
    | some m => cases hv : m.state.value? <;> simp [hm, hv, Except.toOption]

/-- Where no port is bound twice, a slot supplies a value if some binding of the slot leads to a
node that holds it. -/
theorem supplied?_eq_some_iff (hports : (n.wiring.inputs.values.map Port.name).Nodup)
    {v : Value α} : b.supplied? n slot = some v ↔ ∃ e ∈ n.wiring.inputs.entries,
      e.2.name = slot ∧ ∃ m, b.nodeAt? (n.position.neighbor e.1) = some m ∧ m.state = .ok v ∧
        v.matches? (n.kind.asks slot) = true := by
  have hread : b.supplied? n slot = some v ↔
      b.read n slot = .ok v ∧ v.matches? (n.kind.asks slot) = true := by
    rw [supplied?_eq, Option.filter_eq_some_iff]
    refine and_congr_left fun _ => ?_
    cases b.read n slot <;> simp [Except.toOption]
  rw [hread, read_eq_ok_iff]
  constructor
  · rintro ⟨⟨d, m, hd, hm, hv⟩, htype⟩
    obtain ⟨p, hp, hname⟩ := Wiring.exists_of_directionOf? hd
    exact ⟨(d, p), hp, hname, m, hm, hv, htype⟩
  · rintro ⟨e, he, rfl, m, hm, hv, htype⟩
    refine ⟨⟨e.1, m, ?_, hm, hv⟩, htype⟩
    rw [Table.values, List.map_map] at hports
    have hfound : (n.wiring.inputs.entries.find? fun e' => e'.2.name = e.2.name).isSome :=
      List.find?_isSome.mpr ⟨e, he, decide_eq_true rfl⟩
    obtain ⟨e', he'⟩ := Option.isSome_iff_exists.mp hfound
    have hname : e'.2.name = e.2.name := by simpa using List.find?_some he'
    have hsame := List.inj_on_of_nodup_map hports (List.mem_of_find?_eq_some he') he hname
    rw [Wiring.directionOf?, Wiring.directionWhere?, he', hsame]
    rfl

/-- The order in which the ports were bound does not matter. -/
theorem supplied_of_perm {w : Wiring α} (hw : w.inputs.entries.Perm n.wiring.inputs.entries)
    (hports : (n.wiring.inputs.values.map Port.name).Nodup) :
    b.supplied { n with wiring := w } = b.supplied n := by
  have hports' : (w.inputs.values.map Port.name).Nodup :=
    ((hw.map Prod.snd).map Port.name).nodup_iff.mpr hports
  refine List.filterMap_congr fun slot _ => Option.ext fun v => ?_
  rw [supplied?_eq_some_iff hports, supplied?_eq_some_iff hports']
  exact exists_congr fun e => and_congr_left fun _ => hw.mem_iff

/-- A reading as a type of which all values are made in one way. -/
theorem map_readPresent {β : Type} {pick : Value α → Option β} {make : β → Value α}
    {expected : ValueType} (hmake : ∀ v x, pick v = some x ↔ v = make x)
    (hpick : ∀ v : Value α, v.matches? expected = (pick v).isSome) {slots : List String}
    (hasks : ∀ slot ∈ slots, n.kind.asks slot = expected) :
    (readPresent (readAs pick expected) b n slots).map make = slots.filterMap (b.supplied? n) := by
  rw [readPresent, List.map_filterMap]
  refine List.filterMap_congr fun slot hslot => ?_
  rw [supplied?_eq, hasks slot hslot, readAs]
  cases b.read n slot with
  | error e => rfl
  | ok v =>
    cases hv : pick v with
    | none => simp [Except.toOption, Option.filter_some, hpick, hv]
    | some x =>
      obtain rfl := (hmake v x).mp hv
      simp [Except.toOption, Option.filter_some, hpick, hv]

/-- Where all slots ask for numbers, the numbers that are present are the values supplied. -/
theorem map_readNumbers (hasks : ∀ slot, n.kind.asks slot = .number) :
    (readPresent readNumber b n Catalogue.slots).map .number = b.supplied n := by
  refine map_readPresent (fun v x => ?_) (fun v => ?_) fun slot _ => hasks slot
  · cases v <;> simp [Value.number?]
  · cases v <;> rfl

/-- Where all slots ask for vectors, the vectors that are present are the values supplied. -/
theorem map_readVectors (hasks : ∀ slot, n.kind.asks slot = .vector) :
    (readPresent readVector b n Catalogue.slots).map (fun w => .vector w.1 w.2) =
      b.supplied n := by
  refine map_readPresent (fun v x => ?_) (fun v => ?_) fun slot _ => hasks slot
  · cases v <;> simp [Value.vector?, Prod.ext_iff]
  · cases v <;> rfl

/-- Where the slots ask for nothing in particular, all values that are present are supplied. -/
theorem readPresent_eq_supplied (hasks : ∀ slot, n.kind.asks slot = .any) :
    readPresent read b n Catalogue.slots = b.supplied n := by
  refine List.filterMap_congr fun slot _ => ?_
  rw [supplied?_eq, hasks slot]
  cases b.read n slot <;> rfl

end Board

/-! ### What the values combine to -/

/-- The items of a list that is made of values: a list brings its items, as they are, nothing is
left of an empty value, and every other value is an item. -/
inductive Spliced : List (Value α) → List (Value α) → Prop where
  | nil : Spliced [] []
  | empty {vs items : List (Value α)} (h : Spliced vs items) : Spliced (.empty :: vs) items
  | list {vs items : List (Value α)} (xs : List (Value α)) (h : Spliced vs items) :
      Spliced (.list xs :: vs) (xs ++ items)
  | item {v : Value α} {vs items : List (Value α)} (hempty : v.type ≠ .empty)
      (hlist : v.type ≠ .list) (h : Spliced vs items) : Spliced (v :: vs) (v :: items)

/-- Splicing takes lists apart by one level, and keeps the order. -/
theorem spliced_iff {vs items : List (Value α)} :
    Spliced vs items ↔ items = vs.flatMap Board.contribution := by
  constructor
  · intro h
    induction h with
    | nil => rfl
    | empty _ ih => exact ih
    | list xs _ ih => rw [List.flatMap_cons, ← ih, Board.contribution]
    | @item v _ _ hempty hlist _ ih =>
      rw [List.flatMap_cons, ← ih]
      cases v <;> first | rfl | exact absurd rfl hempty | exact absurd rfl hlist
  · rintro rfl
    induction vs with
    | nil => exact .nil
    | cons v vs ih =>
      cases v with
      | empty => exact .empty ih
      | list xs => exact .list xs ih
      | entity => exact .item nofun nofun ih
      | vector => exact .item nofun nofun ih
      | number => exact .item nofun nofun ih
      | text => exact .item nofun nofun ih

variable [Scalar α]

/-- What values combine to at a node of some kind. -/
inductive Combines : Kind → List (Value α) → Value α → Prop where
  | noProduct : Combines .numberMultiply [] (.number 0.0)
  | product (x : α) (xs : List α) :
      Combines .numberMultiply ((x :: xs).map .number) (.number (xs.foldl (· * ·) x))
  | noDifference : Combines .numberSubtract [] (.number 0.0)
  | difference (x : α) (xs : List α) :
      Combines .numberSubtract ((x :: xs).map .number) (.number (xs.foldl (· - ·) x))
  | noScaling : Combines .vectorMultiply [] (.vector 0.0 0.0)
  | scaling (v : α × α) (vs : List (α × α)) :
      Combines .vectorMultiply ((v :: vs).map fun w => .vector w.1 w.2)
        (.vector ((vs.map (·.1)).foldl (· * ·) v.1) ((vs.map (·.2)).foldl (· * ·) v.2))
  | construction {vs items : List (Value α)} (h : Spliced vs items) :
      Combines .listConstruct vs (.list items)
  | debug (vs : List (Value α)) : Combines .debug vs .empty

theorem foldl_pair {β γ : Type} (f : β → β → β) (g : γ → γ → γ) (vs : List (β × γ)) (v : β × γ) :
    vs.foldl (fun v w => (f v.1 w.1, g v.2 w.2)) v =
      ((vs.map (·.1)).foldl f v.1, (vs.map (·.2)).foldl g v.2) := by
  induction vs generalizing v with
  | nil => rfl
  | cons w vs ih => exact ih _

/-- What the values combine to is determined by them. -/
theorem Combines.unique {k : Kind} {vs : List (Value α)} {v w : Value α} (hv : Combines k vs v)
    (hw : Combines k vs w) : v = w := by
  have hnumber : Function.Injective (Value.number : α → Value α) := fun _ _ => Value.number.inj
  have hvector : Function.Injective (fun w : α × α => Value.vector w.1 w.2) := fun _ _ h =>
    Prod.ext (Value.vector.inj h).1 (Value.vector.inj h).2
  generalize hvs : vs = us at hw
  cases hv with
  | noProduct => cases hw with
    | noProduct => rfl
    | product => cases hvs
  | product x xs => cases hw with
    | noProduct => cases hvs
    | product y ys =>
      obtain ⟨rfl, rfl⟩ := List.cons.inj (hnumber.list_map hvs)
      rfl
  | noDifference => cases hw with
    | noDifference => rfl
    | difference => cases hvs
  | difference x xs => cases hw with
    | noDifference => cases hvs
    | difference y ys =>
      obtain ⟨rfl, rfl⟩ := List.cons.inj (hnumber.list_map hvs)
      rfl
  | noScaling => cases hw with
    | noScaling => rfl
    | scaling => cases hvs
  | scaling v vs => cases hw with
    | noScaling => cases hvs
    | scaling w ws =>
      obtain ⟨rfl, rfl⟩ := List.cons.inj (hvector.list_map hvs)
      rfl
  | construction h => cases hw with
    | construction h' => rw [spliced_iff.mp h, spliced_iff.mp h', hvs]
  | debug => cases hw with
    | debug => rfl

/-- The effects that a node asks for with values from slots: a log of what tells of them, one by one
and in order, if it is a node that logs, and otherwise nothing. -/
inductive Logs (n : Node α) (vs : List (Value α)) : List (Effect α) → Prop where
  | log {ds : List (Data α)} (hkind : n.kind = .debug) (h : List.Forall₂ Value.Recorded vs ds) :
      Logs n vs [.log n.id ds]
  | nothing (hkind : n.kind ≠ .debug) : Logs n vs []

/-! ### Evaluations -/

namespace Board

variable {b : Board α} {n : Node α}

/-- **An evaluation of values from slots never fails**, ends with what the values combine to, and
logs them if it is a log. -/
theorem exists_combines (hk : n.kind ∈ Kind.variadic) : ∃ v es,
    Combines n.kind (b.supplied n) v ∧ Logs n (b.supplied n) es ∧
      b.evaluate n = ⟨.ok v, n.charge, es⟩ := by
  have hasks {t : ValueType} {k : Kind} (hkind : n.kind = k) (h : ∀ slot, k.asks slot = t) :
      ∀ slot, n.kind.asks slot = t := hkind ▸ h
  have hsilent {k : Kind} (hkind : n.kind = k) (h : k ≠ .debug) : Logs n (b.supplied n) [] :=
    .nothing (hkind ▸ h)
  -- the program reads the slots with a reader for each type; what these return is what is supplied
  rw [evaluate]
  cases hkind : n.kind <;> rw [hkind] at hk
  case numberMultiply =>
    refine ⟨_, _, ?_, hsilent hkind (by decide), rfl⟩
    rw [← map_readNumbers (hasks hkind fun _ => rfl), numberMultiply]
    cases readPresent readNumber b n Catalogue.slots with
    | nil => exact .noProduct
    | cons x xs => exact .product x xs
  case numberSubtract =>
    refine ⟨_, _, ?_, hsilent hkind (by decide), rfl⟩
    rw [← map_readNumbers (hasks hkind fun _ => rfl), numberSubtract]
    cases readPresent readNumber b n Catalogue.slots with
    | nil => exact .noDifference
    | cons x xs => exact .difference x xs
  case vectorMultiply =>
    refine ⟨_, _, ?_, hsilent hkind (by decide), rfl⟩
    rw [← map_readVectors (hasks hkind fun _ => rfl), vectorMultiply]
    cases readPresent readVector b n Catalogue.slots with
    | nil => exact .noScaling
    | cons v vs =>
      rw [foldFirst, foldl_pair]
      exact .scaling v vs
  case listConstruct =>
    refine ⟨_, _, ?_, hsilent hkind (by decide), rfl⟩
    rw [← readPresent_eq_supplied (hasks hkind fun _ => rfl)]
    exact .construction (spliced_iff.mpr rfl)
  case debug =>
    refine ⟨_, _, .debug _, .log hkind (Value.forall₂_recorded_iff.mpr rfl), ?_⟩
    rw [← readPresent_eq_supplied (hasks hkind fun _ => rfl)]
    rfl
  all_goals exact absurd hk (by decide)

/-- On a board that comes from an empty one no port of a name is bound twice. -/
theorem Reachable.nodup_port_names {settings : Settings α} (h : b.Reachable .builtin settings)
    (hn : n ∈ b.nodes.values) : (n.wiring.inputs.values.map Port.name).Nodup := by
  obtain ⟨d, hmatched⟩ := h.matched hn
  have hnames := (h.descriptor_distinct hmatched.descriptor).names
  have hids := hmatched.distinct.ports.of_map
  refine hids.map_on fun p hp q hq hname => ?_
  exact List.inj_on_of_nodup_map hnames (hmatched.declared p hp) (hmatched.declared q hq) hname

/-- **Evaluations of values from slots.**  For products, differences, lists and logs:
the ports are the slots, of the types that the evaluation asks for; the evaluation never fails, ends
with what the supplied values combine to, and asks for nothing but the one log of them if it is a log;
two nodes of a kind that are supplied with the same values, on whatever boards, end with the same;
and on a board that comes from an empty one a slot supplies what its binding leads to, in whatever
order the bindings were made. -/
theorem slots_combine :
    (∀ k ∈ Kind.variadic, ∃ d, Catalogue.builtin.find k.name = .ok d ∧
      d.inputs.map (fun p => (p.name, p.type)) =
        ["a", "b", "c", "d", "e"].map fun s => (s, k.asks s)) ∧
    (∀ (b : Board α) (n : Node α), n.kind ∈ Kind.variadic → ∃ v es,
      Combines n.kind (b.supplied n) v ∧ Logs n (b.supplied n) es ∧
      b.evaluate n = ⟨.ok v, n.charge, es⟩) ∧
    (∀ (b b' : Board α) (n n' : Node α), n.kind ∈ Kind.variadic → n'.kind = n.kind →
      b'.supplied n' = b.supplied n → (b'.evaluate n').result = (b.evaluate n).result) ∧
    (∀ (b : Board α) (settings : Settings α), b.Reachable .builtin settings →
      ∀ n ∈ b.nodes.values, ∀ slot v, b.supplied? n slot = some v ↔
        ∃ e ∈ n.wiring.inputs.entries, e.2.name = slot ∧
          ∃ m, b.nodeAt? (n.position.neighbor e.1) = some m ∧ m.state = .ok v ∧
            v.matches? (n.kind.asks slot) = true) ∧
    ∀ (b : Board α) (settings : Settings α), b.Reachable .builtin settings →
      ∀ n ∈ b.nodes.values, ∀ w : Wiring α, w.inputs.entries.Perm n.wiring.inputs.entries →
        b.supplied { n with wiring := w } = b.supplied n := by
  refine ⟨Catalogue.slots_declared, fun b n hk => exists_combines hk,
    fun b b' n n' hk hkind hsupplied => ?_, fun b settings h n hn slot v => ?_,
    fun b settings h n hn w hw => supplied_of_perm hw (h.nodup_port_names hn)⟩
  · obtain ⟨v, _, hv, -, heval⟩ := exists_combines (b := b) hk
    obtain ⟨v', _, hv', -, heval'⟩ := exists_combines (b := b') (hkind.symm ▸ hk)
    rw [hkind, hsupplied] at hv'
    rw [heval, heval', hv.unique hv']
  · exact supplied?_eq_some_iff (h.nodup_port_names hn)

/-- Two constants and a node between them, bound from the last slot to the first; the slot in between
faces an empty cell. -/
def between (kind : String) (v w : Value Float) : List (Edit Float) := [
  .placeHeart ⟨0, 0⟩, .placeNode ⟨1, -1⟩ "ConstantNumber", .placeNode ⟨0, 1⟩ "ConstantNumber",
  .placeNode ⟨1, 0⟩ kind, .setConstant 2 (some w), .setConstant 3 (some v), .bind 4 "north" "d",
  .bind 4 "south" "c", .bind 4 "south_west" "b"]

/-- The board after edits, a pruning, a request and the pass in which the constants fire. -/
def told (edits : List (Edit Float)) : Board Float :=
  let b := edits.foldl Board.attempt (.new .builtin .standard)
  (Pass.run b.prune.board.request []).state.board

/-- A difference of two numbers. -/
@[irreducible] def differing : Board Float :=
  told (between "NumberSubtract" (.number 5.0) (.number 3.0))

/-- A log of a list with a list in it, and of an entity. -/
@[irreducible] def logging : Board Float :=
  told (between "Debug" (.list [.list [.number 1.0], .empty]) (.entity 7))

/-- A list of the same. -/
@[irreducible] def listing : Board Float :=
  told (between "ListConstruct" (.list [.list [.number 1.0], .empty]) (.entity 7))

/-- The fourth node of a board is of a kind, and supplied with a list that has a list in it, and with
an entity. -/
def nests (b : Board Float) (k : Kind) : Bool :=
  (b.nodes.get? 4).any fun n => n.kind = k &&
    match b.supplied n with
    | [.list [.list [.number x], .empty], .entity 7] => x = 1.0
    | _ => false

/-- The node that `nests` finds, with the values that its slots supply. -/
theorem exists_nested {b : Board Float} {k : Kind} (h : b.nests k = true) :
    ∃ n ∈ b.nodes.values, n.kind = k ∧
      ∃ x, b.supplied n = [.list [.list [.number x], .empty], .entity 7] ∧ x = 1.0 := by
  obtain ⟨n, hn, hall⟩ := (Option.any_eq_true _ _).mp h
  obtain ⟨hkind, hsupplied⟩ := (Bool.and_eq_true _ _).mp hall
  refine ⟨n, Table.mem_values_of_get? hn, of_decide_eq_true hkind, ?_⟩
  split at hsupplied
  · next x hx => exact ⟨x, hx, of_decide_eq_true hsupplied⟩
  · cases hsupplied

/-- The difference is that of the slots in their order, whatever the order of the bindings; the log
tells of the list as it is, and the list that is made of it and the entity has two items of it. -/
theorem slots_combine_between :
    (differing.Reachable .builtin .standard ∧
      ∃ n ∈ differing.nodes.values, n.kind ∈ Kind.variadic ∧
        (differing.supplied n).map Value.number? = [some 5.0, some 3.0] ∧
        (∃ v, Combines n.kind (differing.supplied n) v ∧
          (differing.evaluate n).result = .ok v ∧ v.number? = some 2.0) ∧
        (∃ e ∈ n.wiring.inputs.entries, e.2.name = "b" ∧ ∃ m u,
          differing.nodeAt? (n.position.neighbor e.1) = some m ∧ m.state = .ok u) ∧
        ∃ w : Wiring Float, w.inputs.entries = n.wiring.inputs.entries.reverse ∧
          (differing.evaluate { n with wiring := w }).result = (differing.evaluate n).result) ∧
    (∃ n ∈ logging.nodes.values, n.kind ∈ Kind.variadic ∧
      ∃ x, logging.supplied n = [.list [.list [.number x], .empty], .entity 7] ∧ x = 1.0 ∧
        logging.evaluate n = ⟨.ok .empty, n.charge,
          [.log n.id [.list [.list [.number x], .null], .record [("entity", .int 7)]]]⟩) ∧
    ∃ n ∈ listing.nodes.values, n.kind ∈ Kind.variadic ∧
      ∃ x, listing.supplied n = [.list [.list [.number x], .empty], .entity 7] ∧ x = 1.0 ∧
        listing.evaluate n =
          ⟨.ok (.list [.list [.number x], .empty, .entity 7]), n.charge, []⟩ := by
  obtain ⟨-, hcombine, hsame, hbound, hperm⟩ := slots_combine (α := Float)
  refine ⟨?difference, ?log, ?list⟩
  case difference =>
    have hreachable : differing.Reachable .builtin .standard := by
      unfold differing told
      exact (Reachable.new.attempts _).prune.request.pass []
    have hfourth : (differing.nodes.get? 4).any (fun n => n.kind = .numberSubtract ∧
        (differing.supplied n).map Value.number? = [some 5.0, some 3.0] ∧
        (differing.evaluate n).result.toOption.bind Value.number? = some 2.0 ∧
        (differing.supplied? n "b").isSome) = true := by
      decide +kernel
    obtain ⟨n, hn, hall⟩ := (Option.any_eq_true _ _).mp hfourth
    obtain ⟨hkind, hsupplied, hresult, hb⟩ := of_decide_eq_true hall
    have hn := Table.mem_values_of_get? hn
    have hmem : n.kind ∈ Kind.variadic := hkind ▸ by decide
    obtain ⟨v, es, hv, -, heval⟩ := hcombine differing n hmem
    rw [heval] at hresult
    obtain ⟨u, hu⟩ := Option.isSome_iff_exists.mp hb
    obtain ⟨e, he, hname, m, hm, hstate, -⟩ :=
      (hbound differing .standard hreachable n hn "b" u).mp hu
    refine ⟨hreachable, n, hn, hmem, hsupplied, ⟨v, hv, by rw [heval], hresult⟩,
      ⟨e, he, hname, m, u, hm, hstate⟩, ?_⟩
    let w : Wiring Float := ⟨⟨n.wiring.inputs.entries.reverse⟩, none⟩
    refine ⟨w, rfl, hsame _ _ _ _ hmem rfl ?_⟩
    exact hperm differing .standard hreachable n hn w (List.reverse_perm _)
  case log =>
    have hnests : logging.nests .debug = true := by decide +kernel
    obtain ⟨n, hn, hkind, x, hx, hone⟩ := exists_nested hnests
    have hmem : n.kind ∈ Kind.variadic := hkind ▸ by decide
    obtain ⟨v, es, hv, hes, heval⟩ := hcombine logging n hmem
    rw [hkind] at hv
    cases hv
    rw [hx] at hes
    cases hes with
    | log _ h =>
      rw [Value.forall₂_recorded_iff.mp h] at heval
      exact ⟨n, hn, hmem, x, hx, hone, heval⟩
    | nothing hnot => exact absurd hkind hnot
  case list =>
    have hnests : listing.nests .listConstruct = true := by decide +kernel
    obtain ⟨n, hn, hkind, x, hx, hone⟩ := exists_nested hnests
    have hmem : n.kind ∈ Kind.variadic := hkind ▸ by decide
    obtain ⟨v, es, hv, hes, heval⟩ := hcombine listing n hmem
    rw [hkind, hx] at hv
    cases hv with
    | construction hspliced =>
      rw [spliced_iff.mp hspliced] at heval
      cases hes with
      | log hdebug => cases hkind.symm.trans hdebug
      | nothing => exact ⟨n, hn, hmem, x, hx, hone, heval⟩

end Board

end HexPulse
