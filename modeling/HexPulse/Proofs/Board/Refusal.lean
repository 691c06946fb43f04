import HexPulse.Proofs.Board.Binding
import HexPulse.Proofs.Board.Script

/-!
# HexPulse — Proofs — Board — Refusal

Which edits of a board are refused, and why.

* `Board.Reachable.edit_refused_iff`: the cases of `Board.Refused`, and no others.
* `Board.Reachable.refused_unchanged`: an edit that is refused leaves the whole board as it was.
-/

namespace HexPulse

variable {α : Type}

namespace Board

/-! ### Why an edit is refused -/

/-- Nothing can be placed on the cell. -/
inductive Barred (b : Board α) (cell : Hex) : BoardError → Prop where
  | outOfBounds (h : b.settings.grid.radius < cell.distance .origin) :
      Barred b cell (.outOfBounds cell)
  | occupied {t : Tile} (h : b.tile? cell = some t) (ht : t ≠ .unoccupied) :
      Barred b cell (.occupied cell t)

/-- The cases in which edits are refused, with the reasons that are given. -/
inductive Refused (b : Board α) : Edit α → Refusal → Prop where
  | placeKind {cell : Hex} {kind : String} (h : ∀ k ∈ b.catalogue.kinds.keys, k.name ≠ kind) :
      Refused b (.placeNode cell kind) (.kind ⟨kind, b.catalogue.names⟩)
  | placeNode {cell : Hex} {k : Kind} {e : BoardError} (hk : k ∈ b.catalogue.kinds.keys)
      (h : b.Barred cell e) : Refused b (.placeNode cell k.name) (.board e)
  | placeHeart {cell : Hex} {e : BoardError} (h : b.Barred cell e) :
      Refused b (.placeHeart cell) (.board e)
  | placeTerrain {cell : Hex} {health : Option α} {e : BoardError} (h : b.Barred cell e) :
      Refused b (.placeTerrain cell health) (.board e)
  | clearCell {cell : Hex} (h : b.settings.grid.radius < cell.distance .origin) :
      Refused b (.clearCell cell) (.board (.outOfBounds cell))
  | removeNode {id : Int} (h : b.nodes.get? id = none) :
      Refused b (.removeNode id) (.board (.unknownNode id))
  | bind {id : Int} {direction port : String} {r : Refusal}
      (h : b.BindRefused id direction port r) : Refused b (.bind id direction port) r
  | unbindNode {id : Int} {direction : String} (h : b.nodes.get? id = none) :
      Refused b (.unbind id direction) (.board (.unknownNode id))
  | unbindDirection {id : Int} {n : Node α} {direction : String} (hn : b.nodes.get? id = some n)
      (h : ∀ dir : Direction, dir.name ≠ direction) :
      Refused b (.unbind id direction) (.wiring (.unknownDirection direction))
  | constantNode {id : Int} {value : Option (Value α)} (h : b.nodes.get? id = none) :
      Refused b (.setConstant id value) (.board (.unknownNode id))
  | constantOutput {id : Int} {n : Node α} {d : Descriptor} {value : Option (Value α)}
      (hn : b.nodes.get? id = some n) (hd : b.descriptor n = .ok d)
      (h : d.output.isConstant = false) :
      Refused b (.setConstant id value) (.wiring (.noConstant n.kind))

/-- The cells without a tile are those beyond the radius. -/
theorem WellFormed.tile?_eq_none_iff {b : Board α} (h : b.WellFormed) {cell : Hex} :
    b.tile? cell = none ↔ b.settings.grid.radius < cell.distance .origin := by
  have hdomain := h.domain cell
  rw [← Option.not_isSome_iff_eq_none, hdomain, Int.not_le]

/-- A cell is refused exactly if it is barred. -/
theorem claim_eq_error_iff {b : Board α} (h : b.WellFormed) {cell : Hex} {tile : Int → Tile}
    {e : BoardError} : b.claim cell tile = .error e ↔ b.Barred cell e := by
  constructor
  · intro he
    rw [claim] at he
    split at he
    · next hnone =>
      obtain rfl := Except.error.inj he
      exact .outOfBounds (h.tile?_eq_none_iff.mp hnone)
    · cases he
    · next t hne htile =>
      obtain rfl := Except.error.inj he
      exact .occupied htile hne
  · intro he
    rw [claim]
    cases he with
    | outOfBounds hout => rw [h.tile?_eq_none_iff.mpr hout]
    | occupied htile ht =>
      rw [htile]
      split
      · next e => cases e
      · next e => exact absurd (Option.some.inj e) ht
      · next e => rw [Option.some.inj e]

section Edits

variable {b : Board α} {r : Refusal}

/-- A node is refused if its kind is unknown or its cell is barred. -/
theorem placeNode_refused_iff (h : b.WellFormed) {cell : Hex} {kind : String} :
    b.placeNode cell kind = .error r ↔ b.Refused (.placeNode cell kind) r := by
  constructor
  · intro hr
    rcases of_bind_eq_error hr with hr | ⟨d, hd, hrest⟩
    · obtain ⟨e, he, rfl⟩ := mapError_eq_error_iff.mp hr
      obtain ⟨hunknown, rfl⟩ := Catalogue.find_eq_error_iff.mp he
      exact .placeKind hunknown
    · obtain ⟨k, hk, hd⟩ := Catalogue.find_eq_ok_iff.mp (of_mapError_eq_ok hd)
      have hmem := Table.contains_iff_mem_keys.mp (Option.isSome_iff_exists.mpr ⟨d, hd⟩)
      obtain rfl := Kind.name_of_ofName? hk
      rcases of_bind_eq_error hrest with hclaim | ⟨_, -, hnone⟩
      · obtain ⟨e, he, rfl⟩ := mapError_eq_error_iff.mp hclaim
        exact .placeNode hmem ((claim_eq_error_iff h).mp he)
      · cases hnone
  · intro hr
    cases hr with
    | placeKind hunknown =>
      rw [Board.placeNode, Catalogue.find_eq_error_iff.mpr ⟨hunknown, rfl⟩]
      rfl
    | @placeNode cell k e hk hbarred =>
      obtain ⟨d, hd⟩ := Option.isSome_iff_exists.mp (Table.contains_iff_mem_keys.mpr hk)
      rw [Board.placeNode, Catalogue.find_eq_ok_iff.mpr ⟨k, k.ofName?_name, hd⟩]
      change (b.claim cell .node).mapError Refusal.board >>= _ = _
      rw [(claim_eq_error_iff h).mpr hbarred]
      rfl

/-- A heart is refused if its cell is barred. -/
theorem placeHeart_eq_error_iff [Scalar α] (h : b.WellFormed) {cell : Hex} {e : BoardError} :
    b.placeHeart cell = .error e ↔ b.Barred cell e := by
  rw [Board.placeHeart, bind_eq_error_iff, claim_eq_error_iff h]
  refine or_iff_left ?_
  rintro ⟨_, -, he⟩
  cases he

theorem placeTerrain_eq_error_iff (h : b.WellFormed) {cell : Hex} {health : Option α}
    {e : BoardError} : b.placeTerrain cell health = .error e ↔ b.Barred cell e := by
  rw [Board.placeTerrain, bind_eq_error_iff, claim_eq_error_iff h]
  refine or_iff_left ?_
  rintro ⟨_, -, he⟩
  cases he

/-- Only a cell beyond the radius cannot be cleared. -/
theorem clearCell_eq_error_iff (h : b.WellFormed) {cell : Hex} {e : BoardError} :
    b.clearCell cell = .error e ↔
      b.settings.grid.radius < cell.distance .origin ∧ e = .outOfBounds cell := by
  rw [← h.tile?_eq_none_iff, Board.clearCell]
  cases b.tile? cell with
  | none => exact ⟨fun he => ⟨rfl, (Except.error.inj he).symm⟩, fun he => congrArg _ he.2.symm⟩
  | some t =>
    constructor
    · intro he
      cases he
    · rintro ⟨h, -⟩
      cases h

/-- A node that is there stands on the board, so nothing else can go wrong with its removal. -/
theorem removeNode_eq_error_iff (h : b.WellFormed) (hkeyed : b.nodes.Keyed Node.id) {id : Int}
    {e : BoardError} :
    b.removeNode id = .error e ↔ b.nodes.get? id = none ∧ e = .unknownNode id := by
  rw [Board.removeNode, bind_eq_error_iff, node_eq_error_iff]
  refine or_iff_left ?_
  rintro ⟨n, hn, he⟩
  rcases of_bind_eq_error he with he | ⟨_, -, he⟩
  · obtain ⟨hout, -⟩ := (clearCell_eq_error_iff h).mp he
    have hget := get?_of_node_eq_ok hn
    have htile := (h.node _ _).mpr ⟨n, hget, hkeyed.id_of_get? hget, rfl⟩
    cases (h.tile?_eq_none_iff.mpr hout).symm.trans htile
  · cases he

/-- A direction cannot be set free if the node or the direction is unknown. -/
theorem unbind_refused_iff {id : Int} {name : String} :
    b.unbind id name = .error r ↔ b.Refused (.unbind id name) r := by
  constructor
  · intro hr
    rcases of_bind_eq_error hr with hnode | ⟨n, hn, hrest⟩
    · obtain ⟨e, he, rfl⟩ := mapError_eq_error_iff.mp hnode
      obtain ⟨hnone, rfl⟩ := node_eq_error_iff.mp he
      exact .unbindNode hnone
    · have hget := get?_of_node_eq_ok (of_mapError_eq_ok hn)
      rcases of_bind_eq_error hrest with hdirection | ⟨_, -, hok⟩
      · obtain ⟨e, he, rfl⟩ := mapError_eq_error_iff.mp hdirection
        obtain ⟨hunknown, rfl⟩ := direction_eq_error_iff.mp he
        exact .unbindDirection hget hunknown
      · cases hok
  · intro hr
    cases hr with
    | unbindNode hnone =>
      rw [Board.unbind, node_eq_error_iff.mpr ⟨hnone, rfl⟩]
      rfl
    | unbindDirection hn hunknown =>
      rw [Board.unbind, node_eq_ok hn, direction_eq_error_iff.mpr ⟨hunknown, rfl⟩]
      rfl

/-- A constant is refused by a node that is unknown, or that has no constant as its output. -/
theorem setConstant_refused_iff (h : b.Wired) {id : Int} {value : Option (Value α)} :
    b.setConstant id value = .error r ↔ b.Refused (.setConstant id value) r := by
  constructor
  · intro hr
    rcases of_bind_eq_error hr with hnode | ⟨n, hn, hrest⟩
    · obtain ⟨e, he, rfl⟩ := mapError_eq_error_iff.mp hnode
      obtain ⟨hnone, rfl⟩ := node_eq_error_iff.mp he
      exact .constantNode hnone
    · have hget := get?_of_node_eq_ok (of_mapError_eq_ok hn)
      -- the kind of a node on the board is known
      obtain ⟨d, hd, -⟩ := h n (Table.mem_values_of_get? hget)
      rw [hd] at hrest
      rcases of_bind_eq_error hrest with hdescriptor | ⟨d', hd', hconstant⟩
      · cases hdescriptor
      · obtain rfl := Except.ok.inj hd'
        cases houtput : d.output.isConstant with
        | true =>
          rw [houtput] at hconstant
          cases hconstant
        | false =>
          rw [houtput] at hconstant
          cases hconstant
          exact .constantOutput hget hd houtput
  · intro hr
    cases hr with
    | constantNode hnone =>
      rw [Board.setConstant, node_eq_error_iff.mpr ⟨hnone, rfl⟩]
      rfl
    | constantOutput hn hd houtput =>
      rw [Board.setConstant, node_eq_ok hn]
      change (b.descriptor _).mapError Refusal.kind >>= _ = _
      rw [hd]
      change (if _ then _ else _) = _
      rw [houtput]
      rfl

/-- **An edit is refused in the cases of `Refused`, for these reasons, and in no others.** -/
theorem Reachable.edit_refused_iff [Scalar α] {settings : Settings α}
    (hb : b.Reachable .builtin settings) {e : Edit α} :
    b.edit e = .error r ↔ b.Refused e r := by
  have h := hb.story
  have hkeyed := hb.consistent.nodes.keyed
  -- edits that write health or reap are never refused, so no case of `Refused` is theirs
  cases e with
  | placeNode cell kind => rw [Board.edit, map_eq_error_iff, placeNode_refused_iff h]
  | placeHeart cell =>
    rw [Board.edit, map_eq_error_iff, mapError_eq_error_iff]
    constructor
    · rintro ⟨e, he, rfl⟩
      exact .placeHeart ((placeHeart_eq_error_iff h).mp he)
    · intro hr
      cases hr with
      | placeHeart hbarred => exact ⟨_, (placeHeart_eq_error_iff h).mpr hbarred, rfl⟩
  | placeTerrain cell health =>
    rw [Board.edit, map_eq_error_iff, mapError_eq_error_iff]
    constructor
    · rintro ⟨e, he, rfl⟩
      exact .placeTerrain ((placeTerrain_eq_error_iff h).mp he)
    · intro hr
      cases hr with
      | placeTerrain hbarred => exact ⟨_, (placeTerrain_eq_error_iff h).mpr hbarred, rfl⟩
  | clearCell cell =>
    rw [Board.edit, map_eq_error_iff, mapError_eq_error_iff]
    constructor
    · rintro ⟨e, he, rfl⟩
      obtain ⟨hout, rfl⟩ := (clearCell_eq_error_iff h).mp he
      exact .clearCell hout
    · intro hr
      cases hr with
      | clearCell hout => exact ⟨_, (clearCell_eq_error_iff h).mpr ⟨hout, rfl⟩, rfl⟩
  | removeNode i =>
    rw [Board.edit, map_eq_error_iff, mapError_eq_error_iff]
    constructor
    · rintro ⟨e, he, rfl⟩
      obtain ⟨hnone, rfl⟩ := (removeNode_eq_error_iff h hkeyed).mp he
      exact .removeNode hnone
    · intro hr
      cases hr with
      | removeNode hnone => exact ⟨_, (removeNode_eq_error_iff h hkeyed).mpr ⟨hnone, rfl⟩, rfl⟩
  | reapDead => constructor <;> intro hr <;> cases hr
  | bind i direction port =>
    rw [Board.edit, map_eq_error_iff, hb.bind_refused_iff]
    refine ⟨.bind, fun hr => ?_⟩
    cases hr with
    | bind hr => exact hr
  | unbind i direction =>
    rw [Board.edit, map_eq_error_iff, unbind_refused_iff]
  | setConstant i value =>
    rw [Board.edit, map_eq_error_iff, setConstant_refused_iff hb.wired]
  | nodeHealth i health => constructor <;> intro hr <;> cases hr
  | heartHealth i health => constructor <;> intro hr <;> cases hr
  | terrainHealth i health => constructor <;> intro hr <;> cases hr

/-- **An edit is refused in the cases of `Refused` and in no others, and leaves then the whole
board as it was; one that is not refused leaves the board that it returns.** -/
theorem Reachable.refused_unchanged [Scalar α] {settings : Settings α}
    (hb : b.Reachable .builtin settings) (e : Edit α) :
    (∀ r c, Script.ofEdit e b = (.error r, c) ↔ b.Refused e r ∧ c = b) ∧
      ∀ id c, Script.ofEdit e b = (.ok id, c) ↔ b.edit e = .ok (id, c) := by
  simp only [Script.ofEdit_apply hb.consistent.nodes.keyed, ← hb.edit_refused_iff]
  cases b.edit e with
  | error r =>
    refine ⟨fun r' c => ?_, fun id c => ⟨nofun, nofun⟩⟩
    simp only [Script.ending, Prod.mk.injEq, Except.error.injEq]
    exact and_congr_right' eq_comm
  | ok x =>
    obtain ⟨id', c'⟩ := x
    refine ⟨fun r' c => ⟨nofun, nofun⟩, fun id c => ?_⟩
    simp only [Script.ending, Prod.mk.injEq, Except.ok.injEq]

/-- A port that is refused a direction keeps the one that it has. -/
theorem Reachable.refused_unchanged_taken :
    let edits := [.placeNode .origin "NumberSubtract", .bind 1 "north" "a", .bind 1 "south" "b"]
    let b : Board Float := edits.foldl Board.attempt (.new .builtin .standard)
    b.Reachable .builtin .standard ∧
      b.Refused (.bind 1 "north" "b") (.wiring (.directionTaken .north "a")) ∧
      Script.ofEdit (.bind 1 "north" "b") b =
        (.error (.wiring (.directionTaken .north "a")), b) := by
  intro edits b
  have hb : b.Reachable .builtin .standard := Reachable.new.attempts edits
  have hedit : (b.edit (.bind 1 "north" "b")).map (fun _ => ()) =
      .error (.wiring (.directionTaken .north "a")) := by decide +kernel
  have hrefused := hb.edit_refused_iff.mp (map_eq_error_iff.mp hedit)
  exact ⟨hb, hrefused, ((hb.refused_unchanged _).1 _ _).mpr ⟨hrefused, rfl⟩⟩

end Edits

end Board

end HexPulse
