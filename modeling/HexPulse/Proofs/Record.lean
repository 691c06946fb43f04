import HexPulse.Event
import Mathlib.Data.List.Forall2

/-!
# HexPulse — Proofs — Record

What is written of values, of the states of nodes, and of events.  `Value.Recorded` says by cases
which data tells of a value, lists going by their items however deep they are.  `NodeState.Recorded`
and `Event.Recorded` build on it, up to the entries of a journal (`Entry.Recorded`).

* `Value.recorded_iff`: what is written of a value tells of it, and no other data does.
* `Entry.recorded`: so it is with the entries of a journal.
-/

namespace HexPulse

variable {α : Type}

/-! ### Values -/

/-- The data that tells of a value: an entity by its id, a vector by its components, and a list by
what tells of its items, one by one and in order. -/
inductive Value.Recorded : Value α → Data α → Prop where
  | empty : Recorded .empty .null
  | entity (id : Int) : Recorded (.entity id) (.record [("entity", .int id)])
  | vector (x y : α) : Recorded (.vector x y) (.list [.number x, .number y])
  | number (x : α) : Recorded (.number x) (.number x)
  | text (s : String) : Recorded (.text s) (.text s)
  | list {vs : List (Value α)} {ds : List (Data α)} (h : List.Forall₂ Recorded vs ds) :
      Recorded (.list vs) (.list ds)

namespace Value

mutual

/-- What is written of a value tells of it. -/
theorem recorded_toData : ∀ v : Value α, v.Recorded v.toData
  | .empty => .empty
  | .entity id => .entity id
  | .vector x y => .vector x y
  | .number x => .number x
  | .text s => .text s
  | .list vs => .list (forall₂_itemsToData vs)

theorem forall₂_itemsToData : ∀ vs : List (Value α), List.Forall₂ Recorded vs (itemsToData vs)
  | [] => .nil
  | v :: vs => .cons (recorded_toData v) (forall₂_itemsToData vs)

end

mutual

/-- No two data tell of the same value. -/
theorem Recorded.eq_toData : ∀ {v : Value α} {d : Data α}, v.Recorded d → d = v.toData
  | .empty, _, .empty => rfl
  | .entity _, _, .entity _ => rfl
  | .vector _ _, _, .vector _ _ => rfl
  | .number _, _, .number _ => rfl
  | .text _, _, .text _ => rfl
  | .list _, _, .list h => congrArg Data.list (eq_itemsToData h)

theorem eq_itemsToData : ∀ {vs : List (Value α)} {ds : List (Data α)},
    List.Forall₂ Recorded vs ds → ds = itemsToData vs
  | [], _, .nil => rfl
  | _ :: _, _, .cons h hs => congrArg₂ List.cons h.eq_toData (eq_itemsToData hs)

end

/-- The data that record a value are those that it is turned into. -/
theorem recorded_iff {v : Value α} {d : Data α} : v.Recorded d ↔ d = v.toData :=
  ⟨Recorded.eq_toData, fun h => h ▸ recorded_toData v⟩

/-- Values are told of by what is written of each of them. -/
theorem forall₂_recorded_iff {vs : List (Value α)} {ds : List (Data α)} :
    List.Forall₂ Recorded vs ds ↔ ds = vs.map toData := by
  rw [← itemsToData_eq_map]
  exact ⟨eq_itemsToData, fun h => h ▸ forall₂_itemsToData vs⟩

end Value

/-! ### Events -/

/-- The data that tells of the state of a node: its phase, and the value or the error that it
holds. -/
inductive NodeState.Recorded : NodeState α → Data α → Prop where
  | idle : Recorded .idle (.record [("phase", .text "Idle")])
  | requested : Recorded .requested (.record [("phase", .text "ActivationRequest")])
  | triggered : Recorded .triggered (.record [("phase", .text "Triggered")])
  | disabled : Recorded .disabled (.record [("phase", .text "Disabled")])
  | ok {v : Value α} {d : Data α} (h : v.Recorded d) :
      Recorded (.ok v) (.record [("phase", .text "Done"), ("value", d)])
  | err (e : PortError) :
      Recorded (.err e) (.record [("phase", .text "Done"), ("error", .text e.message)])
  | blank : Recorded .blank (.record [("phase", .text "Done")])

/-- A state is turned into data that record it. -/
theorem NodeState.recorded_toData (s : NodeState α) : s.Recorded s.toData := by
  cases s with
  | idle => exact .idle
  | requested => exact .requested
  | triggered => exact .triggered
  | disabled => exact .disabled
  | ok v => exact .ok v.recorded_toData
  | err e => exact .err e
  | blank => exact .blank

/-- The type under which an event is written, and what is told of it: of a node that fired its id, its
kind, and the state that it is in. -/
inductive Event.Recorded : Event α → String → List (String × Data α) → Prop where
  | heartDestroyed (heart : Int) (cell : Hex) : Recorded (.heartDestroyed heart cell)
      "HEART_DESTROYED" [("heart", .int heart), ("q", .int cell.q), ("r", .int cell.r)]
  | nodesStalled (nodes : List Int) : Recorded (.nodesStalled nodes)
      "NODES_STALLED" [("nodes", .list (nodes.map .int))]
  | heartbeat (heart beat : Int) (period health : α) (requested : Nat) :
      Recorded (.heartbeat heart beat period health requested)
        "HEARTBEAT" [("heart", .int heart), ("beat", .int beat), ("period", .number period),
          ("health", .number health), ("requested", .int requested)]
  | nodeDone (node : Int) (kind : Kind) {state : NodeState α} {d : Data α} (h : state.Recorded d) :
      Recorded (.nodeDone node kind state)
        "NODE_DONE" [("node", .int node), ("kind", .text kind.name), ("state", d)]
  | effect (e : Effect α) : Recorded (.effect e) "EFFECT" e.payload
  | terrainPlaced (terrain source : Int) (cell : Hex) :
      Recorded (.terrainPlaced terrain source cell)
        "TERRAIN_PLACED" [("terrain", .int terrain), ("source", .int source), ("q", .int cell.q),
          ("r", .int cell.r)]
  | targetKilled (target : Int) :
      Recorded (.targetKilled target) "TARGET_KILLED" [("target", .int target)]
  | frame (s : Status α) : Recorded (.frame s) "FRAME" s.fields

/-- An event has the name and the fields that record it. -/
theorem Event.recorded_fields (e : Event α) : e.Recorded e.name e.fields := by
  cases e with
  | heartDestroyed heart cell => exact .heartDestroyed heart cell
  | nodesStalled nodes => exact .nodesStalled nodes
  | heartbeat heart beat period health requested =>
    exact .heartbeat heart beat period health requested
  | nodeDone node kind state => exact .nodeDone node kind state.recorded_toData
  | effect e => exact .effect e
  | terrainPlaced terrain source cell => exact .terrainPlaced terrain source cell
  | targetKilled target => exact .targetKilled target
  | frame s => exact .frame s

/-- The fields that tell of an entry: first the number of its frame and the type of its event. -/
def Entry.Recorded (e : Entry α) (fields : List (String × Data α)) : Prop :=
  ∃ type told, e.event.Recorded type told ∧
    fields = ("frame", .int e.frame) :: ("type", .text type) :: told

/-- **What is written of an entry tells of it.** -/
theorem Entry.recorded (e : Entry α) : e.Recorded e.fields :=
  ⟨e.event.name, e.event.fields, e.event.recorded_fields, rfl⟩

end HexPulse
