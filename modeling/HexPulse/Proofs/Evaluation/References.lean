import HexPulse.Proofs.Activation.Typing
import HexPulse.Proofs.Evaluation.View

/-!
# HexPulse — Proofs — Evaluation — References

Where the entities in a value come from.  A node that fires names live targets that it sees; all
other entities in its value are in its constant or in the values that it read
(`Board.within_evaluate`).
-/

namespace HexPulse

variable {α : Type}

namespace Value

mutual

/-- The ids of the entities in a value. -/
def refs : Value α → List Int
  | .entity id => [id]
  | .list items => itemsRefs items
  | _ => []

def itemsRefs : List (Value α) → List Int
  | [] => []
  | v :: vs => v.refs ++ itemsRefs vs

end

theorem mem_itemsRefs_iff {id : Int} {vs : List (Value α)} :
    id ∈ itemsRefs vs ↔ ∃ v ∈ vs, id ∈ v.refs := by
  induction vs with
  | nil => simp [itemsRefs]
  | cons v vs ih => simp [itemsRefs, ih]

/-- All entities in the value are among some ids. -/
def Within (S : Int → Prop) (v : Value α) : Prop := ∀ id ∈ v.refs, S id

variable {S : Int → Prop} {v : Value α} {vs : List (Value α)}

theorem Within.mono {T : Int → Prop} (h : v.Within S) (hST : ∀ id, S id → T id) : v.Within T :=
  fun id hid => hST id (h id hid)

/-- A list stays among some ids if its items do. -/
theorem within_list_iff : (Value.list vs).Within S ↔ ∀ v ∈ vs, v.Within S := by
  simp only [Within, refs, mem_itemsRefs_iff]
  exact ⟨fun h v hv id hid => h id ⟨v, hv, hid⟩, fun h id ⟨v, hv, hid⟩ => h v hv id hid⟩

theorem within_entity {id : Int} (h : S id) : (Value.entity id : Value α).Within S := by
  intro i hi
  obtain rfl := List.mem_singleton.mp hi
  exact h

/-- A value of one of these types names nobody. -/
theorem within_of_matches {t : ValueType} (h : v.matches? t = true)
    (ht : t ∈ [ValueType.empty, .vector, .number]) : v.Within S := by
  simp only [List.mem_cons, List.not_mem_nil, or_false] at ht
  intro id hid
  cases v with
  | entity _ => rcases ht with rfl | rfl | rfl <;> simp [matches?, type] at h
  | list _ => rcases ht with rfl | rfl | rfl <;> simp [matches?, type] at h
  | _ => cases hid

end Value

namespace Board

open Value

variable {b : Board α} {n : Node α} {S : Int → Prop}

/-- What a list of values takes from a value names nobody else. -/
theorem within_contribution {v : Value α} (h : v.Within S) :
    ∀ u ∈ contribution v, u.Within S := by
  intro u hu
  cases v with
  | empty => cases hu
  | list items => exact within_list_iff.mp h u hu
  | _ =>
    obtain rfl := List.mem_singleton.mp hu
    exact h

variable [Scalar α]

/-- A target in view is a live target of the board. -/
theorem mem_live_of_inView {near : Nat → Bool} {ts : List (Target α)}
    (h : b.inView n near = .ok ts) : ∀ t ∈ ts, t ∈ b.targets.live := by
  obtain ⟨o, -, -, rfl⟩ := inView_eq_ok_iff.mp h
  exact fun t ht => (mem_listed.mp ht).1

/-- What a node that fires names is in view of it, in its constant, or in what it read. -/
theorem within_evaluate (htargets : ∀ t ∈ b.targets.live, S t.id)
    (hconstant : ∀ v, n.wiring.constant = some v → v.Within S)
    (hread : ∀ port v, b.read n port = .ok v → v.Within S) {v : Value α}
    (h : (b.evaluate n).result = .ok v) : v.Within S := by
  -- most kinds yield a value of a type that names nobody, whatever they read
  have hnobody (hk : n.kind.yields ∈ [ValueType.empty, .vector, .number])
      (hn : n.kind ≠ .constantNumber) :
      Ends (Within S) (fun _ => True) (b.evaluate n).result :=
    (b.evaluate_ends fun e => absurd e hn).mono (fun _ hv => within_of_matches hv hk)
      fun _ _ => trivial
  have hreading (port : String) :
      Ends (Within S) (fun _ => True) (Halt.ofReading (b.read n port)) :=
    (Ends.reading fun _ _ => trivial).mono (hread port) fun _ h => h
  have hview {near : Nat → Bool} : Ends (fun ts => ∀ t ∈ ts, S t.id) (fun _ => True)
      (Halt.ofArithmetic (b.inView n near)) :=
    (Ends.arithmetic fun _ _ => trivial).mono
      (fun ts hts t ht => htargets t (mem_live_of_inView hts t ht)) fun _ h => h
  refine Ends.of_ok (E := fun _ => True) ?_ h
  cases hk : n.kind with
  | constantNumber =>
    rw [evaluate, hk]
    show Ends _ _ (constantNumber n)
    rw [constantNumber]
    split
    · next v hv => exact hconstant v hv
    · trivial
  | closestEntity =>
    rw [evaluate, hk]
    refine hview.bind fun found hfound => ?_
    cases found with
    | nil => trivial
    | cons t ts => exact within_entity (hfound t List.mem_cons_self)
  | nearbyEntities =>
    rw [evaluate, hk]
    refine hview.bind fun found hfound => within_list_iff.mpr fun u hu => ?_
    obtain ⟨t, ht, rfl⟩ := List.mem_map.mp hu
    exact within_entity (hfound t ht)
  | listConstruct =>
    rw [evaluate, hk]
    refine within_list_iff.mpr fun u hu => ?_
    obtain ⟨w, hw, hu⟩ := List.mem_flatMap.mp hu
    obtain ⟨port, -, hw⟩ := List.mem_filterMap.mp hw
    have hw : b.read n port = .ok w := by
      cases hr : b.read n port with
      | error e => cases hr ▸ hw
      | ok w' => rw [Option.some.inj (hr ▸ hw : (Except.ok w').toOption = some w)]
    exact within_contribution (hread port w hw) u hu
  | storage =>
    rw [evaluate, hk]
    refine Ends.bind (Q := fun _ => True) ?_ fun slot _ => ?_
    · exact (Ends.reading fun _ _ => trivial).mono (fun _ _ => trivial) fun _ h => h
    · cases slot with
      | none => exact hreading _
      | some x => exact (Ends.arithmetic fun _ _ => trivial).bind fun index _ => hreading _
  | _ => exact hnobody (by rw [hk]; decide) (by rw [hk]; decide)

end Board

end HexPulse
