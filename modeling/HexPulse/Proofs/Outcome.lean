import HexPulse.Fault

/-!
# HexPulse — Proofs — Outcome

Computations that may fail.  Where a chain of them has a result, every link of it has one; and
where a run may stop at a fault, a relation between states that every step respects holds between
the start and the state that was reached.
-/

namespace HexPulse

/-! ### Results or errors -/

/-- A chain that has a result has one in every link. -/
theorem exists_of_bind_eq_ok {ε σ τ : Type} {x : Except ε σ} {f : σ → Except ε τ} {t : τ}
    (h : (x >>= f) = .ok t) : ∃ s, x = .ok s ∧ f s = .ok t := by
  cases x with
  | error e => cases h
  | ok s => exact ⟨s, rfl, h⟩

/-- A chain fails where its first link does, or behind it. -/
theorem of_bind_eq_error {ε σ τ : Type} {x : Except ε σ} {f : σ → Except ε τ} {e : ε}
    (h : (x >>= f) = .error e) : x = .error e ∨ ∃ s, x = .ok s ∧ f s = .error e := by
  cases x with
  | error e' => exact .inl (congrArg Except.error (Except.error.inj h))
  | ok s => exact .inr ⟨s, rfl, h⟩

/-- A chain fails exactly where one of its links does. -/
theorem bind_eq_error_iff {ε σ τ : Type} {x : Except ε σ} {f : σ → Except ε τ} {e : ε} :
    (x >>= f) = .error e ↔ x = .error e ∨ ∃ s, x = .ok s ∧ f s = .error e := by
  refine ⟨of_bind_eq_error, ?_⟩
  rintro (rfl | ⟨s, rfl, h⟩)
  · rfl
  · exact h

/-- An error that is translated comes from one that is not. -/
theorem mapError_eq_error_iff {ε δ σ : Type} {x : Except ε σ} {f : ε → δ} {e : δ} :
    x.mapError f = .error e ↔ ∃ e', x = .error e' ∧ f e' = e := by
  cases x with
  | error e' =>
    constructor
    · intro h
      exact ⟨e', rfl, Except.error.inj h⟩
    · rintro ⟨_, h, rfl⟩
      rw [Except.error.inj h]
      rfl
  | ok s =>
    constructor
    · intro h
      cases h
    · rintro ⟨_, h, -⟩
      cases h

theorem map_eq_error_iff {ε σ τ : Type} {x : Except ε σ} {f : σ → τ} {e : ε} :
    x.map f = .error e ↔ x = .error e := by
  cases x with
  | error e' => simp [Except.map]
  | ok s => simp [Except.map]

theorem of_mapError_eq_ok {ε δ σ : Type} {x : Except ε σ} {f : ε → δ} {s : σ}
    (h : x.mapError f = .ok s) : x = .ok s := by
  cases x with
  | error e => cases h
  | ok s' => exact congrArg Except.ok (Except.ok.inj h)

theorem exists_of_map_eq_ok {ε σ τ : Type} {x : Except ε σ} {f : σ → τ} {t : τ}
    (h : x.map f = .ok t) : ∃ s, x = .ok s ∧ f s = t := by
  cases x with
  | error e => cases h
  | ok s => exact ⟨s, rfl, Except.ok.inj h⟩

theorem exists_of_isOk {ε σ : Type} {x : Except ε σ} (h : x.isOk = true) : ∃ s, x = .ok s := by
  cases x with
  | error e => cases h
  | ok s => exact ⟨s, rfl⟩

theorem exists_error_iff {ε σ : Type} {x : Except ε σ} :
    (∃ e, x = .error e) ↔ ¬ ∃ s, x = .ok s := by
  cases x <;> simp

/-- Whether there is a result of some kind can be seen from the computation. -/
instance decidableExistsOk {ε σ : Type} {x : Except ε σ} {P : σ → Prop} [DecidablePred P] :
    Decidable (∃ s, x = .ok s ∧ P s) :=
  match x with
  | .error _ => isFalse fun ⟨_, h, _⟩ => nomatch h
  | .ok s => decidable_of_iff (P s) ⟨fun h => ⟨s, rfl, h⟩, fun ⟨_, e, h⟩ => Except.ok.inj e ▸ h⟩

/-- Whether a result is of some kind, if there is one, can be seen from the computation. -/
instance decidableForallOk {ε σ : Type} {x : Except ε σ} {P : σ → Prop} [DecidablePred P] :
    Decidable (∀ s, x = .ok s → P s) :=
  match x with
  | .error _ => isTrue nofun
  | .ok s => decidable_of_iff (P s) ⟨fun h _ e => Except.ok.inj e ▸ h, fun h => h s rfl⟩

/-- Whether there is some error can be seen from the computation. -/
instance decidableEqError {ε σ : Type} [DecidableEq ε] {x : Except ε σ} {e : ε} :
    Decidable (x = .error e) :=
  match x with
  | .error e' => decidable_of_iff (e' = e) ⟨congrArg _, Except.error.inj⟩
  | .ok _ => isFalse nofun

/-- A traversal that fails meets an element that fails. -/
theorem exists_of_mapM_eq_error {ε σ τ : Type} {f : σ → Except ε τ} {xs : List σ} {e : ε}
    (h : xs.mapM f = .error e) : ∃ x ∈ xs, f x = .error e := by
  induction xs with
  | nil => cases h
  | cons x xs ih =>
    rw [List.mapM_cons] at h
    rcases of_bind_eq_error h with hx | ⟨y, -, h⟩
    · exact ⟨x, List.mem_cons_self, hx⟩
    · rcases of_bind_eq_error h with hxs | ⟨ys, -, h⟩
      · obtain ⟨x', hx', he⟩ := ih hxs
        exact ⟨x', List.mem_cons_of_mem _ hx', he⟩
      · cases h

/-- A traversal that succeeds meets no element that fails. -/
theorem exists_of_mapM_eq_ok {ε σ τ : Type} {f : σ → Except ε τ} {xs : List σ} {ys : List τ}
    (h : xs.mapM f = .ok ys) : ∀ x ∈ xs, ∃ y, f x = .ok y := by
  induction xs generalizing ys with
  | nil => exact fun x hx => absurd hx List.not_mem_nil
  | cons x xs ih =>
    rw [List.mapM_cons] at h
    obtain ⟨y, hx, h⟩ := exists_of_bind_eq_ok h
    obtain ⟨ys', hxs, -⟩ := exists_of_bind_eq_ok h
    intro x' hx'
    rcases List.mem_cons.mp hx' with rfl | hx'
    · exact ⟨y, hx⟩
    · exact ih hxs x' hx'

/-- A traversal that meets no element that fails succeeds. -/
theorem exists_mapM_eq_ok {ε σ τ : Type} {f : σ → Except ε τ} {xs : List σ}
    (h : ∀ x ∈ xs, ∃ y, f x = .ok y) : ∃ ys, xs.mapM f = .ok ys := by
  cases hxs : xs.mapM f with
  | ok ys => exact ⟨ys, rfl⟩
  | error e =>
    obtain ⟨x, hx, he⟩ := exists_of_mapM_eq_error hxs
    obtain ⟨y, hy⟩ := h x hx
    cases he.symm.trans hy

/-- A traversal in which nothing fails is a map. -/
theorem mapM_eq_map {ε σ τ : Type} {f : σ → Except ε τ} {g : σ → τ} {xs : List σ}
    (h : ∀ x ∈ xs, f x = .ok (g x)) : xs.mapM f = .ok (xs.map g) := by
  induction xs with
  | nil => rfl
  | cons x xs ih =>
    obtain ⟨hx, hxs⟩ := List.forall_mem_cons.mp h
    rw [List.mapM_cons, hx, ih hxs]
    rfl

/-- What a traversal yields, it yields for an element. -/
theorem exists_of_mem_mapM {ε σ τ : Type} {f : σ → Except ε τ} {xs : List σ} {ys : List τ}
    (h : xs.mapM f = .ok ys) {y : τ} (hy : y ∈ ys) : ∃ x ∈ xs, f x = .ok y := by
  induction xs generalizing ys with
  | nil =>
    obtain rfl := Except.ok.inj h
    cases hy
  | cons x xs ih =>
    rw [List.mapM_cons] at h
    obtain ⟨z, hx, h⟩ := exists_of_bind_eq_ok h
    obtain ⟨zs, hxs, h⟩ := exists_of_bind_eq_ok h
    obtain rfl := Except.ok.inj h
    rcases List.mem_cons.mp hy with rfl | hy
    · exact ⟨x, List.mem_cons_self, hx⟩
    · obtain ⟨x', hx', e⟩ := ih hxs hy
      exact ⟨x', List.mem_cons_of_mem _ hx', e⟩

theorem length_of_mapM {ε σ τ : Type} {f : σ → Except ε τ} {xs : List σ} {ys : List τ}
    (h : xs.mapM f = .ok ys) : ys.length = xs.length := by
  induction xs generalizing ys with
  | nil =>
    obtain rfl := Except.ok.inj h
    rfl
  | cons x xs ih =>
    rw [List.mapM_cons] at h
    obtain ⟨y, -, h⟩ := exists_of_bind_eq_ok h
    obtain ⟨ys', hxs, h⟩ := exists_of_bind_eq_ok h
    rw [← Except.ok.inj h, List.length_cons, List.length_cons, ih hxs]

/-- A fold has a result that fits all elements if each step leads from a state that fits the
elements before it to one that fits its own element as well. -/
theorem exists_foldlM_eq_ok {ε σ β : Type} {f : σ → β → Except ε σ} {P : List β → σ → Prop}
    {xs : List β} (step : ∀ before x after s, xs = before ++ x :: after → P before s →
      ∃ t, f s x = .ok t ∧ P (before ++ [x]) t) {s : σ} (hs : P [] s) :
    ∃ t, xs.foldlM f s = .ok t ∧ P xs t := by
  suffices ∀ after before s, xs = before ++ after → P before s →
      ∃ t, after.foldlM f s = .ok t ∧ P xs t from this xs [] s rfl hs
  intro after
  induction after with
  | nil =>
    intro before s hxs hs
    rw [List.append_nil] at hxs
    exact ⟨s, rfl, hxs ▸ hs⟩
  | cons x after ih =>
    intro before s hxs hs
    obtain ⟨t, ht, hP⟩ := step before x after s hxs hs
    rw [List.foldlM_cons, ht]
    refine ih (before ++ [x]) t ?_ hP
    rw [hxs, List.append_assoc]
    rfl

/-- What every step keeps holds of the result of a fold. -/
theorem foldlM_rec {ε σ β : Type} {P : σ → Prop} {f : σ → β → Except ε σ} {xs : List β}
    (step : ∀ s, ∀ x ∈ xs, ∀ t, P s → f s x = .ok t → P t) {s t : σ} (hs : P s)
    (h : xs.foldlM f s = .ok t) : P t := by
  induction xs generalizing s with
  | nil =>
    obtain rfl := Except.ok.inj h
    exact hs
  | cons x xs ih =>
    rw [List.foldlM_cons] at h
    obtain ⟨u, hu, h⟩ := exists_of_bind_eq_ok h
    exact ih (fun s y hy => step s y (List.mem_cons_of_mem x hy))
      (step s x List.mem_cons_self u hs hu) h

/-- In a list without repetitions, an element is none of those before it. -/
theorem notMem_of_split {β : Type} {xs before after : List β} {x : β} (h : xs.Nodup)
    (hxs : xs = before ++ x :: after) : x ∉ before := by
  rw [hxs, List.nodup_append] at h
  exact fun hx => h.2.2 x hx x List.mem_cons_self rfl

/-- In a list without repetitions nobody before an element has its image. -/
theorem notMem_map_of_split {β γ : Type} {f : β → γ} {xs before after : List β} {x : β}
    (h : (xs.map f).Nodup) (hxs : xs = before ++ x :: after) : f x ∉ before.map f := by
  have hsplit : xs.map f = before.map f ++ f x :: after.map f := by
    rw [hxs, List.map_append, List.map_cons]
  exact notMem_of_split h hsplit

/-! ### Runs that may stop at a fault -/

namespace Progress

variable {σ β γ : Type} {R : σ → σ → Prop}

theorem fault_andThen {p : Progress σ} {next : σ → Progress σ} (hp : p.fault = none)
    (hnext : (next p.state).fault = none) : (p.andThen next).fault = none := by
  rw [andThen, hp]
  exact hnext

/-- What both parts of a run respect, the run respects. -/
theorem andThen_rel (trans : ∀ {s t u}, R s t → R t u → R s u) {s : σ} {p : Progress σ}
    {next : σ → Progress σ} (hp : R s p.state) (hnext : ∀ t, R t (next t).state) :
    R s (p.andThen next).state := by
  rw [andThen]
  split
  · exact trans hp (hnext _)
  · exact hp

/-- What both parts of a run keep holds behind it, wherever it stopped. -/
theorem andThen_rec {P : σ → Prop} {p : Progress σ} {next : σ → Progress σ} (hp : P p.state)
    (hnext : ∀ s, P s → P (next s).state) : P (p.andThen next).state := by
  rw [andThen]
  split
  · exact hnext _ hp
  · exact hp

/-- Steps in two parts, the second from where the first ends or stops. -/
theorem fold_append (step : σ → β → Progress σ) (xs ys : List β) (s : σ) :
    fold step (xs ++ ys) s = (fold step xs s).andThen (fold step ys) := by
  induction xs generalizing s with
  | nil => rfl
  | cons x xs ih =>
    rw [List.cons_append, fold, fold, funext ih]
    generalize step s x = p
    obtain ⟨t, fault⟩ := p
    cases fault <;> rfl

/-- What every step respects, a run of them respects, wherever it stops. -/
theorem fold_rel (refl : ∀ s, R s s) (trans : ∀ {s t u}, R s t → R t u → R s u)
    {step : σ → β → Progress σ} (h : ∀ s x, R s (step s x).state) (xs : List β) (s : σ) :
    R s (fold step xs s).state := by
  induction xs generalizing s with
  | nil => exact refl s
  | cons x xs ih =>
    rw [fold]
    exact andThen_rel (R := R) trans (h s x) ih

/-- What every step keeps holds behind a run, wherever it stopped. -/
theorem fold_rec {P : σ → Prop} {step : σ → β → Progress σ} {xs : List β}
    (h : ∀ s, ∀ x ∈ xs, P s → P (step s x).state) {s : σ} (hs : P s) : P (fold step xs s).state := by
  induction xs generalizing s with
  | nil => exact hs
  | cons x xs ih =>
    rw [fold]
    exact andThen_rec (h s x List.mem_cons_self hs) fun _ =>
      ih fun s y hy => h s y (List.mem_cons_of_mem x hy)

/-- What holds of a state, and of whatever a computation makes of it, holds behind it. -/
theorem ofExcept_rec {P : σ → Prop} {s : σ} {e : Except Fault σ} (hs : P s)
    (he : ∀ t, e = .ok t → P t) : P (ofExcept s e).state := by
  cases e with
  | error f => exact hs
  | ok t => exact he t rfl

/-- What no step changes, no run over a list changes. -/
theorem map_each {f : β → Progress β} {g : β → γ} (h : ∀ x, g (f x).state = g x) (xs : List β) :
    (each f xs).state.map g = xs.map g := by
  induction xs with
  | nil => rfl
  | cons x xs ih =>
    simp only [each]
    split
    · rw [Progress.map, List.map_cons, List.map_cons, ih, h]
    · rw [halt, List.map_cons, List.map_cons, h]

/-- If no element meets a fault, the run over a list meets none and gets to its end. -/
theorem each_forall {P : β → Prop} {f : β → Progress β} {xs : List β}
    (h : ∀ x ∈ xs, (f x).fault = none ∧ P (f x).state) :
    (each f xs).fault = none ∧ ∀ y ∈ (each f xs).state, P y := by
  induction xs with
  | nil => exact ⟨rfl, fun _ hy => absurd hy List.not_mem_nil⟩
  | cons x xs ih =>
    obtain ⟨hfault, hx⟩ := h x List.mem_cons_self
    obtain ⟨hrest, hxs⟩ := ih fun y hy => h y (List.mem_cons_of_mem x hy)
    simp only [each]
    rw [hfault]
    exact ⟨hrest, List.forall_mem_cons.mpr ⟨hx, hxs⟩⟩

/-- What holds of all elements, and of each that is changed, holds of all in the end, also where a
fault stops the run. -/
theorem each_rec {P : β → Prop} {f : β → Progress β} {xs : List β} (h : ∀ x ∈ xs, P x)
    (step : ∀ x, P x → P (f x).state) : ∀ y ∈ (each f xs).state, P y := by
  induction xs with
  | nil => exact h
  | cons x xs ih =>
    obtain ⟨hx, hxs⟩ := List.forall_mem_cons.mp h
    simp only [each]
    split
    · exact List.forall_mem_cons.mpr ⟨step x hx, ih hxs⟩
    · exact List.forall_mem_cons.mpr ⟨step x hx, hxs⟩

/-- What is told of steps that are taken one after the other. -/
def along (step : σ → β → Progress σ) (tell : σ → β → List γ) : List β → σ → List γ
  | [], _ => []
  | x :: xs, s => tell s x ++ along step tell xs (step s x).state

/-- What is told without looking at the state is told of each element. -/
theorem along_eq_flatMap (step : σ → β → Progress σ) (tell : β → List γ) (xs : List β) (s : σ) :
    along step (fun _ => tell) xs s = xs.flatMap tell := by
  induction xs generalizing s with
  | nil => rfl
  | cons x xs ih => rw [along, ih, List.flatMap_cons]

/-- If what is told of every step leads from the state before it to the state behind it, then what
is told along a run that meets no fault leads from its start to its end. -/
theorem fold_along {R : List γ → σ → σ → Prop} (refl : ∀ s, R [] s s)
    (trans : ∀ {ys zs s t u}, R ys s t → R zs t u → R (ys ++ zs) s u)
    {step : σ → β → Progress σ} {tell : σ → β → List γ} {P : σ → Prop}
    (keep : ∀ s x, P s → P (step s x).state)
    (h : ∀ s x, P s → R (tell s x) s (step s x).state) {xs : List β} {s : σ} (hs : P s)
    (hf : (fold step xs s).fault = none) : R (along step tell xs s) s (fold step xs s).state := by
  induction xs generalizing s with
  | nil => exact refl s
  | cons x xs ih =>
    obtain ⟨-, e⟩ := andThen_fault_eq_none hf
    rw [show fold step (x :: xs) s = _ from e] at hf ⊢
    exact trans (h s x hs) (ih (keep s x hs) hf)

end Progress

end HexPulse
