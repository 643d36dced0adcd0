/-!
# Steps that may fail

Computations that may fail are sequences of steps in `Except`. A sequence succeeds if every
step does, and a traversal of a list succeeds if the step does at every member; else it
fails with the error of the first member at which the step does.
-/

namespace ProbeGap

variable {ε α β : Type}

/-- Two steps succeed if the first does and the second does with its result. -/
theorem bind_eq_ok_iff {x : Except ε α} {f : α → Except ε β} {b : β} :
    (x >>= f) = .ok b ↔ ∃ a, x = .ok a ∧ f a = .ok b := by
  cases x with
  | error e =>
    constructor
    · intro h
      cases h
    · rintro ⟨a, h, -⟩
      cases h
  | ok a =>
    constructor
    · intro h
      exact ⟨a, rfl, h⟩
    · rintro ⟨a', h, hf⟩
      cases h
      exact hf

/-- Two steps fail if the first does, or the second does with its result. -/
theorem bind_eq_error_iff {x : Except ε α} {f : α → Except ε β} {e : ε} :
    (x >>= f) = .error e ↔ x = .error e ∨ ∃ a, x = .ok a ∧ f a = .error e := by
  cases x with
  | error e' =>
    constructor
    · intro h
      cases h
      exact Or.inl rfl
    · rintro (h | ⟨a, h, -⟩)
      · cases h
        rfl
      · cases h
  | ok a =>
    constructor
    · intro h
      exact Or.inr ⟨a, rfl, h⟩
    · rintro (h | ⟨a', h, hf⟩)
      · cases h
      · cases h
        exact hf

/-- A computation of which a view is known has succeeded. -/
theorem exists_ok_of_view {x : Except ε α} {view : α → β} {b : β}
    (h : x.toOption.map view = some b) : ∃ a, x = .ok a ∧ view a = b := by
  cases x with
  | error e => cases h
  | ok a => exact ⟨a, rfl, Option.some.inj h⟩

/-- A traversal succeeds with the list of all results. -/
theorem mapM_eq_ok_iff {f : α → Except ε β} {xs : List α} {ys : List β} :
    xs.mapM f = .ok ys ↔ xs.map f = ys.map .ok := by
  induction xs generalizing ys with
  | nil =>
    constructor
    · intro h
      cases h
      rfl
    · intro h
      have hys : ys = [] := List.map_eq_nil_iff.mp h.symm
      rw [hys]
      rfl
  | cons x xs ih =>
    rw [List.mapM_cons, bind_eq_ok_iff]
    constructor
    · rintro ⟨y, hy, hrest⟩
      obtain ⟨zs, hzs, hpure⟩ := bind_eq_ok_iff.mp hrest
      cases hpure
      rw [List.map_cons, List.map_cons, hy, ih.mp hzs]
    · intro h
      cases ys with
      | nil => cases h
      | cons y zs =>
        obtain ⟨hy, hzs⟩ := List.cons.inj h
        exact ⟨y, hy, bind_eq_ok_iff.mpr ⟨zs, ih.mpr hzs, rfl⟩⟩

/-- A check of a list succeeds if it does at every member. -/
theorem forM_eq_ok_iff {f : α → Except ε PUnit} {xs : List α} :
    xs.forM f = .ok () ↔ ∀ x ∈ xs, f x = .ok () := by
  induction xs with
  | nil =>
    constructor
    · intro _ x hx
      cases hx
    · exact fun _ => rfl
  | cons x xs ih =>
    rw [List.forall_mem_cons, ← ih]
    show (f x >>= fun _ => xs.forM f) = .ok () ↔ _
    rw [bind_eq_ok_iff]
    constructor
    · rintro ⟨_, hx, hrest⟩
      exact ⟨hx, hrest⟩
    · rintro ⟨hx, hrest⟩
      exact ⟨(), hx, hrest⟩

/-- Other errors change nothing about results. -/
theorem mapError_eq_ok_iff {δ : Type} {x : Except ε β} {g : ε → δ} {b : β} :
    x.mapError g = .ok b ↔ x = .ok b := by
  cases x with
  | error e => exact ⟨nofun, nofun⟩
  | ok a => exact ⟨fun h => congrArg _ (Except.ok.inj h), fun h => congrArg _ (Except.ok.inj h)⟩

theorem mapM_mapError_eq_ok_iff {δ : Type} {f : α → Except ε β} {g : α → ε → δ} {xs : List α}
    {ys : List β} :
    xs.mapM (fun x => (f x).mapError (g x)) = .ok ys ↔ xs.mapM f = .ok ys := by
  rw [mapM_eq_ok_iff, mapM_eq_ok_iff]
  induction xs generalizing ys with
  | nil => simp
  | cons x xs ih =>
    cases ys with
    | nil => simp
    | cons y ys => simp only [List.map_cons, List.cons.injEq, mapError_eq_ok_iff, ih]

/-- A traversal by a partial function has a result if the function has one everywhere. -/
theorem mapM_eq_some_iff {f : α → Option β} {xs : List α} {ys : List β} :
    xs.mapM f = some ys ↔ xs.map f = ys.map some := by
  induction xs generalizing ys with
  | nil =>
    constructor
    · intro h
      cases h
      rfl
    · intro h
      have hys : ys = [] := List.map_eq_nil_iff.mp h.symm
      rw [hys]
      rfl
  | cons x xs ih =>
    simp only [List.mapM_cons, Option.bind_eq_bind, Option.bind_eq_some_iff]
    constructor
    · rintro ⟨y, hy, zs, hzs, hpure⟩
      cases hpure
      rw [List.map_cons, List.map_cons, hy, ih.mp hzs]
    · intro h
      cases ys with
      | nil => cases h
      | cons y zs =>
        obtain ⟨hy, hzs⟩ := List.cons.inj h
        exact ⟨y, hy, zs, ih.mpr hzs, rfl⟩

/-- A traversal succeeds if the step does at every member. -/
theorem exists_mapM_eq_ok {f : α → Except ε β} {xs : List α}
    (h : ∀ x ∈ xs, ∃ y, f x = .ok y) : ∃ ys, xs.mapM f = .ok ys := by
  induction xs with
  | nil => exact ⟨[], rfl⟩
  | cons x xs ih =>
    obtain ⟨y, hy⟩ := h x List.mem_cons_self
    obtain ⟨ys, hys⟩ := ih fun x' hx' => h x' (List.mem_cons_of_mem _ hx')
    refine ⟨y :: ys, ?_⟩
    rw [List.mapM_cons, hy, hys]
    rfl

/-- A traversal fails with the error of the first member at which the step fails. -/
theorem mapM_append_eq_error {f : α → Except ε β} {before after : List α} {x : α} {e : ε}
    {ys : List β} (hbefore : before.map f = ys.map .ok) (hx : f x = .error e) :
    (before ++ x :: after).mapM f = .error e := by
  rw [List.mapM_append, mapM_eq_ok_iff.mpr hbefore, List.mapM_cons, hx]
  rfl

end ProbeGap
