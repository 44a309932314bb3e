import OpenFronthaul.Error
import Mathlib.Data.List.Forall2

/-!
# Steps that may fail

The producer, the receiver and the section store work by steps that may fail and whose effect on the
state stays when they do.  This file says what the parts of such a step do when it is run, so that
later files can run one without opening the monad that it is written in.
-/

namespace OpenFronthaul

variable {ε σ α β : Type}

/-! ## Results -/

@[simp] theorem ok_bind (a : α) (f : α → Except ε β) : (Except.ok a >>= f) = f a := rfl

@[simp] theorem error_bind (e : ε) (f : α → Except ε β) :
    (Except.error e >>= f) = Except.error e := rfl

/-- A chain of two computations succeeds when both do. -/
theorem bind_eq_ok {x : Except ε α} {f : α → Except ε β} {b : β} :
    x >>= f = .ok b ↔ ∃ a, x = .ok a ∧ f a = .ok b := by
  constructor
  · intro h
    cases x with
    | error e => cases h
    | ok a => exact ⟨a, rfl, h⟩
  · rintro ⟨a, rfl, h⟩
    exact h

/-- A guard in front of a computation lets it through when it does not refuse. -/
theorem guard_eq_ok {p : Prop} [Decidable p] {e : ε} {x : Except ε α} {a : α} :
    (if p then throw e else x) = .ok a ↔ ¬p ∧ x = .ok a := by
  by_cases h : p
  · simp [h, throw, throwThe, MonadExceptOf.throw]
  · simp [h]

/-- A check at the start of a computation lets it through when it does not refuse. -/
theorem check_eq_ok {γ : Type} {p : Prop} [Decidable p] {e : ε} {f : γ → Except ε α}
    {x : Except ε α} {a : α} :
    (if p then throw e >>= f else x) = .ok a ↔ ¬p ∧ x = .ok a :=
  guard_eq_ok

/-- A chain of two computations fails when the first one does, or the second one behind it. -/
theorem bind_eq_error {x : Except ε α} {f : α → Except ε β} {e : ε} :
    x >>= f = .error e ↔ x = .error e ∨ ∃ a, x = .ok a ∧ f a = .error e := by
  constructor
  · intro h
    cases x with
    | error e' => exact .inl (by cases h; rfl)
    | ok a => exact .inr ⟨a, rfl, h⟩
  · rintro (rfl | ⟨a, rfl, h⟩)
    · rfl
    · exact h

/-- A guard in front of a computation fails when it refuses, or lets a failure through. -/
theorem guard_eq_error {p : Prop} [Decidable p] {e e' : ε} {x : Except ε α} :
    (if p then throw e' else x) = .error e ↔ p ∧ e' = e ∨ ¬p ∧ x = .error e := by
  by_cases h : p
  · simp [h, throw, throwThe, MonadExceptOf.throw]
  · simp [h]

/-- A check at the start of a computation fails when it refuses, or lets a failure through. -/
theorem check_eq_error {γ : Type} {p : Prop} [Decidable p] {e e' : ε} {f : γ → Except ε α}
    {x : Except ε α} :
    (if p then throw e' >>= f else x) = .error e ↔ p ∧ e' = e ∨ ¬p ∧ x = .error e :=
  guard_eq_error

theorem pure_eq_ok {a b : α} : (pure a : Except ε α) = .ok b ↔ a = b := by
  simp [pure, Except.pure]

theorem liftLink_eq_ok {x : Except LinkError α} {a : α} : liftLink x = .ok a ↔ x = .ok a := by
  cases x with
  | error e => exact ⟨nofun, nofun⟩
  | ok b => exact ⟨fun h => congrArg Except.ok (Except.ok.inj h), fun h => h ▸ rfl⟩

theorem mapError_eq_ok {ε' : Type} {f : ε → ε'} {x : Except ε α} {a : α} :
    x.mapError f = .ok a ↔ x = .ok a := by
  cases x with
  | error e => exact ⟨nofun, nofun⟩
  | ok b => exact ⟨fun h => congrArg Except.ok (Except.ok.inj h), fun h => h ▸ rfl⟩

/-- A check of every element of a list succeeds when it succeeds for each of them. -/
theorem forM_eq_ok {f : α → Except ε Unit} {as : List α} :
    as.forM f = .ok () ↔ ∀ a ∈ as, f a = .ok () := by
  induction as with
  | nil => exact ⟨nofun, fun _ => rfl⟩
  | cons a as ih =>
    have hcons : (a :: as).forM f = (f a >>= fun _ => as.forM f) := rfl
    rw [List.forall_mem_cons, ← ih, hcons, bind_eq_ok]
    exact ⟨fun ⟨_, ha, has⟩ => ⟨ha, has⟩, fun ⟨ha, has⟩ => ⟨(), ha, has⟩⟩

/-- A computation succeeds for a list when it succeeds for each of the elements, with the results in
their order. -/
theorem mapM_eq_ok {f : α → Except ε β} {as : List α} {bs : List β} :
    as.mapM f = .ok bs ↔ List.Forall₂ (fun a b => f a = .ok b) as bs := by
  induction as generalizing bs with
  | nil => rw [List.mapM_nil, pure_eq_ok, List.forall₂_nil_left_iff, eq_comm]
  | cons a as ih =>
    simp only [List.mapM_cons, bind_eq_ok, pure_eq_ok, ih, List.forall₂_cons_left_iff]
    exact ⟨fun ⟨b, hb, bs, hbs, h⟩ => ⟨b, bs, hb, hbs, h.symm⟩,
      fun ⟨b, bs, hb, hbs, h⟩ => ⟨b, hb, bs, hbs, h.symm⟩⟩

/-- A computation succeeds for a list exactly when it succeeds for each of the elements. -/
theorem exists_mapM_iff {f : α → Except ε β} {as : List α} :
    (∃ bs, as.mapM f = .ok bs) ↔ ∀ a ∈ as, ∃ b, f a = .ok b := by
  simp only [mapM_eq_ok]
  induction as with
  | nil => exact ⟨fun _ => nofun, fun _ => ⟨[], .nil⟩⟩
  | cons a as ih =>
    rw [List.forall_mem_cons, ← ih]
    constructor
    · rintro ⟨_, _ | ⟨hb, hbs⟩⟩
      exact ⟨⟨_, hb⟩, _, hbs⟩
    · rintro ⟨⟨b, hb⟩, bs, hbs⟩
      exact ⟨b :: bs, .cons hb hbs⟩

/-! ## Lists whose entries go together -/

section Pairs

variable {R S : α → β → Prop} {xs : List α} {ys : List β}

/-- Of two lists whose entries go together, an entry of the second has one of the first. -/
theorem exists_of_mem_right {y : β} (h : List.Forall₂ R xs ys) (hy : y ∈ ys) : ∃ x ∈ xs, R x y := by
  obtain ⟨i, hi, rfl⟩ := List.getElem_of_mem hy
  have hi' := h.length_eq ▸ hi
  exact ⟨xs[i], List.getElem_mem hi', h.get hi' hi⟩

/-- Lists whose entries go together in two ways, with the entries as such. -/
theorem forall₂_mem_and (h : List.Forall₂ R xs ys) (h' : List.Forall₂ S xs ys) :
    List.Forall₂ (fun x y => x ∈ xs ∧ y ∈ ys ∧ R x y ∧ S x y) xs ys :=
  List.forall₂_iff_get.mpr ⟨h.length_eq, fun _ hi hi' =>
    ⟨List.get_mem _ _, List.get_mem _ _, h.get hi hi', h'.get hi hi'⟩⟩

/-- What goes together in one way goes together in another, if this holds for the entries. -/
theorem forall₂_imp_of_mem (h : List.Forall₂ R xs ys)
    (himp : ∀ x ∈ xs, ∀ y ∈ ys, R x y → S x y) : List.Forall₂ S xs ys :=
  (forall₂_mem_and h h).imp fun x y hxy => himp x hxy.1 y hxy.2.1 hxy.2.2.1

/-- What goes together with entries that are numbered goes together with the entries. -/
theorem forall₂_of_zipIdx {n : ℕ} (h : List.Forall₂ (fun x y => R x.1 y) (xs.zipIdx n) ys) :
    List.Forall₂ R xs ys := by
  rw [← List.zipIdx_map_fst n xs, List.forall₂_map_left_iff]
  exact h

end Pairs

/-! ## Steps with a state -/

/-- A step that is followed by another one passes its result and its state on; after a failure the
state stays. -/
theorem run_bind (x : ExceptT ε (StateM σ) α) (f : α → ExceptT ε (StateM σ) β) (s : σ) :
    (x >>= f).run s =
      match x.run s with
      | (.ok a, t) => (f a).run t
      | (.error e, t) => (.error e, t) := by
  have h : (x >>= f).run s = (ExceptT.bindCont f (x.run s).1).run (x.run s).2 := rfl
  rw [h]
  rcases x.run s with ⟨_ | a, t⟩ <;> rfl

/-- A step whose result is changed is as it was in every other respect. -/
theorem run_map (f : α → β) (x : ExceptT ε (StateM σ) α) (s : σ) :
    (f <$> x).run s = ((x.run s).1.map f, (x.run s).2) := by
  have h : (f <$> x).run s = (x >>= fun a => pure (f a)).run s := rfl
  rw [h, run_bind]
  rcases x.run s with ⟨_ | a, t⟩ <;> rfl

/-- A step that is followed by another one succeeds when both do. -/
theorem run_bind_eq_ok {x : ExceptT ε (StateM σ) α} {f : α → ExceptT ε (StateM σ) β} {s t : σ}
    {b : β} : (x >>= f).run s = (.ok b, t) ↔
      ∃ a u, x.run s = (.ok a, u) ∧ (f a).run u = (.ok b, t) := by
  rw [run_bind]
  constructor
  · intro h
    rcases hx : x.run s with ⟨e | a, u⟩
    · rw [hx] at h
      cases h
    · rw [hx] at h
      exact ⟨a, u, rfl, h⟩
  · rintro ⟨a, u, hx, hf⟩
    rw [hx]
    exact hf

/-- A step that is seen to succeed has a result. -/
theorem exists_run_eq_ok {x : ExceptT ε (StateM σ) α} {s : σ} (h : (x.run s).1.isOk = true) :
    ∃ a t, x.run s = (.ok a, t) := by
  rcases hx : x.run s with ⟨e | a, t⟩
  · rw [hx] at h
    cases h
  · exact ⟨a, t, rfl⟩

/-- A step that is seen to fail has a cause. -/
theorem exists_run_eq_error {x : ExceptT ε (StateM σ) α} {s : σ} (h : (x.run s).1.isOk = false) :
    ∃ e t, x.run s = (.error e, t) := by
  rcases hx : x.run s with ⟨e | a, t⟩
  · exact ⟨e, t, rfl⟩
  · rw [hx] at h
    cases h

theorem run_forM_cons (f : α → ExceptT ε (StateM σ) PUnit) (a : α) (as : List α) (s : σ) :
    ((a :: as).forM f).run s =
      match (f a).run s with
      | (.ok _, t) => (as.forM f).run t
      | (.error e, t) => (.error e, t) := by
  rw [List.forM_eq_forM, List.forM_cons, run_bind]
  rcases (f a).run s with ⟨_ | _, t⟩ <;> rfl

/-- A list is gone through from its head on. -/
theorem mapM_cons_apply (f : α → StateM σ β) (a : α) (as : List α) (s : σ) :
    (a :: as).mapM f s =
      ((f a s).1 :: (as.mapM f (f a s).2).1, (as.mapM f (f a s).2).2) := by
  rw [List.mapM_cons]
  rfl

theorem run_get (s : σ) : (get : ExceptT ε (StateM σ) σ).run s = (.ok s, s) := rfl

theorem run_modify (f : σ → σ) (s : σ) :
    (modify f : ExceptT ε (StateM σ) PUnit).run s = (.ok ⟨⟩, f s) := rfl

/-- A computation without a state leaves the state alone. -/
theorem run_lift (x : Except ε α) (s : σ) :
    (liftM x : ExceptT ε (StateM σ) α).run s = (x, s) := rfl

/-- The handler of a failure starts from the state that the failure left. -/
theorem run_tryCatch (x : ExceptT ε (StateM σ) α) (f : ε → ExceptT ε (StateM σ) α) (s : σ) :
    (tryCatch x f).run s =
      match x.run s with
      | (.ok a, t) => (.ok a, t)
      | (.error e, t) => (f e).run t := by
  have h : (tryCatch x f).run s =
      (match (x.run s).1 with
        | .ok a => (pure a : ExceptT ε (StateM σ) α)
        | .error e => f e).run (x.run s).2 := by
    simp only [tryCatch, tryCatchThe, MonadExceptOf.tryCatch, ExceptT.tryCatch, ExceptT.run,
      ExceptT.mk]
    rfl
  rw [h]
  rcases x.run s with ⟨_ | a, t⟩ <;> rfl

end OpenFronthaul
