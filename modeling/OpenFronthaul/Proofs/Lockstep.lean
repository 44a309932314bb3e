import OpenFronthaul.Proofs.Steps
import Mathlib.Tactic

/-!
# Steps of two states side by side

A step takes two states in lockstep under a relation when related states give it the same result and
are related again behind it.  Steps that are put together from such steps are of this kind, so that
a long computation is seen not to depend on some part of the state by a look at its short parts.
-/

namespace OpenFronthaul

variable {ε σ α β : Type} {R : σ → σ → Prop}

/-- Related states give the same result, and are related again afterwards. -/
def InLockstep (R : σ → σ → Prop) (x : StateM σ α) : Prop :=
  ∀ ⦃s t⦄, R s t → (x s).1 = (x t).1 ∧ R (x s).2 (x t).2

/-! ## Steps that do not fail -/

lemma lockstep_pure (a : α) : InLockstep R (pure a) :=
  fun _ _ h => ⟨rfl, h⟩

lemma InLockstep.bind {x : StateM σ α} {f : α → StateM σ β} (hx : InLockstep R x)
    (hf : ∀ a, InLockstep R (f a)) : InLockstep R (x >>= f) := by
  intro s t h
  obtain ⟨hresult, hstates⟩ := hx h
  have hrest := hf (x s).1 hstates
  change (f (x s).1 (x s).2).1 = (f (x t).1 (x t).2).1 ∧
    R (f (x s).1 (x s).2).2 (f (x t).1 (x t).2).2
  rw [← hresult]
  exact hrest

lemma lockstep_mapM {f : α → StateM σ β} {as : List α} (h : ∀ a ∈ as, InLockstep R (f a)) :
    InLockstep R (as.mapM f) := by
  induction as with
  | nil => exact lockstep_pure []
  | cons a as ih =>
    obtain ⟨ha, has⟩ := List.forall_mem_cons.mp h
    rw [List.mapM_cons]
    exact ha.bind fun b => (ih has).bind fun bs => lockstep_pure (b :: bs)

/-! ## Steps that may fail -/

section Failing

variable {x : ExceptT ε (StateM σ) α} {f : α → ExceptT ε (StateM σ) β}

lemma lockstep_ok (a : α) : InLockstep R (pure a : ExceptT ε (StateM σ) α).run :=
  fun _ _ h => ⟨rfl, h⟩

lemma lockstep_throw (e : ε) : InLockstep R (throw e : ExceptT ε (StateM σ) α).run :=
  fun _ _ h => ⟨rfl, h⟩

lemma lockstep_lift (result : Except ε α) :
    InLockstep R (liftM result : ExceptT ε (StateM σ) α).run :=
  fun _ _ h => ⟨rfl, h⟩

lemma lockstep_bind (hx : InLockstep R x.run) (hf : ∀ a, InLockstep R (f a).run) :
    InLockstep R (x >>= f).run := by
  intro s t h
  obtain ⟨hresult, hstates⟩ := hx h
  rw [run_bind, run_bind]
  rcases hs : x.run s with ⟨e | a, s'⟩ <;> rcases ht : x.run t with ⟨e' | a', t'⟩ <;>
    rw [hs, ht] at hresult hstates <;> cases hresult
  · exact ⟨rfl, hstates⟩
  · exact hf a hstates

lemma lockstep_tryCatch {handle : ε → ExceptT ε (StateM σ) α} (hx : InLockstep R x.run)
    (hhandle : ∀ e, InLockstep R (handle e).run) : InLockstep R (tryCatch x handle).run := by
  intro s t h
  obtain ⟨hresult, hstates⟩ := hx h
  rw [run_tryCatch, run_tryCatch]
  rcases hs : x.run s with ⟨e | a, s'⟩ <;> rcases ht : x.run t with ⟨e' | a', t'⟩ <;>
    rw [hs, ht] at hresult hstates <;> cases hresult
  · exact hhandle e hstates
  · exact ⟨rfl, hstates⟩

/-- What is read has to lead to the same step on both sides. -/
lemma lockstep_get {g : σ → ExceptT ε (StateM σ) β} (hsame : ∀ ⦃s t⦄, R s t → g s = g t)
    (hg : ∀ s, InLockstep R (g s).run) : InLockstep R (get >>= g).run := by
  intro s t h
  rw [run_bind, run_bind, run_get, run_get]
  dsimp only
  rw [← hsame h]
  exact hg s h

lemma lockstep_modify {change : σ → σ} (h : ∀ ⦃s t⦄, R s t → R (change s) (change t)) :
    InLockstep R (modify change : ExceptT ε (StateM σ) PUnit).run :=
  fun _ _ hst => ⟨rfl, h hst⟩

lemma lockstep_forM {g : α → ExceptT ε (StateM σ) PUnit} {as : List α}
    (h : ∀ a ∈ as, InLockstep R (g a).run) : InLockstep R (as.forM g).run := by
  induction as with
  | nil => exact lockstep_ok PUnit.unit
  | cons a as ih =>
    obtain ⟨ha, has⟩ := List.forall_mem_cons.mp h
    rw [List.forM_eq_forM, List.forM_cons]
    exact lockstep_bind ha fun _ => ih has

end Failing

end OpenFronthaul
