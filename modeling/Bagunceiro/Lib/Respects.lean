/-
# Lib.Respects -- runs that cannot be told apart

Two states may differ in what an action never shows, such as where the portions of its
input are cut.  An action respects such a relation if from related states it fails in
the same way, or has the same result and leads to related states again; how they are
related then may depend on the result.  Actions made of such actions are such actions
(`Respects.bind`).
-/
import Mathlib.Init

namespace Indistinct

set_option autoImplicit false

variable {ε σ α β : Type}

/-- The same failure, or the same result and related states. -/
inductive Results (R : α → σ → σ → Prop) : Except ε (α × σ) → Except ε (α × σ) → Prop
  | error (e : ε) : Results R (.error e) (.error e)
  | ok (a : α) {s t : σ} (related : R a s t) : Results R (.ok (a, s)) (.ok (a, t))

namespace Results

variable {R S : α → σ → σ → Prop} {x y z : Except ε (α × σ)}

theorem mono (results : Results R x y) (weaker : ∀ a s t, R a s t → S a s t) : Results S x y := by
  cases results with
  | error e => exact .error e
  | ok a related => exact .ok a (weaker a _ _ related)

theorem symm (results : Results R x y) (symm : ∀ a s t, R a s t → S a t s) : Results S y x := by
  cases results with
  | error e => exact .error e
  | ok a related => exact .ok a (symm a _ _ related)

theorem trans {T : α → σ → σ → Prop} (first : Results R x y) (second : Results S y z)
    (trans : ∀ a s t u, R a s t → S a t u → T a s u) : Results T x z := by
  cases first with
  | error e =>
      cases second
      exact .error e
  | ok a related =>
      cases second with
      | ok _ related' => exact .ok a (trans a _ _ _ related related')

/-- What is known of the first run. -/
theorem and {P : α → σ → Prop} (results : Results R x y)
    (holds : ∀ a s, x = .ok (a, s) → P a s) : Results (fun a s t => R a s t ∧ P a s) x y := by
  cases results with
  | error e => exact .error e
  | ok a related => exact .ok a ⟨related, holds a _ rfl⟩

theorem bind {T : β → σ → σ → Prop} {f g : α → StateT σ (Except ε) β} (results : Results R x y)
    (next : ∀ a s t, R a s t → Results T (f a s) (g a t)) :
    Results T (x >>= fun r => f r.1 r.2) (y >>= fun r => g r.1 r.2) := by
  cases results with
  | error e => exact .error e
  | ok a related => exact next a _ _ related

end Results

/-- States related by `R` are led to states related by `S`. -/
def Respects (R : σ → σ → Prop) (S : α → σ → σ → Prop) (f : StateT σ (Except ε) α) : Prop :=
  ∀ s t, R s t → Results S (f s) (f t)

variable {R : σ → σ → Prop} {S S' : α → σ → σ → Prop} {T : β → σ → σ → Prop}

theorem Respects.pure_ (a : α) (related : ∀ s t, R s t → S a s t) :
    Respects R S (pure a : StateT σ (Except ε) α) :=
  fun s t r => .ok a (related s t r)

theorem Respects.throw_ (e : ε) : Respects R S (throw e : StateT σ (Except ε) α) :=
  fun _ _ _ => .error e

/-- An action that changes the state first. -/
theorem Respects.modify_bind {Q : σ → σ → Prop} {u : σ → σ} {g : Unit → StateT σ (Except ε) β}
    (changed : ∀ s t, R s t → Q (u s) (u t)) (next : Respects Q T (g ())) :
    Respects R T ((modify u : StateT σ (Except ε) Unit) >>= g) :=
  fun s t related => next (u s) (u t) (changed s t related)

/-- An action that looks at the state. -/
theorem Respects.get_bind {g : σ → StateT σ (Except ε) β}
    (next : ∀ s t, R s t → Results T (g s s) (g t t)) :
    Respects R T ((get : StateT σ (Except ε) σ) >>= g) :=
  fun s t related => next s t related

/-- What does not look at the state. -/
theorem Respects.lift_ (x : Except ε α) : Respects R (fun _ => R) (liftM x : StateT σ (Except ε) α) := by
  intro s t related
  cases x with
  | error e => exact .error e
  | ok a => exact .ok a related

/-- One after the other. -/
theorem Respects.bind {f : StateT σ (Except ε) α} {g : α → StateT σ (Except ε) β}
    (first : Respects R S f) (second : ∀ a, Respects (S a) T (g a)) : Respects R T (f >>= g) :=
  fun s t related => (first s t related).bind fun a s t => second a s t

/-- One run succeeds if the other does. -/
theorem Respects.of_right {f : StateT σ (Except ε) α} (respects : Respects R S f) {s t t' : σ} {a : α}
    (related : R s t) (ran : f t = .ok (a, t')) : ∃ s', f s = .ok (a, s') ∧ S a s' t' := by
  have results := respects s t related
  rw [ran] at results
  generalize f s = x at results
  cases results with
  | ok a related => exact ⟨_, rfl, related⟩

theorem Respects.mono {f : StateT σ (Except ε) α} (respects : Respects R S f)
    (weaker : ∀ a s t, S a s t → S' a s t) : Respects R S' f :=
  fun s t related => (respects s t related).mono weaker

theorem Respects.of {Q : σ → σ → Prop} {f : StateT σ (Except ε) α} (respects : Respects R S f)
    (stronger : ∀ s t, Q s t → R s t) : Respects Q S f :=
  fun s t related => respects s t (stronger s t related)

end Indistinct
