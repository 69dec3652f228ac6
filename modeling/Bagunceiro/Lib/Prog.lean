/-
# Lib.Prog -- programs that call a system

A `Prog` is a sequential program whose only effects are calls to a system it
runs on: it returns, it fails, or it makes a call and goes on with the answer.
What the calls do is not part of the program; a `Handler` supplies it.

Two readings of one program are used:

* `Prog.run`: the program alone on the system, from start to end;
* `Prog.visited`: every state of the system an observer (or a crash) can meet
  while the program runs alone, the first and the last included.

Two programs on one system, call by call, are in `Lib.Interleave`.
-/
import Mathlib.Data.List.Basic

namespace Effect

set_option autoImplicit false

/-- A program with calls `C`, answers `A` and failures `ε`. -/
inductive Prog (ε C : Type) (A : C → Type) (α : Type) where
  | ret (a : α)
  | fail (e : ε)
  | call (c : C) (k : A c → Prog ε C A α)

/-- What one call answers and what it does to the state of the system. -/
abbrev Handler (C : Type) (A : C → Type) (σ : Type) := (c : C) → σ → A c × σ

namespace Prog

variable {ε C : Type} {A : C → Type} {α β γ σ : Type}

protected def bind : Prog ε C A α → (α → Prog ε C A β) → Prog ε C A β
  | .ret a, f => f a
  | .fail e, _ => .fail e
  | .call c k, f => .call c fun x => (k x).bind f

instance : Monad (Prog ε C A) where
  pure := .ret
  bind := Prog.bind

/-- One call, answered with what the system says. -/
def perform (c : C) : Prog ε C A (A c) := .call c .ret

@[simp] theorem pure_eq (a : α) : (pure a : Prog ε C A α) = .ret a := rfl

@[simp] theorem ret_bind (a : α) (f : α → Prog ε C A β) : (.ret a : Prog ε C A α) >>= f = f a := rfl

@[simp] theorem call_bind (c : C) (k : A c → Prog ε C A α) (f : α → Prog ε C A β) :
    (.call c k : Prog ε C A α) >>= f = .call c fun x => k x >>= f := rfl

theorem bind_assoc (p : Prog ε C A α) (f : α → Prog ε C A β) (g : β → Prog ε C A γ) :
    (p >>= f) >>= g = p >>= fun a => f a >>= g := by
  induction p with
  | ret a => rfl
  | fail e => rfl
  | call c k ih =>
      show (.call c fun x => (k x >>= f) >>= g : Prog ε C A γ) = _
      simp only [ih, call_bind]

theorem bind_ret (p : Prog ε C A α) : p >>= .ret = p := by
  induction p with
  | ret a => rfl
  | fail e => rfl
  | call c k ih =>
      show (.call c fun x => k x >>= .ret : Prog ε C A α) = _
      simp only [ih]

/-- Every call the program can make is one of these. -/
def Makes (ok : C → Prop) : Prog ε C A α → Prop
  | .ret _ => True
  | .fail _ => True
  | .call c k => ok c ∧ ∀ x, Makes ok (k x)

theorem Makes.bind {ok : C → Prop} {p : Prog ε C A α} {f : α → Prog ε C A β} (first : p.Makes ok)
    (rest : ∀ a, (f a).Makes ok) : (p >>= f).Makes ok := by
  induction p with
  | ret a => exact rest a
  | fail e => exact True.intro
  | call c k ih => exact ⟨first.1, fun x => ih x (first.2 x)⟩

/-! ## Running alone -/

/-- Run to the end; a failure keeps the state it happened in. -/
def run (h : Handler C A σ) : Prog ε C A α → σ → Except ε α × σ
  | .ret a, s => (.ok a, s)
  | .fail e, s => (.error e, s)
  | .call c k, s => run h (k (h c s).1) (h c s).2

variable (h : Handler C A σ)

@[simp] theorem run_ret (a : α) (s : σ) : run h (.ret a : Prog ε C A α) s = (.ok a, s) := rfl

@[simp] theorem run_fail (e : ε) (s : σ) :
    run h (.fail e : Prog ε C A α) s = (.error e, s) := rfl

/-- Sequencing: the rest runs from where the first part returned. -/
theorem run_bind (p : Prog ε C A α) (f : α → Prog ε C A β) (s : σ) :
    run h (p >>= f) s =
      match run h p s with
      | (.ok a, t) => run h (f a) t
      | (.error e, t) => (.error e, t) := by
  induction p generalizing s with
  | ret a => rfl
  | fail e => rfl
  | call c k ih => exact ih _ _

theorem run_bind_ok {p : Prog ε C A α} {f : α → Prog ε C A β} {s t : σ} {a : α}
    (first : run h p s = (.ok a, t)) : run h (p >>= f) s = run h (f a) t := by
  rw [run_bind, first]

theorem run_bind_error {p : Prog ε C A α} {f : α → Prog ε C A β} {s t : σ} {e : ε}
    (first : run h p s = (.error e, t)) : run h (p >>= f) s = (.error e, t) := by
  rw [run_bind, first]

/-- What a sequence returns is returned by its rest. -/
theorem exists_of_run_bind {p : Prog ε C A α} {f : α → Prog ε C A β} {s t : σ} {b : β}
    (ran : run h (p >>= f) s = (.ok b, t)) :
    ∃ a u, run h p s = (.ok a, u) ∧ run h (f a) u = (.ok b, t) := by
  rw [run_bind] at ran
  cases first : run h p s with
  | mk result u =>
      rw [first] at ran
      cases result with
      | ok a => exact ⟨a, u, rfl, ran⟩
      | error e => cases ran

theorem exists_of_run_ok {p : Prog ε C A α} {s : σ} (ends : (run h p s).1.isOk = true) :
    ∃ a t, run h p s = (.ok a, t) := by
  cases ran : run h p s with
  | mk result t =>
      rw [ran] at ends
      cases result with
      | ok a => exact ⟨a, t, rfl⟩
      | error e => cases ends

/-- A sequence that returns has gone through its first part. -/
theorem exists_of_run_bind_ok {p : Prog ε C A α} {f : α → Prog ε C A β} {s : σ}
    (ends : (run h (p >>= f) s).1.isOk = true) :
    ∃ a t, run h p s = (.ok a, t) ∧ (run h (f a) t).1.isOk = true := by
  obtain ⟨b, t, ran⟩ := exists_of_run_ok h ends
  obtain ⟨a, u, first, rest⟩ := exists_of_run_bind h ran
  exact ⟨a, u, first, by rw [rest]; rfl⟩

/-- What only computes behind a program leaves the state to it. -/
theorem run_bind_snd {p : Prog ε C A α} {f : α → Prog ε C A β}
    (computes : ∀ a s, (run h (f a) s).2 = s) (s : σ) : (run h (p >>= f) s).2 = (run h p s).2 := by
  rw [run_bind]
  cases run h p s with
  | mk result t =>
      cases result with
      | ok a => exact computes a t
      | error e => rfl

/-! ## What an observer can meet -/

/-- The states before, between and after the calls of a run. -/
def visited : Prog ε C A α → σ → List σ
  | .ret _, s => [s]
  | .fail _, s => [s]
  | .call c k, s => s :: visited (k (h c s).1) (h c s).2

theorem mem_visited_start (p : Prog ε C A α) (s : σ) : s ∈ visited h p s := by
  cases p <;> simp [visited]

/-- Whatever the second part of a sequence meets, the sequence meets. -/
theorem mem_visited_bind {p : Prog ε C A α} {f : α → Prog ε C A β} {s t u : σ} {a : α}
    (first : run h p s = (.ok a, t)) (member : u ∈ visited h (f a) t) :
    u ∈ visited h (p >>= f) s := by
  induction p generalizing s with
  | ret b =>
      simp only [run_ret, Prod.mk.injEq, Except.ok.injEq] at first
      obtain ⟨rfl, rfl⟩ := first
      exact member
  | fail e => simp at first
  | call c k ih => exact List.mem_cons_of_mem _ (ih _ first)

/-- Whatever the first part of a sequence meets, the sequence meets. -/
theorem mem_visited_bind_left {p : Prog ε C A α} {f : α → Prog ε C A β} {s u : σ}
    (member : u ∈ visited h p s) : u ∈ visited h (p >>= f) s := by
  induction p generalizing s with
  | ret a =>
      simp only [visited, List.mem_singleton] at member
      subst member
      exact mem_visited_start h _ _
  | fail e => exact member
  | call c k ih =>
      rcases List.mem_cons.1 member with rfl | later
      · exact List.mem_cons_self
      · exact List.mem_cons_of_mem _ (ih _ later)

/-- A call's outcome is met when the program goes on from it. -/
theorem mem_visited_call {c : C} {k : A c → Prog ε C A α} {s u : σ}
    (member : u ∈ visited h (k (h c s).1) (h c s).2) : u ∈ visited h (.call c k) s :=
  List.mem_cons_of_mem _ member

end Prog

end Effect
