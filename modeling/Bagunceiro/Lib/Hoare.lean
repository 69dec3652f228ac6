/-
# Lib.Hoare -- what runs leave, alone and in pairs

`Ensures` is a triple with two ends: one for runs that return and one for runs
that fail.  `Agree` is its relational form: two programs started in related
states both return, with related results, or both fail.  Both are proved along
the program's structure; a call is where the handler comes in.  `Returns` and
`Alike` are the same for computations without a state.
-/
import Bagunceiro.Lib.Prog

namespace Effect

set_option autoImplicit false

namespace Prog

variable {ε C : Type} {A : C → Type} {α β γ δ σ : Type}

/-! ## One run -/

/-- From `pre`, a run that returns ends in `post`, and one that fails in `exc`. -/
def Ensures (h : Handler C A σ) (pre : σ → Prop) (p : Prog ε C A α) (post : α → σ → Prop)
    (exc : σ → Prop) : Prop :=
  ∀ s, pre s →
    match run h p s with
    | (.ok a, t) => post a t
    | (.error _, t) => exc t

section Ensures

variable {h : Handler C A σ} {pre : σ → Prop} {exc : σ → Prop}

theorem Ensures.ret {a : α} {post : α → σ → Prop} (holds : ∀ s, pre s → post a s) :
    Ensures h pre (.ret a : Prog ε C A α) post exc := holds

theorem Ensures.fail {e : ε} {post : α → σ → Prop} (holds : ∀ s, pre s → exc s) :
    Ensures h pre (.fail e : Prog ε C A α) post exc := holds

theorem Ensures.bind {p : Prog ε C A α} {f : α → Prog ε C A β} {mid : α → σ → Prop}
    {post : β → σ → Prop} (first : Ensures h pre p mid exc)
    (rest : ∀ a, Ensures h (mid a) (f a) post exc) : Ensures h pre (p >>= f) post exc := by
  intro s holds
  have middle := first s holds
  rw [run_bind]
  cases ran : run h p s with
  | mk result t =>
      rw [ran] at middle
      cases result with
      | ok a => exact rest a t middle
      | error e => exact middle

/-- A judgement from the runs themselves. -/
theorem Ensures.of_run {p : Prog ε C A α} {post : α → σ → Prop}
    (returns : ∀ s a t, pre s → run h p s = (.ok a, t) → post a t)
    (fails : ∀ s e t, pre s → run h p s = (.error e, t) → exc t) : Ensures h pre p post exc := by
  intro s holds
  cases ran : run h p s with
  | mk result t =>
      cases result with
      | ok a => exact returns s a t holds ran
      | error e => exact fails s e t holds ran

theorem Ensures.of_ok {p : Prog ε C A α} {post : α → σ → Prop} {s t : σ} {a : α}
    (ensures : Ensures h pre p post exc) (holds : pre s) (ran : run h p s = (.ok a, t)) :
    post a t := by
  have ends := ensures s holds
  rw [ran] at ends
  exact ends

theorem Ensures.of_error {p : Prog ε C A α} {post : α → σ → Prop} {s t : σ} {e : ε}
    (ensures : Ensures h pre p post exc) (holds : pre s) (ran : run h p s = (.error e, t)) :
    exc t := by
  have ends := ensures s holds
  rw [ran] at ends
  exact ends

theorem Ensures.mono {p : Prog ε C A α} {post post' : α → σ → Prop} {exc' : σ → Prop}
    (ensures : Ensures h pre p post exc) (returns : ∀ a t, post a t → post' a t)
    (fails : ∀ t, exc t → exc' t) : Ensures h pre p post' exc' :=
  .of_run (fun _ a t holds ran => returns a t (ensures.of_ok holds ran))
    fun _ _ t holds ran => fails t (ensures.of_error holds ran)

/-- A fact that is not about the state can be had beforehand. -/
theorem Ensures.of_fact {p : Prog ε C A α} {post : α → σ → Prop} {fact : Prop}
    (ensures : fact → Ensures h (fun _ => True) p post exc) : Ensures h (fun _ => fact) p post exc :=
  fun s holds => ensures holds s True.intro

/-- Of a run of which nothing is known, nothing is said. -/
theorem Ensures.any (p : Prog ε C A α) :
    Ensures h pre p (fun _ _ => True) (fun _ => True) :=
  .of_run (fun _ _ _ _ _ => True.intro) fun _ _ _ _ _ => True.intro

theorem Ensures.and {p : Prog ε C A α} {post post' : α → σ → Prop} {exc' : σ → Prop}
    (one : Ensures h pre p post exc) (other : Ensures h pre p post' exc') :
    Ensures h pre p (fun a t => post a t ∧ post' a t) (fun t => exc t ∧ exc' t) :=
  .of_run (fun _ _ _ holds ran => ⟨one.of_ok holds ran, other.of_ok holds ran⟩)
    fun _ _ _ holds ran => ⟨one.of_error holds ran, other.of_error holds ran⟩

/-- A judgement can be proved for one start at a time. -/
theorem Ensures.each {p : Prog ε C A α} {post : α → σ → Prop}
    (from_ : ∀ s, pre s → Ensures h (· = s) p post exc) : Ensures h pre p post exc :=
  fun s holds => from_ s holds s rfl

/-- The state after any run. -/
theorem Ensures.state {p : Prog ε C A α} {inv : σ → Prop} {s : σ}
    (ensures : Ensures h pre p (fun _ => inv) inv) (holds : pre s) : inv (run h p s).2 := by
  have ends := ensures s holds
  cases ran : run h p s with
  | mk result t =>
      rw [ran] at ends
      cases result with
      | ok a => exact ends
      | error e => exact ends

/-- What is so after any run, however it ends. -/
theorem Ensures.of_state {p : Prog ε C A α} {inv : σ → Prop}
    (state : ∀ s, pre s → inv (run h p s).2) : Ensures h pre p (fun _ => inv) inv := by
  intro s holds
  have ends := state s holds
  cases ran : run h p s with
  | mk result t =>
      rw [ran] at ends
      cases result with
      | ok a => exact ends
      | error e => exact ends

end Ensures

/-! ## Computations that may fail -/

/-- What is returned, if anything is. -/
def Returns (post : α → Prop) (x : Except ε α) : Prop := ∀ a, x = .ok a → post a

theorem Returns.ok {a : α} {post : α → Prop} (holds : post a) :
    Returns post (.ok a : Except ε α) := by
  rintro _ ⟨⟩
  exact holds

theorem Returns.self (x : Except ε α) : Returns (fun a => x = .ok a) x := fun _ => id

theorem Returns.bind {x : Except ε α} {f : α → Except ε β} {mid : α → Prop} {post : β → Prop}
    (first : Returns mid x) (rest : ∀ a, mid a → Returns post (f a)) : Returns post (x >>= f) := by
  intro b ran
  cases x with
  | ok a => exact rest a (first a rfl) b ran
  | error e => cases ran

/-- Something is returned. -/
def Succeeds (x : Except ε α) : Prop := ∃ a, x = .ok a

theorem Succeeds.ok (a : α) : Succeeds (.ok a : Except ε α) := ⟨a, rfl⟩

theorem Succeeds.bind {x : Except ε α} {f : α → Except ε β} (first : Succeeds x)
    (rest : ∀ a, Succeeds (f a)) : Succeeds (x >>= f) := by
  obtain ⟨a, rfl⟩ := first
  exact rest a

theorem Succeeds.bind_iff {x : Except ε α} {f : α → Except ε β} {here there : Prop}
    (first : Succeeds x ↔ here) (rest : ∀ a, x = .ok a → (Succeeds (f a) ↔ there)) :
    Succeeds (x >>= f) ↔ here ∧ there := by
  cases x with
  | ok a =>
      rw [← first, ← rest a rfl]
      exact ⟨fun done => ⟨.ok a, done⟩, And.right⟩
  | error e =>
      rw [← first]
      refine ⟨?_, ?_⟩
      · rintro ⟨_, ⟨⟩⟩
      · rintro ⟨⟨_, ⟨⟩⟩, -⟩

/-! ## Two runs -/

/-- Both computations succeed, with related results, or both fail. -/
def Alike (rel : α → β → Prop) : Except ε α → Except ε β → Prop
  | .ok a, .ok b => rel a b
  | .error _, .error _ => True
  | .ok _, .error _ => False
  | .error _, .ok _ => False

theorem Alike.refl (x : Except ε α) : Alike (· = ·) x x := by
  cases x with
  | ok a => rfl
  | error e => exact True.intro

theorem Alike.mono {rel rel' : α → β → Prop} {x : Except ε α} {y : Except ε β}
    (alike : Alike rel x y) (stronger : ∀ a b, rel a b → rel' a b) : Alike rel' x y := by
  cases x with
  | ok a =>
      cases y with
      | ok b => exact stronger a b alike
      | error e => exact alike
  | error e =>
      cases y with
      | ok b => exact alike
      | error e' => exact alike

/-- What is known of the results by themselves is added to how they are related. -/
theorem Alike.and {rel rel' : α → β → Prop} {x : Except ε α} {y : Except ε β}
    (alike : Alike rel x y) (also : ∀ a b, x = .ok a → y = .ok b → rel' a b) :
    Alike (fun a b => rel a b ∧ rel' a b) x y := by
  cases x with
  | ok a =>
      cases y with
      | ok b => exact ⟨alike, also a b rfl rfl⟩
      | error e => exact alike
  | error e =>
      cases y with
      | ok b => exact alike
      | error e' => exact alike

theorem Alike.bind {rel : α → β → Prop} {rel' : γ → δ → Prop} {x : Except ε α} {y : Except ε β}
    {f : α → Except ε γ} {g : β → Except ε δ} (first : Alike rel x y)
    (rest : ∀ a b, rel a b → Alike rel' (f a) (g b)) : Alike rel' (x >>= f) (y >>= g) := by
  cases x with
  | ok a =>
      cases y with
      | ok b => exact rest a b first
      | error e => exact first.elim
  | error e =>
      cases y with
      | ok b => exact first.elim
      | error e' => exact True.intro

/-- From related states both programs return, with related results, or both fail. -/
def Agree (h : Handler C A σ) (pre : σ → σ → Prop) (p : Prog ε C A α) (q : Prog ε C A β)
    (post : α → β → σ → σ → Prop) : Prop :=
  ∀ s t, pre s t →
    Alike (fun a b => post a b (run h p s).2 (run h q t).2) (run h p s).1 (run h q t).1

section Agree

variable {h : Handler C A σ} {pre : σ → σ → Prop}

theorem Agree.ret {a : α} {b : β} {post : α → β → σ → σ → Prop}
    (holds : ∀ s t, pre s t → post a b s t) :
    Agree h pre (.ret a : Prog ε C A α) (.ret b) post := holds

theorem Agree.fail {e e' : ε} {post : α → β → σ → σ → Prop} :
    Agree h pre (.fail e : Prog ε C A α) (.fail e') post := fun _ _ _ => True.intro

theorem Agree.bind {p : Prog ε C A α} {q : Prog ε C A β} {f : α → Prog ε C A γ}
    {g : β → Prog ε C A δ} {mid : α → β → σ → σ → Prop} {post : γ → δ → σ → σ → Prop}
    (first : Agree h pre p q mid) (rest : ∀ a b, Agree h (mid a b) (f a) (g b) post) :
    Agree h pre (p >>= f) (q >>= g) post := by
  intro s t holds
  have middle := first s t holds
  rw [run_bind, run_bind]
  cases left : run h p s with
  | mk result s' =>
      cases right : run h q t with
      | mk result' t' =>
          rw [left, right] at middle
          cases result with
          | ok a =>
              cases result' with
              | ok b => exact rest a b s' t' middle
              | error e => exact middle.elim
          | error e =>
              cases result' with
              | ok b => exact middle.elim
              | error e' => exact True.intro

theorem Agree.of_ok {p : Prog ε C A α} {q : Prog ε C A β} {post : α → β → σ → σ → Prop}
    {s s' t t' : σ} {a : α} {b : β} (agree : Agree h pre p q post) (holds : pre s t)
    (left : run h p s = (.ok a, s')) (right : run h q t = (.ok b, t')) : post a b s' t' := by
  have ends := agree s t holds
  rw [left, right] at ends
  exact ends

theorem Agree.mono {p : Prog ε C A α} {q : Prog ε C A β} {post post' : α → β → σ → σ → Prop}
    (agree : Agree h pre p q post) (stronger : ∀ a b s t, post a b s t → post' a b s t) :
    Agree h pre p q post' :=
  fun s t holds => (agree s t holds).mono fun a b => stronger a b _ _

/-- A fact that is not about the states can be had beforehand. -/
theorem Agree.assuming {p : Prog ε C A α} {q : Prog ε C A β} {post : α → β → σ → σ → Prop}
    {fact : Prop} (agree : fact → Agree h pre p q post) :
    Agree h (fun s t => fact ∧ pre s t) p q post :=
  fun s t holds => agree holds.1 s t holds.2

/-- A judgement can be proved for one pair of starts at a time. -/
theorem Agree.each {p : Prog ε C A α} {q : Prog ε C A β} {post : α → β → σ → σ → Prop}
    (from_ : ∀ s t, pre s t → Agree h (fun s' t' => s' = s ∧ t' = t) p q post) :
    Agree h pre p q post :=
  fun s t holds => from_ s t holds s t ⟨rfl, rfl⟩

end Agree

end Prog

end Effect
