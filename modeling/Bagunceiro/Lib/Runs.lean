/-
# Lib.Runs -- a server that takes one event after the other

`serveAll` runs a program for each event, in order.  `serveAll_induction` is the
proof rule for such runs: an invariant that relates the events so far to the
state of the system, and that every allowed next event keeps, holds after every
allowed run, and no event of the run fails.

`history` pairs the events of a run with the states they find, and
`history_later` carries what one of them establishes on to a later one.
-/
import Mathlib.Data.Nat.Init
import Bagunceiro.Lib.Prog

namespace Effect

set_option autoImplicit false

namespace Prog

variable {ε C : Type} {A : C → Type} {σ E β : Type}

def serveAll (serve : E → Prog ε C A β) : List E → Prog ε C A Unit
  | [] => .ret ()
  | e :: es => serve e >>= fun _ => serveAll serve es

variable (h : Handler C A σ) {serve : E → Prog ε C A β}

/-- **Induction over a run.** -/
theorem serveAll_induction {allowed : List E → Prop}
    (closed : ∀ past later, allowed (past ++ later) → allowed past)
    {inv : List E → σ → Prop}
    (keep : ∀ past e s, allowed (past ++ [e]) → inv past s →
      ∃ b t, run h (serve e) s = (.ok b, t) ∧ inv (past ++ [e]) t)
    (events past : List E) (s : σ) (all : allowed (past ++ events)) (start : inv past s) :
    ∃ t, run h (serveAll serve events) s = (.ok (), t) ∧ inv (past ++ events) t := by
  induction events generalizing past s with
  | nil =>
      refine ⟨s, rfl, ?_⟩
      rw [List.append_nil]
      exact start
  | cons e es ih =>
      have split_ : past ++ e :: es = past ++ [e] ++ es := by simp
      rw [split_] at all ⊢
      obtain ⟨b, t, ran, kept⟩ := keep past e s (closed _ _ all) start
      obtain ⟨u, rest, final⟩ := ih (past ++ [e]) t all kept
      refine ⟨u, ?_, final⟩
      rw [serveAll, run_bind_ok h ran]
      exact rest

end Prog

/-! ## From one event of a run to a later one -/

section History

variable {E σ : Type} (step : E → σ → σ)

/-- The events of a run, each with the state it finds. -/
def history : List E → σ → List (E × σ)
  | [], _ => []
  | e :: es, s => (e, s) :: history es (step e s)

theorem map_fst_history (events : List E) (s : σ) : (history step events s).map Prod.fst = events := by
  induction events generalizing s with
  | nil => rfl
  | cons e es ih => rw [history, List.map_cons, ih]

variable {events : List E} {s : σ} {i j : Nat} {x y : E × σ}

theorem history_succ (here : (history step events s)[i]? = some x)
    (next : (history step events s)[i + 1]? = some y) : y.2 = step x.1 x.2 := by
  induction events generalizing s i with
  | nil => cases here
  | cons e es ih =>
      rw [history, List.getElem?_cons_succ] at next
      cases i with
      | zero =>
          cases here
          cases es with
          | nil => cases next
          | cons e' es =>
              cases next
              rfl
      | succ i =>
          rw [history, List.getElem?_cons_succ] at here
          exact ih here next

/-- **What one event establishes, and the ones after it keep, a later one finds.** -/
theorem history_later (inv : σ → Prop) (less : i < j)
    (first : (history step events s)[i]? = some x) (last : (history step events s)[j]? = some y)
    (establish : inv (step x.1 x.2))
    (keep : ∀ k z, i < k → (history step events s)[k]? = some z → inv z.2 → inv (step z.1 z.2)) :
    inv y.2 := by
  induction j, less using Nat.le_induction generalizing y with
  | base =>
      rw [history_succ step first last]
      exact establish
  | succ j more ih =>
      have short : j < (history step events s).length :=
        Nat.lt_of_succ_lt (List.getElem?_eq_some_iff.1 last).1
      have middle := List.getElem?_eq_getElem short
      rw [history_succ step middle last]
      exact keep j _ more middle (ih middle)

/-- Events in an order are found in that order. -/
theorem history_pairwise {before : E → E → Prop} (ordered : events.Pairwise before) (less : i < j)
    (first : (history step events s)[i]? = some x) (last : (history step events s)[j]? = some y) :
    before x.1 y.1 := by
  rw [← map_fst_history step events s, List.pairwise_map, List.pairwise_iff_getElem] at ordered
  obtain ⟨left, rfl⟩ := List.getElem?_eq_some_iff.1 first
  obtain ⟨right, rfl⟩ := List.getElem?_eq_some_iff.1 last
  exact ordered i j left right less

end History

end Effect
