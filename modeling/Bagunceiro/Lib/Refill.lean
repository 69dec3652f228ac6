/-
# Lib.Refill -- reading through a buffer that is filled again when it is empty

What a source still has to give comes in portions, and each time the portion that is
ready has been taken, the source is asked for the next.  Where the portions are cut is
no concern of a reader: it collects what the source holds, up to as much as it asked
for (`Feeds.collect_eq`), and it cannot tell sources apart that give the same in other
portions (`Twins.collect`).
-/
import Bagunceiro.Lib.Respects
import Mathlib.Data.List.Basic

namespace Refill

open Indistinct

set_option autoImplicit false

/-- A source of `α`s with states `σ`, which may fail while it is filled. -/
structure Source (ε σ α : Type) where
  /-- what can be taken at once -/
  ready : σ → List α
  /-- the state behind so many of them -/
  taken : Nat → σ → σ
  closed : σ → Bool
  fill : StateT σ (Except ε) Unit
  taken_zero : ∀ s, taken 0 s = s
  taken_succ : ∀ k s, taken (k + 1) s = taken k (taken 1 s)
  ready_taken : ∀ k s, ready (taken k s) = (ready s).drop k

namespace Source

variable {ε σ α : Type} (src : Source ε σ α)

/-- Take what is ready, fill, and go on, until there is enough or the source has closed. -/
def collect : Nat → Nat → σ → Except ε (List α × σ)
  | 0, _, s => .ok ([], s)
  | rounds + 1, n, s =>
      let got := (src.ready s).take n
      let s := src.taken got.length s
      if got.length = n ∨ src.closed s then .ok (got, s)
      else do
        let filled ← src.fill s
        if src.closed filled.2 then .ok (got, filled.2)
        else do
          let rest ← collect rounds (n - got.length) filled.2
          .ok (got ++ rest.1, rest.2)

theorem collect_zero (rounds : Nat) (s : σ) : src.collect rounds 0 s = .ok ([], s) := by
  cases rounds with
  | zero => rfl
  | succ rounds =>
      rw [collect]
      simp [src.taken_zero]

/-- There is enough. -/
theorem collect_fits {s : σ} {n : Nat} (fits : n ≤ (src.ready s).length) (rounds : Nat) :
    src.collect (rounds + 1) n s = .ok ((src.ready s).take n, src.taken n s) := by
  have got : ((src.ready s).take n).length = n := by
    rw [List.length_take]
    omega
  rw [collect]
  simp only [got, true_or, if_true]

/-- The next one, and then the others. -/
theorem collect_ready {s : σ} {b : α} {more : List α} (ready : src.ready s = b :: more)
    (rounds n : Nat) :
    src.collect (rounds + 1) (n + 1) s =
      (src.collect (rounds + 1) n (src.taken 1 s)).map fun r => (b :: r.1, r.2) := by
  have behind : src.ready (src.taken 1 s) = more := by
    rw [src.ready_taken, ready]
    rfl
  have both : src.taken ((more.take n).length + 1) s =
      src.taken (more.take n).length (src.taken 1 s) := src.taken_succ _ _
  rw [collect, collect]
  simp only [ready, behind, List.take_succ_cons, List.length_cons, both, Nat.add_right_cancel_iff,
    Nat.add_sub_add_right]
  split
  · rfl
  · cases src.fill (src.taken (more.take n).length (src.taken 1 s)) with
    | error e => rfl
    | ok filled =>
        show (if src.closed filled.2 = true then _ else _) = Except.map _ (if _ then _ else _)
        split
        · rfl
        · cases src.collect rounds (n - (more.take n).length) filled.2 <;> rfl

/-- Nothing is ready: the source is filled. -/
theorem collect_empty {s : σ} (ready : src.ready s = []) (open_ : src.closed s = false)
    (rounds n : Nat) :
    src.collect (rounds + 1) (n + 1) s = src.fill s >>= fun filled =>
      if src.closed filled.2 then .ok ([], filled.2)
      else src.collect rounds (n + 1) filled.2 := by
  rw [collect]
  simp only [ready, List.take_nil, List.length_nil, src.taken_zero, open_, Bool.false_eq_true,
    or_false, Nat.sub_zero, List.nil_append]
  rw [if_neg (by omega)]
  refine bind_congr fun filled => ?_
  split
  · rfl
  · cases src.collect rounds (n + 1) filled.2 <;> rfl

theorem collect_closed {s : σ} (ready : src.ready s = []) (closed : src.closed s = true)
    (rounds n : Nat) : src.collect rounds n s = .ok ([], s) := by
  cases rounds with
  | zero => rfl
  | succ rounds =>
      rw [collect]
      simp only [ready, List.take_nil, List.length_nil, src.taken_zero, closed, or_true, if_true]

/-- So many rounds are enough: each but the first finds something ready. -/
def Enough (rounds n : Nat) (s : σ) : Prop := n < rounds ∨ n ≤ rounds ∧ src.ready s ≠ []

variable {src} {rounds n : Nat} {s : σ}

theorem Enough.pos (enough : src.Enough rounds (n + 1) s) : ∃ r, rounds = r + 1 := by
  rcases enough with less | ⟨le, -⟩
  · exact ⟨rounds - 1, by omega⟩
  · exact ⟨rounds - 1, by omega⟩

theorem Enough.taken (enough : src.Enough (rounds + 1) (n + 1) s) (t : σ) :
    src.Enough (rounds + 1) n t := by
  rcases enough with less | ⟨le, -⟩
  · exact .inl (by omega)
  · exact .inl (by omega)

theorem Enough.filled {t : σ} (enough : src.Enough (rounds + 1) (n + 1) s)
    (ready : src.ready s = []) (there : src.ready t ≠ []) : src.Enough rounds (n + 1) t := by
  rcases enough with less | ⟨-, some_⟩
  · exact .inr ⟨by omega, there⟩
  · exact absurd ready some_

end Source

/-! ## What a source holds -/

/-- A state holds what is still to come: the ready portion starts it, a closed source
has nothing more, and filling finds the next portion or the end. -/
structure Feeds {ε σ α : Type} (src : Source ε σ α) (Holds : σ → List α → Prop) : Prop where
  ready : ∀ {s bs b more}, Holds s bs → src.ready s = b :: more →
    ∃ cs, bs = b :: cs ∧ Holds (src.taken 1 s) cs
  closed : ∀ {s bs}, Holds s bs → src.ready s = [] → src.closed s = true → bs = []
  fill : ∀ {s bs}, Holds s bs → src.ready s = [] → src.closed s = false →
    ∃ s', src.fill s = .ok ((), s') ∧ Holds s' bs ∧
      (src.closed s' = true ∧ src.ready s' = [] ∨ src.closed s' = false ∧ src.ready s' ≠ [])

namespace Feeds

variable {ε σ α : Type} {src : Source ε σ α} {Holds : σ → List α → Prop}

/-- **What is collected is what the source holds.**  Fewer than were asked for are
the last ones. -/
theorem collect_eq (feeds : Feeds src Holds) {rounds n : Nat} {s : σ} {bs : List α}
    (holds : Holds s bs) (enough : src.Enough rounds n s) :
    ∃ s', src.collect rounds n s = .ok (bs.take n, s') ∧ Holds s' (bs.drop n) ∧
      (bs.length < n → src.closed s' = true) := by
  induction n generalizing rounds s bs with
  | zero => exact ⟨s, src.collect_zero rounds s, holds, fun less => absurd less (Nat.not_lt_zero _)⟩
  | succ n ih =>
      -- once something is ready, it is taken
      have here {rounds : Nat} {s : σ} {b : α} {more : List α} (holds : Holds s bs)
          (ready : src.ready s = b :: more) (enough : src.Enough rounds (n + 1) s) :
          ∃ s', src.collect rounds (n + 1) s = .ok (bs.take (n + 1), s') ∧
            Holds s' (bs.drop (n + 1)) ∧ (bs.length < n + 1 → src.closed s' = true) := by
        obtain ⟨cs, rfl, next⟩ := feeds.ready holds ready
        obtain ⟨r, rfl⟩ := enough.pos
        obtain ⟨s', ran, holds', short⟩ := ih next (enough.taken _)
        refine ⟨s', ?_, holds', fun less => short (Nat.lt_of_succ_lt_succ less)⟩
        rw [src.collect_ready ready, ran]
        rfl
      cases ready : src.ready s with
      | cons b more => exact here holds ready enough
      | nil =>
          cases closed : src.closed s with
          | true =>
              obtain rfl := feeds.closed holds ready closed
              exact ⟨s, src.collect_closed ready closed rounds (n + 1), holds, fun _ => closed⟩
          | false =>
              obtain ⟨r, rfl⟩ := enough.pos
              obtain ⟨s', filled, holds', ended | goesOn⟩ := feeds.fill holds ready closed
              · obtain rfl := feeds.closed holds' ended.2 ended.1
                refine ⟨s', ?_, holds', fun _ => ended.1⟩
                rw [src.collect_empty ready closed, filled]
                show (if src.closed s' = true then _ else _) = _
                rw [if_pos ended.1]
                rfl
              · obtain ⟨b, more, there⟩ := List.exists_cons_of_ne_nil goesOn.2
                obtain ⟨t, ran, holdsT, short⟩ := here holds' there (enough.filled ready goesOn.2)
                refine ⟨t, ?_, holdsT, short⟩
                rw [src.collect_empty ready closed, filled]
                show (if src.closed s' = true then _ else _) = _
                rw [if_neg (Bool.eq_false_iff.1 goesOn.1), ran]

end Feeds

/-! ## Sources that cannot be told apart -/

/-- Related states give the same, in other portions. -/
structure Twins {ε σ α : Type} (src : Source ε σ α) (R : σ → σ → Prop) : Prop where
  symm : ∀ {s t}, R s t → R t s
  /-- both have something ready -/
  ready : ∀ {s t b c bs cs}, R s t → src.ready s = b :: bs → src.ready t = c :: cs →
    b = c ∧ R (src.taken 1 s) (src.taken 1 t)
  /-- one of them has nothing ready, but the other one has -/
  late : ∀ {s t}, R s t → src.ready s ≠ [] → src.ready t = [] → src.closed t = false ∧
    ∃ t', src.fill t = .ok ((), t') ∧ R s t' ∧ src.ready t' ≠ [] ∧ src.closed t' = false
  closed : ∀ {s t}, R s t → src.closed s = src.closed t
  fill : ∀ {s t}, R s t → src.ready s = [] → src.ready t = [] → src.closed s = false →
    Results (fun _ s' t' => R s' t' ∧
      (src.closed s' = true ∨ src.ready s' ≠ [] ∧ src.ready t' ≠ []))
      (src.fill s) (src.fill t)

namespace Twins

variable {ε σ α : Type} {src : Source ε σ α} {R : σ → σ → Prop}

/-- Related states, and the source has closed if there is less than was asked for. -/
def Collected (src : Source ε σ α) (R : σ → σ → Prop) (n : Nat) (got : List α) (s t : σ) : Prop :=
  R s t ∧ (got.length = n ∨ src.closed s = true)

theorem Collected.symm (twins : Twins src R) {n : Nat} {got : List α} {s t : σ}
    (collected : Collected src R n got s t) : Collected src R n got t s :=
  ⟨twins.symm collected.1, collected.2.imp_right (twins.closed collected.1).symm.trans⟩

theorem collect_of_ready (twins : Twins src R) {n : Nat}
    (ih : ∀ {r₁ r₂ s t}, R s t → src.Enough r₁ n s → src.Enough r₂ n t →
      Results (Collected src R n) (src.collect r₁ n s) (src.collect r₂ n t))
    {r₁ r₂ : Nat} {s t : σ} (related : R s t) (some_ : src.ready s ≠ []) (some' : src.ready t ≠ [])
    (enough₁ : src.Enough r₁ (n + 1) s) (enough₂ : src.Enough r₂ (n + 1) t) :
    Results (Collected src R (n + 1)) (src.collect r₁ (n + 1) s) (src.collect r₂ (n + 1) t) := by
  obtain ⟨b, bs, ready⟩ := List.exists_cons_of_ne_nil some_
  obtain ⟨c, cs, ready'⟩ := List.exists_cons_of_ne_nil some'
  obtain ⟨rfl, related'⟩ := twins.ready related ready ready'
  obtain ⟨r₁, rfl⟩ := enough₁.pos
  obtain ⟨r₂, rfl⟩ := enough₂.pos
  rw [src.collect_ready ready, src.collect_ready ready']
  have rest := ih related' (enough₁.taken _) (enough₂.taken _)
  generalize src.collect (r₁ + 1) n (src.taken 1 s) = x at rest ⊢
  generalize src.collect (r₂ + 1) n (src.taken 1 t) = y at rest ⊢
  cases rest with
  | error e => exact .error e
  | ok rest related => exact .ok (b :: rest) ⟨related.1, related.2.imp_left (congrArg (· + 1))⟩

theorem collect_of_late (twins : Twins src R) {n : Nat}
    (ih : ∀ {r₁ r₂ s t}, R s t → src.Enough r₁ n s → src.Enough r₂ n t →
      Results (Collected src R n) (src.collect r₁ n s) (src.collect r₂ n t))
    {r₁ r₂ : Nat} {s t : σ} (related : R s t) (some_ : src.ready s ≠ []) (none_ : src.ready t = [])
    (enough₁ : src.Enough r₁ (n + 1) s) (enough₂ : src.Enough r₂ (n + 1) t) :
    Results (Collected src R (n + 1)) (src.collect r₁ (n + 1) s) (src.collect r₂ (n + 1) t) := by
  obtain ⟨open_, t', filled, related', there, open'⟩ := twins.late related some_ none_
  obtain ⟨r₂, rfl⟩ := enough₂.pos
  rw [src.collect_empty none_ open_, filled]
  show Results _ _ (if src.closed t' = true then _ else _)
  rw [if_neg (Bool.eq_false_iff.1 open')]
  exact twins.collect_of_ready ih related' some_ there enough₁ (enough₂.filled none_ there)

/-- **What is collected does not depend on the portions.** -/
theorem collect (twins : Twins src R) {r₁ r₂ n : Nat} {s t : σ} (related : R s t)
    (enough₁ : src.Enough r₁ n s) (enough₂ : src.Enough r₂ n t) :
    Results (Collected src R n) (src.collect r₁ n s) (src.collect r₂ n t) := by
  induction n generalizing r₁ r₂ s t with
  | zero =>
      rw [src.collect_zero, src.collect_zero]
      exact .ok [] ⟨related, .inl rfl⟩
  | succ n ih =>
      by_cases none_ : src.ready s = []
      · by_cases none' : src.ready t = []
        · cases closed : src.closed s with
          | true =>
              have closed' := (twins.closed related).symm.trans closed
              rw [src.collect_closed none_ closed, src.collect_closed none' closed']
              exact .ok [] ⟨related, .inr closed⟩
          | false =>
              have closed' := (twins.closed related).symm.trans closed
              obtain ⟨r₁, rfl⟩ := enough₁.pos
              obtain ⟨r₂, rfl⟩ := enough₂.pos
              rw [src.collect_empty none_ closed, src.collect_empty none' closed']
              refine (twins.fill related none_ none' closed).bind
                (f := fun _ s => if src.closed s = true then .ok ([], s)
                  else src.collect r₁ (n + 1) s)
                (g := fun _ t => if src.closed t = true then .ok ([], t)
                  else src.collect r₂ (n + 1) t) fun _ s' t' both => ?_
              obtain ⟨related', goesOn⟩ := both
              rw [← twins.closed related']
              split
              · rename_i ended
                exact .ok [] ⟨related', .inr ended⟩
              · rename_i open_
                obtain ⟨there, there'⟩ := goesOn.resolve_left open_
                exact twins.collect_of_ready ih related' there there' (enough₁.filled none_ there)
                  (enough₂.filled none' there')
        · refine (twins.collect_of_late ih (twins.symm related) none' none_ enough₂ enough₁).symm ?_
          exact fun _ _ _ => Collected.symm twins
      · by_cases none' : src.ready t = []
        · exact twins.collect_of_late ih related none_ none' enough₁ enough₂
        · exact twins.collect_of_ready ih related none_ none' enough₁ enough₂

end Twins

/-- What is collected is taken from something that does not grow. -/
theorem collect_le {ε σ α : Type} {src : Source ε σ α} {left : σ → Nat} {Good : σ → Prop}
    (taken : ∀ {s b bs}, Good s → src.ready s = b :: bs →
      Good (src.taken 1 s) ∧ left (src.taken 1 s) + 1 ≤ left s)
    (fill : ∀ {s s'}, Good s → src.ready s = [] → src.closed s = false →
      src.fill s = .ok ((), s') → Good s' ∧ left s' ≤ left s)
    {rounds n : Nat} {s s' : σ} {got : List α} (good : Good s)
    (ran : src.collect rounds n s = .ok (got, s')) : Good s' ∧ left s' + got.length ≤ left s := by
  have stays {s s' : σ} {got : List α} (good : Good s)
      (same : (Except.ok ([], s) : Except ε (List α × σ)) = .ok (got, s')) :
      Good s' ∧ left s' + got.length ≤ left s := by
    cases same
    exact ⟨good, Nat.le_refl _⟩
  induction rounds generalizing n s s' got with
  | zero => exact stays good ran
  | succ rounds ih =>
      induction n generalizing s s' got with
      | zero =>
          rw [src.collect_zero] at ran
          exact stays good ran
      | succ n ihn =>
          cases ready : src.ready s with
          | cons b bs =>
              obtain ⟨good', less⟩ := taken good ready
              rw [src.collect_ready ready] at ran
              cases rest : src.collect (rounds + 1) n (src.taken 1 s) with
              | error e =>
                  rw [rest] at ran
                  cases ran
              | ok r =>
                  rw [rest] at ran
                  cases ran
                  obtain ⟨good'', le⟩ := ihn good' rest
                  refine ⟨good'', ?_⟩
                  rw [List.length_cons]
                  omega
          | nil =>
              cases closed : src.closed s with
              | true =>
                  rw [src.collect_closed ready closed] at ran
                  exact stays good ran
              | false =>
                  rw [src.collect_empty ready closed] at ran
                  cases filled : src.fill s with
                  | error e =>
                      rw [filled] at ran
                      cases ran
                  | ok r =>
                      rw [filled] at ran
                      obtain ⟨good', le⟩ := fill good ready closed filled
                      change (if src.closed r.2 = true then _ else _) = _ at ran
                      split at ran
                      · obtain ⟨good'', le'⟩ := stays good' ran
                        exact ⟨good'', Nat.le_trans le' le⟩
                      · obtain ⟨good'', le'⟩ := ih good' ran
                        exact ⟨good'', Nat.le_trans le' le⟩

end Refill
