/-
# Lib.Grouping -- filing things under their labels

`file` puts a thing into the group of its label, which is searched from the
front, and opens a new group at the end when there is none.  `Filed` says what
the groups are worth while things keep coming: their labels differ, and each of
them has, in the order in which they came, all the things of its label.
-/
import Mathlib.Data.List.Nodup

namespace Grouping

set_option autoImplicit false

variable {α κ : Type} [DecidableEq κ]

def file (k : κ) (x : α) : List (κ × List α) → List (κ × List α)
  | [] => [(k, [x])]
  | g :: gs => if g.1 = k then (g.1, g.2 ++ [x]) :: gs else g :: file k x gs

/-- The things that came with this label. -/
def under (k : κ) (xs : List (κ × α)) : List α := (xs.filter fun x => x.1 = k).map Prod.snd

/-- The groups the things were filed in. -/
structure Filed (xs : List (κ × α)) (gs : List (κ × List α)) : Prop where
  distinct : (gs.map Prod.fst).Nodup
  labels : ∀ k, k ∈ gs.map Prod.fst ↔ k ∈ xs.map Prod.fst
  whole : ∀ g ∈ gs, g.2 = under g.1 xs
  all : (gs.flatMap Prod.snd).Perm (xs.map Prod.snd)

theorem under_append (k : κ) (xs ys : List (κ × α)) :
    under k (xs ++ ys) = under k xs ++ under k ys := by
  simp [under]

theorem under_singleton_self (k : κ) (x : α) : under k [(k, x)] = [x] := by
  simp [under]

theorem under_singleton_ne {k l : κ} (ne : l ≠ k) (x : α) : under k [(l, x)] = [] := by
  simp [under, ne]

theorem under_eq_nil {k : κ} {xs : List (κ × α)} (absent : k ∉ xs.map Prod.fst) :
    under k xs = [] := by
  unfold under
  rw [List.map_eq_nil_iff, List.filter_eq_nil_iff]
  intro x member same
  exact absent (of_decide_eq_true same ▸ List.mem_map_of_mem member)

/-- Filing keeps the labels, and adds one that is not there. -/
theorem map_fst_file (k : κ) (x : α) (gs : List (κ × List α)) :
    (file k x gs).map Prod.fst =
      if k ∈ gs.map Prod.fst then gs.map Prod.fst else gs.map Prod.fst ++ [k] := by
  induction gs with
  | nil => rfl
  | cons g gs ih =>
      rw [file]
      by_cases here : g.1 = k
      · simp [here]
      · have there : k ∈ (g :: gs).map Prod.fst ↔ k ∈ gs.map Prod.fst := by
          simp [Ne.symm here]
        rw [if_neg here, List.map_cons, ih]
        by_cases later : k ∈ gs.map Prod.fst
        · rw [if_pos later, if_pos (there.2 later), List.map_cons]
        · rw [if_neg later, if_neg (mt there.1 later), List.map_cons, List.cons_append]

/-- A group is another label's, or the one the thing was filed in. -/
theorem mem_file {k : κ} {x : α} {gs : List (κ × List α)} (distinct : (gs.map Prod.fst).Nodup)
    {g : κ × List α} (member : g ∈ file k x gs) :
    (g ∈ gs ∧ g.1 ≠ k) ∨
      (∃ h ∈ gs, h.1 = k ∧ g = (k, h.2 ++ [x])) ∨ (k ∉ gs.map Prod.fst ∧ g = (k, [x])) := by
  induction gs with
  | nil => exact .inr (.inr ⟨List.not_mem_nil, List.mem_singleton.1 member⟩)
  | cons h gs ih =>
      rw [List.map_cons, List.nodup_cons] at distinct
      rw [file] at member
      by_cases here : h.1 = k
      · rw [if_pos here] at member
        rcases List.mem_cons.1 member with rfl | later
        · exact .inr (.inl ⟨h, List.mem_cons_self, here, by rw [here]⟩)
        · refine .inl ⟨List.mem_cons_of_mem _ later, fun same => distinct.1 ?_⟩
          rw [here, ← same]
          exact List.mem_map_of_mem later
      · rw [if_neg here] at member
        rcases List.mem_cons.1 member with rfl | later
        · exact .inl ⟨List.mem_cons_self, here⟩
        · rcases ih distinct.2 later with ⟨old, other⟩ | ⟨u, old, same, rfl⟩ | ⟨fresh, rfl⟩
          · exact .inl ⟨List.mem_cons_of_mem _ old, other⟩
          · exact .inr (.inl ⟨u, List.mem_cons_of_mem _ old, same, rfl⟩)
          · refine .inr (.inr ⟨fun inside => ?_, rfl⟩)
            rcases List.mem_cons.1 inside with same | inside
            · exact here same.symm
            · exact fresh inside

theorem flatMap_file (k : κ) (x : α) (gs : List (κ × List α)) :
    ((file k x gs).flatMap Prod.snd).Perm (gs.flatMap Prod.snd ++ [x]) := by
  induction gs with
  | nil => exact List.Perm.refl _
  | cons g gs ih =>
      rw [file]
      split
      · rw [List.flatMap_cons, List.flatMap_cons, List.append_assoc, List.append_assoc]
        exact (List.perm_append_comm).append_left g.2
      · rw [List.flatMap_cons, List.flatMap_cons, List.append_assoc]
        exact ih.append_left g.2

theorem Filed.nil : Filed ([] : List (κ × α)) [] where
  distinct := List.nodup_nil
  labels := fun _ => Iff.rfl
  whole := fun _ member => absurd member List.not_mem_nil
  all := List.Perm.refl _

/-- One thing more. -/
theorem Filed.concat {xs : List (κ × α)} {gs : List (κ × List α)} (filed : Filed xs gs) (k : κ)
    (x : α) : Filed (xs ++ [(k, x)]) (file k x gs) := by
  constructor
  · rw [map_fst_file]
    split
    · exact filed.distinct
    · rename_i fresh
      rw [List.nodup_append]
      refine ⟨filed.distinct, List.nodup_singleton _, fun a inside b last => ?_⟩
      rintro rfl
      exact fresh (List.mem_singleton.1 last ▸ inside)
  · intro l
    rw [map_fst_file, List.map_append, List.mem_append, ← filed.labels l]
    split
    · rename_i there
      constructor
      · exact .inl
      · rintro (old | new)
        · exact old
        · exact List.mem_singleton.1 new ▸ there
    · rw [List.mem_append]
      rfl
  · intro g member
    rw [under_append]
    rcases mem_file filed.distinct member with ⟨old, other⟩ | ⟨h, old, same, rfl⟩ | ⟨fresh, rfl⟩
    · rw [← filed.whole g old, under_singleton_ne other.symm, List.append_nil]
    · rw [filed.whole h old, same, under_singleton_self]
    · rw [under_eq_nil (mt (filed.labels k).2 fresh), under_singleton_self, List.nil_append]
  · rw [List.map_append]
    exact (flatMap_file k x gs).trans (filed.all.append_right [x])

/-- **Whatever comes, and in whatever order, is filed under its label.** -/
theorem filed_foldl (xs : List (κ × α)) :
    Filed xs (xs.foldl (fun gs x => file x.1 x.2 gs) []) := by
  suffices each : ∀ (ys zs : List (κ × α)) (gs : List (κ × List α)), Filed ys gs →
      Filed (ys ++ zs) (zs.foldl (fun gs x => file x.1 x.2 gs) gs) from each [] xs [] Filed.nil
  intro ys zs
  induction zs generalizing ys with
  | nil =>
      intro gs filed
      rw [List.append_nil]
      exact filed
  | cons z zs ih =>
      intro gs filed
      have next := ih (ys ++ [z]) _ (filed.concat z.1 z.2)
      rw [List.append_assoc, List.singleton_append] at next
      exact next

end Grouping
