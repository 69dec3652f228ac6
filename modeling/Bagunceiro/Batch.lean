/-
# Batch -- the meaning of a batch

`batchResult` says what a batch is for: the old records in their order, without
those an operation drops and those a filter rejects, and behind them one record
for each operation that adds one, in the order in which they were queued.

`Posed` collects what the engine takes for granted: one operation for each key,
modified keys that are there, and values to delete that are as long as the
stored ones.  On such a batch the engine's shared flag, the flags nobody clears
and the comparisons that run past a value come out as `batchResult`
(`newRecords_eq`).
-/
import Bagunceiro.CdbbSpec

namespace Bagunceiro

open Effect

set_option autoImplicit false

/-! ## What a batch is for -/

def Change.key : Change → Bytes
  | .add k _ | .mod k _ | .rep k _ | .del k | .delVal k _ => k

@[simp] theorem key_add (k v : Bytes) : (Change.add k v).key = k := rfl

@[simp] theorem key_mod (k v : Bytes) : (Change.mod k v).key = k := rfl

@[simp] theorem key_rep (k v : Bytes) : (Change.rep k v).key = k := rfl

@[simp] theorem key_del (k : Bytes) : (Change.del k).key = k := rfl

@[simp] theorem key_delVal (k v : Bytes) : (Change.delVal k v).key = k := rfl

/-- The old records that do not outlive an operation.  A deletion without value
drops every record of its key. -/
def Change.drops (r : Record) : Change → Bool
  | .add _ _ => false
  | .mod k _ | .rep k _ | .del k => r.key = k
  | .delVal k v => r.key = k && (v = [] || r.value = v)

/-- The record an operation adds. -/
def Change.adds : Change → Option Record
  | .add k v | .mod k v | .rep k v => some ⟨k, v⟩
  | .del _ | .delVal _ _ => none

def batchKeeps (fil : List Filter) (batch : List Change) (now : Taia) (r : Record) : Bool :=
  !batch.any (Change.drops r) && !cdbbCheckFilter fil now r

/-- The old records that stay; the `i`-th one meets the filters at `clk i`. -/
def batchKept (fil : List Filter) (clk : Nat → Taia) (batch : List Change)
    (old : List Record) : List Record :=
  (old.zipIdx.filter fun x => batchKeeps fil batch (clk x.2) x.1).map Prod.fst

/-- The new file. -/
def batchResult (fil : List Filter) (clk : Nat → Taia) (batch : List Change)
    (old : List Record) : List Record :=
  batchKept fil clk batch old ++ batch.filterMap Change.adds

/-- A batch the engine carries out as it is meant. -/
structure Posed (batch : List Change) (old : List Record) : Prop where
  keys : ∀ c ∈ batch, c.key ≠ []
  distinct : (batch.map Change.key).Nodup
  present : ∀ k v, Change.mod k v ∈ batch → ∃ r ∈ old, r.key = k
  sameLength : ∀ k v, Change.delVal k v ∈ batch → v ≠ [] →
    ∀ r ∈ old, r.key = k → r.value.length = v.length

/-! ## The copied records -/

@[simp] theorem request_n (c : Change) : c.request.n = c.key := by cases c <;> rfl

/-- One operation against one record, reads past the value excluded. -/
theorem stops_eq_drops {t : Op} {c : Change} {r : Record} (same : t.toRequest = c.request)
    (batchKey : c.key ≠ [])
    (length : ∀ k v, c = .delVal k v → v ≠ [] → r.key = k → r.value.length = v.length) :
    t.stops r.key r.value = c.drops r := by
  rw [Op.stops]
  simp only [same, request_n]
  by_cases onKey : c.key = r.key
  · have key : r.key ≠ [] := onKey ▸ batchKey
    cases c with
    | add k v => simp [Change.drops, Change.request]
    | mod k v | rep k v | del k =>
        simp only [Change.key] at onKey
        simp [Change.drops, Change.request, Change.key, key, onKey]
    | delVal k v =>
        simp only [Change.key] at onKey
        by_cases empty : v = []
        · simp [Change.drops, Change.request, Change.key, onKey, key, empty]
        · have compared := memEqual_of_length t.past (length k v rfl empty onKey.symm)
          simp [Change.drops, Change.request, Change.key, onKey, key, empty, compared, eq_comm]
  · have off : r.key ≠ c.key := Ne.symm onKey
    cases c <;> simp_all [Change.drops, Change.key]

theorem any_stops_eq {ops : List Op} {batch : List Change} {r : Record}
    (keys : ∀ c ∈ batch, c.key ≠ [])
    (length : ∀ k v, .delVal k v ∈ batch → v ≠ [] → r.key = k → r.value.length = v.length)
    (same : ops.map (·.toRequest) = batch.map Change.request) :
    ops.any (Op.stops r.key r.value) = batch.any (Change.drops r) := by
  induction ops generalizing batch with
  | nil =>
      have : batch = [] := by simpa using same.symm
      subst this
      rfl
  | cons t ts ih =>
      cases batch with
      | nil => simp at same
      | cons c cs =>
          simp only [List.map_cons, List.cons.injEq] at same
          have head : t.stops r.key r.value = c.drops r := by
            apply stops_eq_drops same.1 (keys c List.mem_cons_self)
            rintro k v rfl
            exact length k v List.mem_cons_self
          have tail := ih (fun u member => keys u (List.mem_cons_of_mem _ member))
            (fun k v member => length k v (List.mem_cons_of_mem _ member)) same.2
          rw [List.any_cons, List.any_cons, head, tail]

theorem ops_keys {ops : List Op} {batch : List Change}
    (same : ops.map (·.toRequest) = batch.map Change.request) :
    ops.map (·.n) = batch.map Change.key := by
  have := congrArg (List.map Request.n) same
  simpa [Function.comp_def] using this

theorem map_markOp_toRequest (k v : Bytes) (ops : List Op) :
    (ops.map (markOp k v)).map (·.toRequest) = ops.map (·.toRequest) := by
  rw [List.map_map]
  exact List.map_congr_left fun t _ => markOp_toRequest k v t

/-- The records the loop copies are the ones nothing drops and nothing rejects. -/
theorem copyRecords_snd (fil : List Filter) (clk : Nat → Taia) {batch : List Change}
    (distinct : (batch.map Change.key).Nodup) (old : List Record) (i : Nat) {ops : List Op}
    (same : ops.map (·.toRequest) = batch.map Change.request)
    (keys : ∀ c ∈ batch, c.key ≠ [])
    (sameLength : ∀ k v, Change.delVal k v ∈ batch → v ≠ [] →
      ∀ r ∈ old, r.key = k → r.value.length = v.length) :
    (copyRecords fil clk i ops old).2 =
      ((old.zipIdx i).filter fun x => batchKeeps fil batch (clk x.2) x.1).map Prod.fst := by
  induction old generalizing i ops with
  | nil => rfl
  | cons r old ih =>
      have opsDistinct : (ops.map (·.n)).Nodup := by rw [ops_keys same]; exact distinct
      have verdict : (cdbbCheckOps r.key r.value ops false).2 = batch.any (Change.drops r) := by
        rw [cdbbCheckOps_snd opsDistinct]
        exact any_stops_eq keys
          (fun k v member empty onKey => sameLength k v member empty r List.mem_cons_self onKey) same
      have rest := @ih (i + 1) (ops.map (markOp r.key r.value))
        ((map_markOp_toRequest _ _ _).trans same)
        (fun k v member empty u inOld => sameLength k v member empty u (List.mem_cons_of_mem _ inOld))
      simp only [copyRecords, cdbbCheckOps_fst, verdict, rest, List.zipIdx_cons, List.filter_cons,
        batchKeeps]
      split_ifs <;> rfl

/-! ## The added records -/

theorem copyRecords_toRequest (fil : List Filter) (clk : Nat → Taia) (old : List Record) (i : Nat)
    (ops : List Op) :
    (copyRecords fil clk i ops old).1.map (·.toRequest) = ops.map (·.toRequest) := by
  induction old generalizing i ops with
  | nil => rfl
  | cons r old ih =>
      simp only [copyRecords, ih, cdbbCheckOps_fst, map_markOp_toRequest]

/-- A flag that is set stays set. -/
theorem copyRecords_keeps_kf (fil : List Filter) (clk : Nat → Taia) {k : Bytes}
    (old : List Record) (i : Nat) {ops : List Op} (set : ∀ t ∈ ops, t.n = k → t.kf ≠ 0) :
    ∀ t ∈ (copyRecords fil clk i ops old).1, t.n = k → t.kf ≠ 0 := by
  induction old generalizing i ops with
  | nil => exact set
  | cons r old ih =>
      apply ih (i + 1)
      rw [cdbbCheckOps_fst]
      rintro t member onKey
      obtain ⟨u, inOps, rfl⟩ := List.mem_map.1 member
      rw [markOp_toRequest] at onKey
      rw [markOp_kf]
      split_ifs
      · decide
      · exact set u inOps onKey

/-- An operation whose key is in the database is found. -/
theorem copyRecords_kf (fil : List Filter) (clk : Nat → Taia) {k : Bytes} (key : k ≠ [])
    (old : List Record) (i : Nat) (ops : List Op) (present : ∃ r ∈ old, r.key = k) :
    ∀ t ∈ (copyRecords fil clk i ops old).1, t.n = k → t.kf ≠ 0 := by
  induction old generalizing i ops with
  | nil => simp at present
  | cons r old ih =>
      by_cases here : r.key = k
      · apply copyRecords_keeps_kf fil clk old (i + 1)
        rw [cdbbCheckOps_fst]
        rintro t member onKey
        obtain ⟨u, -, rfl⟩ := List.mem_map.1 member
        rw [markOp_toRequest] at onKey
        rw [markOp_kf, if_pos ⟨onKey.trans here.symm, here ▸ key⟩]
        decide
      · apply ih (i + 1) _
        obtain ⟨u, member, onKey⟩ := present
        rcases List.mem_cons.1 member with rfl | inOld
        · exact absurd onKey here
        · exact ⟨u, inOld, onKey⟩

theorem addedRecords_eq {ops : List Op} {batch : List Change}
    (same : ops.map (·.toRequest) = batch.map Change.request)
    (found : ∀ t ∈ ops, t.t = .mod → t.kf ≠ 0) :
    addedRecords ops = batch.filterMap Change.adds := by
  induction ops generalizing batch with
  | nil =>
      have : batch = [] := by simpa using same.symm
      subst this
      rfl
  | cons t ts ih =>
      cases batch with
      | nil => simp at same
      | cons c cs =>
          simp only [List.map_cons, List.cons.injEq] at same
          obtain ⟨head, tail⟩ := same
          have rest := ih tail fun u member => found u (List.mem_cons_of_mem _ member)
          have kf := found t List.mem_cons_self
          unfold addedRecords at rest ⊢
          rw [List.filterMap_cons, List.filter_cons, ← rest]
          cases c <;>
            simp_all [Op.writes, Change.request, Change.adds, Request.record]

/-- **A posed batch does what it is meant to do**, whatever the slots held. -/
theorem newRecords_eq (memory : Nat → Slot) (fil : List Filter) (clk : Nat → Taia)
    {batch : List Change} {old : List Record} (posed : Posed batch old) :
    newRecords fil clk (queuedOps memory 0 batch) old = batchResult fil clk batch old := by
  have same := queuedOps_toRequest memory 0 batch
  unfold newRecords batchResult batchKept
  simp only
  rw [copyRecords_snd fil clk posed.distinct old 0 same posed.keys posed.sameLength]
  congr 1
  have after := (copyRecords_toRequest fil clk old 0 _).trans same
  refine addedRecords_eq after fun t member isMod => ?_
  have inBatch : t.toRequest ∈ batch.map Change.request := by
    rw [← after]
    exact List.mem_map_of_mem member
  obtain ⟨c, inBatch, request⟩ := List.mem_map.1 inBatch
  have isMod : c.request.t = .mod := by rw [request]; exact isMod
  cases c with
  | mod k v =>
      have onKey : t.n = k := by rw [← request]; rfl
      exact copyRecords_kf fil clk (posed.keys _ inBatch) old 0 _ (posed.present k v inBatch)
        t member onKey
  | _ => simp [Change.request] at isMod

/-- A replacement is written, found or not. -/
theorem writes_of_addMod {t : Op} (kind : t.t = .addMod) : t.writes = true := by
  rw [Op.writes]
  rw [kind]
  split <;> rfl

/-- The last operation's record is the last one. -/
theorem addedRecords_concat (ops : List Op) {t : Op} (kind : t.t = .addMod) :
    addedRecords (ops ++ [t]) = addedRecords ops ++ [t.record] := by
  rw [addedRecords]
  rw [List.filter_append, List.filter_singleton, writes_of_addMod kind, List.map_append]
  rfl

/-- A batch that ends in a replacement ends the file with it. -/
theorem newRecords_concat_rep (memory : Nat → Slot) (fil : List Filter) (clk : Nat → Taia)
    (before : List Change) (k v : Bytes) (old : List Record) :
    ∃ front, newRecords fil clk (queuedOps memory 0 (before ++ [.rep k v])) old =
      front ++ [⟨k, v⟩] := by
  have after := (copyRecords_toRequest fil clk old 0 _).trans
    (queuedOps_toRequest memory 0 (before ++ [.rep k v]))
  rw [List.map_append, List.map_singleton] at after
  obtain ⟨front, back, cut, -, last⟩ := List.map_eq_append_iff.1 after
  obtain ⟨t, rfl, request⟩ := List.map_eq_singleton_iff.1 last
  have kind : t.t = .addMod := by rw [request]; rfl
  have record : t.record = ⟨k, v⟩ := by rw [request]; rfl
  unfold newRecords
  simp only
  rw [cut, addedRecords_concat front kind, record, ← List.append_assoc]
  exact ⟨_, rfl⟩

/-- A batch that replaces a record leaves one. -/
theorem newRecords_ne_nil (memory : Nat → Slot) (fil : List Filter) (clk : Nat → Taia)
    {batch : List Change} {k v : Bytes} (member : Change.rep k v ∈ batch) (old : List Record) :
    newRecords fil clk (queuedOps memory 0 batch) old ≠ [] := by
  have after := (copyRecords_toRequest fil clk old 0 _).trans (queuedOps_toRequest memory 0 batch)
  have request : (Change.rep k v).request ∈
      (copyRecords fil clk 0 (queuedOps memory 0 batch) old).1.map (·.toRequest) := by
    rw [after]
    exact List.mem_map_of_mem member
  obtain ⟨t, queued, same⟩ := List.mem_map.1 request
  have writes : t.writes = true := writes_of_addMod (by rw [same]; rfl)
  have added : t.record ∈ addedRecords (copyRecords fil clk 0 (queuedOps memory 0 batch) old).1 :=
    List.mem_map_of_mem (List.mem_filter.2 ⟨queued, writes⟩)
  exact List.ne_nil_of_mem (List.mem_append_right _ added)

/-- Such a batch leaves what it finds, or the new records. -/
theorem modifyOutcome_of_rep (memory : Nat → Slot) (fil : List Filter) (clk : Nat → Taia)
    {batch : List Change} {k v : Bytes} (member : Change.rep k v ∈ batch) (c : Option Content) :
    let left := (modifyOutcome memory clk batch fil c).2
    left = c ∨ ∃ old, c.bind Content.records = some old ∧
      left = some (.finished (newRecords fil clk (queuedOps memory 0 batch) old)) := by
  rcases modifyOutcome_cases memory clk batch fil c with
    ⟨old, file, -, outcome⟩ | ⟨-, outcome⟩ | ⟨e, outcome⟩
  · refine .inr ⟨old, file, ?_⟩
    rw [outcome]
    exact if_neg (newRecords_ne_nil memory fil clk member old)
  · exact .inl (congrArg Prod.snd outcome)
  · exact .inl (congrArg Prod.snd outcome)

/-! ## A replacement behind everything else -/

theorem findAll_append (xs ys : List Record) (k : Bytes) :
    findAll (some (xs ++ ys)) k = findAll (some xs) k ++ findAll (some ys) k := by
  simp [findAll]

/-- The last operation replaces a key that no other one is on. -/
def ReplacesLast (k v : Bytes) (ops : List Op) : Prop :=
  ∃ before t, ops = before ++ [t] ∧ (∀ u ∈ before, u.n ≠ k) ∧ t.toRequest = (Change.rep k v).request

theorem replacesLast_iff {k v : Bytes} {ops : List Op} : ReplacesLast k v ops ↔
    ∃ before, ops.map (·.toRequest) = before ++ [(Change.rep k v).request] ∧
      ∀ q ∈ before, q.n ≠ k := by
  constructor
  · rintro ⟨before, t, rfl, others, last⟩
    refine ⟨before.map (·.toRequest), by simp [last], fun q member => ?_⟩
    obtain ⟨u, inside, rfl⟩ := List.mem_map.1 member
    exact others u inside
  · rintro ⟨before, same, others⟩
    obtain ⟨front, back, rfl, first, last⟩ := List.map_eq_append_iff.1 same
    obtain ⟨t, rfl, request⟩ := List.map_eq_singleton_iff.1 last
    refine ⟨front, t, rfl, fun u member => ?_, request⟩
    exact others u.toRequest (first ▸ List.mem_map_of_mem member)

theorem replacesLast_queuedOps (memory : Nat → Slot) {before : List Change} {k v : Bytes}
    (others : ∀ c ∈ before, c.key ≠ k) :
    ReplacesLast k v (queuedOps memory 0 (before ++ [.rep k v])) := by
  refine replacesLast_iff.2 ⟨before.map Change.request, ?_, fun q member => ?_⟩
  · rw [queuedOps_toRequest, List.map_append, List.map_singleton]
  · obtain ⟨c, inside, rfl⟩ := List.mem_map.1 member
    rw [request_n]
    exact others c inside

theorem cdbbCheckOps_append (k v : Bytes) (front back : List Op) (f : Bool) :
    (cdbbCheckOps k v (front ++ back) f).2 =
      (cdbbCheckOps k v back (cdbbCheckOps k v front f).2).2 := by
  induction front generalizing f with
  | nil => rfl
  | cons t ts ih => exact ih _

/-- It drops the old records of its key. -/
theorem ReplacesLast.drops {k v w : Bytes} {ops : List Op} (replaces : ReplacesLast k v ops)
    (key : k ≠ []) : (cdbbCheckOps k w ops false).2 = true := by
  obtain ⟨before, t, rfl, others, last⟩ := replaces
  rw [cdbbCheckOps_append, cdbbCheckOps_of_notMem w others]
  show (checkOp k w t false).2 = true
  rw [checkOp_snd]
  rw [Op.stops]
  rw [last]
  simp [Change.request, key]

theorem ReplacesLast.copied {k v : Bytes} (key : k ≠ []) (fil : List Filter) (clk : Nat → Taia)
    (old : List Record) (i : Nat) {ops : List Op} (replaces : ReplacesLast k v ops) :
    ∀ r ∈ (copyRecords fil clk i ops old).2, r.key ≠ k := by
  induction old generalizing i ops with
  | nil =>
      intro r member
      cases member
  | cons r old ih =>
      have marked : ReplacesLast k v (cdbbCheckOps r.key r.value ops false).1 := by
        rw [cdbbCheckOps_fst, replacesLast_iff, map_markOp_toRequest]
        exact replacesLast_iff.1 replaces
      have rest := ih (i + 1) marked
      intro u member
      rw [copyRecords] at member
      simp only at member
      split at member
      · rename_i kept
        rcases List.mem_cons.1 member with rfl | member
        · rintro rfl
          rw [replaces.drops key] at kept
          cases kept
        · exact rest u member
      · exact rest u member

theorem ReplacesLast.added {k v : Bytes} {ops : List Op} (replaces : ReplacesLast k v ops) :
    findAll (some (addedRecords ops)) k = [v] := by
  obtain ⟨before, t, rfl, others, last⟩ := replaces
  have kind : t.t = .addMod := by rw [last]; rfl
  have record : t.record = ⟨k, v⟩ := by rw [last]; rfl
  have front : findAll (some (addedRecords before)) k = [] := by
    simp only [findAll, addedRecords, List.map_eq_nil_iff, List.filter_eq_nil_iff]
    intro r member
    obtain ⟨u, inside, rfl⟩ := List.mem_map.1 member
    rw [decide_eq_true_eq]
    exact others u (List.mem_of_mem_filter inside)
  rw [addedRecords_concat before kind, record, findAll_append, front]
  simp [findAll]

/-- **One record of the key is left**, whatever else the batch does. -/
theorem findAll_newRecords_last (memory : Nat → Slot) (fil : List Filter) (clk : Nat → Taia)
    {before : List Change} {k v : Bytes} (key : k ≠ []) (others : ∀ c ∈ before, c.key ≠ k)
    (old : List Record) :
    findAll (some (newRecords fil clk (queuedOps memory 0 (before ++ [.rep k v])) old)) k = [v] := by
  have replaces := replacesLast_queuedOps (v := v) memory others
  have after : ReplacesLast k v
      (copyRecords fil clk 0 (queuedOps memory 0 (before ++ [.rep k v])) old).1 := by
    rw [replacesLast_iff, copyRecords_toRequest]
    exact replacesLast_iff.1 replaces
  have copied : findAll (some
      (copyRecords fil clk 0 (queuedOps memory 0 (before ++ [.rep k v])) old).2) k = [] := by
    simp only [findAll, List.map_eq_nil_iff, List.filter_eq_nil_iff, decide_eq_true_eq]
    exact replaces.copied key fil clk old 0
  unfold newRecords
  simp only
  rw [findAll_append, copied, after.added]
  rfl

/-! ## Under filters -/

theorem batchKept_sublist (fil : List Filter) (clk : Nat → Taia) (batch : List Change)
    (old : List Record) : (batchKept fil clk batch old).Sublist old := by
  have kept := (List.filter_sublist (l := old.zipIdx)
    (p := fun x => batchKeeps fil batch (clk x.2) x.1)).map Prod.fst
  rw [List.zipIdx_map_fst] at kept
  exact kept

/-- A record that goes was dropped or rejected at some moment. -/
theorem mem_batchKept_or {fil : List Filter} {clk : Nat → Taia} {batch : List Change}
    {old : List Record} {r : Record} (member : r ∈ old) :
    r ∈ batchKept fil clk batch old ∨ ∃ i, batchKeeps fil batch (clk i) r = false := by
  rw [← List.zipIdx_map_fst 0 old] at member
  obtain ⟨⟨r, i⟩, inside, rfl⟩ := List.mem_map.1 member
  cases keeps : batchKeeps fil batch (clk i) r with
  | true => exact .inl (List.mem_map.2 ⟨(r, i), List.mem_filter.2 ⟨inside, keeps⟩, rfl⟩)
  | false => exact .inr ⟨i, keeps⟩

/-- The first value of a key stays the first one when no time rejects it. -/
theorem findAll_batchKept_head {fil : List Filter} {clk : Nat → Taia} {batch : List Change}
    {old : List Record} {k v : Bytes} {vs : List Bytes} (found : findAll (some old) k = v :: vs)
    (keeps : ∀ i r, r.key = k → r.value = v → batchKeeps fil batch (clk i) r = true) :
    ∃ vs', findAll (some (batchKept fil clk batch old)) k = v :: vs' := by
  rw [batchKept]
  suffices each : ∀ i, ∃ vs', findAll (some (((old.zipIdx i).filter
      fun x => batchKeeps fil batch (clk x.2) x.1).map Prod.fst)) k = v :: vs' from each 0
  induction old with
  | nil => cases found
  | cons r old ih =>
      intro i
      rw [List.zipIdx_cons, List.filter_cons]
      by_cases onKey : r.key = k
      · have value : r.value = v := by
          simp only [findAll, onKey, decide_true, List.filter_cons_of_pos, List.map_cons,
            List.cons.injEq] at found
          exact found.1
        rw [if_pos (keeps i r onKey value), List.map_cons]
        refine ⟨findAll (some (((old.zipIdx (i + 1)).filter
          fun x => batchKeeps fil batch (clk x.2) x.1).map Prod.fst)) k, ?_⟩
        simp [findAll, onKey, value]
      · have rest : findAll (some old) k = v :: vs := by
          simpa [findAll, onKey] using found
        obtain ⟨vs', later⟩ := ih rest (i + 1)
        refine ⟨vs', ?_⟩
        split
        · rw [List.map_cons]
          simpa [findAll, onKey] using later
        · exact later

/-! ## One key -/

/-- Which of the values under its key an operation leaves there. -/
def Change.keepsValue (w : Bytes) : Change → Bool
  | .add _ _ => true
  | .mod _ _ | .rep _ _ | .del _ => false
  | .delVal _ v => !(v = [] || w = v)

/-- What an operation makes of the values stored under its key. -/
def Change.onValues (c : Change) (vs : List Bytes) : List Bytes :=
  vs.filter (c.keepsValue ·) ++ c.adds.toList.map (·.value)

theorem batchResult_nil (clk : Nat → Taia) (batch : List Change) (old : List Record) :
    batchResult [] clk batch old =
      (old.filter fun r => !batch.any (Change.drops r)) ++ batch.filterMap Change.adds := by
  rw [batchResult, batchKept]
  congr 1
  suffices each : ∀ i, ((old.zipIdx i).filter fun x => batchKeeps [] batch (clk x.2) x.1).map
      Prod.fst = old.filter fun r => !batch.any (Change.drops r) from each 0
  induction old with
  | nil => exact fun _ => rfl
  | cons r old ih =>
      intro i
      have keeps : batchKeeps [] batch (clk i) r = !batch.any (Change.drops r) := by
        simp [batchKeeps, cdbbCheckFilter]
      simp only [List.zipIdx_cons, List.filter_cons, keeps]
      split
      · rw [List.map_cons, ih]
      · exact ih _

theorem drops_of_key_ne {c : Change} {r : Record} (ne : c.key ≠ r.key) : c.drops r = false := by
  cases c <;> simp_all [Change.drops, Change.key, eq_comm]

theorem adds_key {c : Change} {r : Record} (adds : c.adds = some r) : r.key = c.key := by
  cases c <;> simp only [Change.adds, Option.some.injEq, reduceCtorEq] at adds <;> rw [← adds] <;> rfl

theorem findAll_adds_of_notMem {batch : List Change} {k : Bytes} (absent : ∀ c ∈ batch, c.key ≠ k) :
    findAll (some (batch.filterMap Change.adds)) k = [] := by
  simp only [findAll, List.map_eq_nil_iff, List.filter_eq_nil_iff, List.mem_filterMap]
  rintro r ⟨c, member, adds⟩
  simp only [decide_eq_true_eq]
  rw [adds_key adds]
  exact absent c member

/-- A key no operation is on keeps its values. -/
theorem findAll_batchResult_of_notMem (clk : Nat → Taia) {batch : List Change} {k : Bytes}
    (absent : ∀ c ∈ batch, c.key ≠ k) (old : List Record) :
    findAll (some (batchResult [] clk batch old)) k = findAll (some old) k := by
  rw [batchResult_nil, findAll_append, findAll_adds_of_notMem absent, List.append_nil]
  simp only [findAll, List.filter_filter]
  congr 1
  refine List.filter_congr fun r _ => ?_
  by_cases onKey : r.key = k
  · have kept : batch.any (Change.drops r) = false := by
      rw [List.any_eq_false]
      intro c member
      rw [drops_of_key_ne (onKey ▸ absent c member)]
      decide
    simp [onKey, kept]
  · simp [onKey]

/-- On a key of its own an operation acts alone. -/
theorem findAll_batchResult_of_mem (clk : Nat → Taia) {batch : List Change} {c : Change}
    (member : c ∈ batch) (distinct : (batch.map Change.key).Nodup) (old : List Record) :
    findAll (some (batchResult [] clk batch old)) c.key =
      c.onValues (findAll (some old) c.key) := by
  obtain ⟨before, after, rfl⟩ := List.append_of_mem member
  rw [List.map_append, List.map_cons, List.nodup_append, List.nodup_cons] at distinct
  obtain ⟨-, ⟨notAfter, -⟩, apart⟩ := distinct
  have beforeNe : ∀ d ∈ before, d.key ≠ c.key := fun d inside =>
    apart d.key (List.mem_map_of_mem inside) c.key List.mem_cons_self
  have afterNe : ∀ d ∈ after, d.key ≠ c.key := fun d inside same =>
    notAfter (same ▸ List.mem_map_of_mem inside)
  have dropped (r : Record) (onKey : r.key = c.key) :
      (before ++ c :: after).any (Change.drops r) = c.drops r := by
    have none_ {ds : List Change} (ne : ∀ d ∈ ds, d.key ≠ c.key) :
        ds.any (Change.drops r) = false := by
      rw [List.any_eq_false]
      intro d inside
      rw [drops_of_key_ne (onKey ▸ ne d inside)]
      decide
    rw [List.any_append, List.any_cons, none_ beforeNe, none_ afterNe, Bool.false_or, Bool.or_false]
  have kept : findAll (some (old.filter fun r => !(before ++ c :: after).any (Change.drops r))) c.key =
      ((old.filter (·.key = c.key)).filter fun r => !c.drops r).map (·.value) := by
    simp only [findAll, List.filter_filter]
    congr 1
    refine List.filter_congr fun r _ => ?_
    by_cases onKey : r.key = c.key
    · simp only [onKey, dropped r onKey, decide_true, Bool.true_and, Bool.and_true]
    · simp [onKey]
  have added : findAll (some ((before ++ c :: after).filterMap Change.adds)) c.key =
      (c.adds.toList).map (·.value) := by
    rw [List.filterMap_append, findAll_append, findAll_adds_of_notMem beforeNe, List.nil_append,
      List.filterMap_cons]
    cases adds : c.adds with
    | none => exact findAll_adds_of_notMem afterNe
    | some r =>
        have onKey := adds_key adds
        have rest := findAll_adds_of_notMem afterNe
        simp only [findAll, List.map_eq_nil_iff] at rest
        simp [findAll, onKey, rest]
  have values : ((old.filter (·.key = c.key)).filter fun r => !c.drops r).map (·.value) =
      (findAll (some old) c.key).filter (c.keepsValue ·) := by
    simp only [findAll, List.filter_map]
    congr 1
    refine List.filter_congr fun r inside => ?_
    have onKey : r.key = c.key := by simpa using (List.mem_filter.1 inside).2
    cases c <;> simp_all [Change.drops, Change.keepsValue, Change.key]
  rw [batchResult_nil, findAll_append, kept, added, values]
  rfl

/-! ## The new file -/

/-- A posed batch, applied: its result has the database's name, unless it is
empty, and nothing else but the temporary name is touched. -/
theorem exec_cdbbApply_posed (memory : Nat → Slot) (clk : Nat → Taia) {f : Path}
    {batch : List Change} {fil : List Filter} (room : Room batch fil) {fs : Fs} {r : Inode}
    {old : List Record} (named : fs.dir f = some r) (file : fs.records r = some old)
    (posed : Posed batch old) :
    ∃ fs', exec (cdbbApply clk (queueAll batch fil (started memory f fs.next r))) (fs.started f) =
        (.ok ((batchResult fil clk batch old).length : Int), fs') ∧
      fs'.content f = (if batchResult fil clk batch old = [] then none
        else some (.finished (batchResult fil clk batch old))) ∧
      ∀ p, p ≠ f → p ≠ tmpName f → fs'.content p = fs.content p := by
  have ran := exec_cdbbApply_started memory clk room named file
  rw [newRecords_eq memory fil clk posed] at ran
  exact ran

/-- **The file a posed batch leaves**, when its operations and filters have room.
The file `cdbb_apply` writes holds the result of the batch, with its tables, and
the count returned is the number of its records.  It has the database's name,
unless it is empty: then the name is taken away. -/
theorem cdbbApply_writes_batchResult (memory : Nat → Slot) (clk : Nat → Taia) (f : Path)
    (batch : List Change) (fil : List Filter) (fs : Fs) (old : List Record)
    (holds : recordsAt fs f = some old) (posed : Posed batch old)
    (operations : batch.length ≤ numOp) (filters : fil.length ≤ numOp) :
    ∃ a fs₁ fs₂, exec (cdbbStartMod memory f) fs = (.ok (some a), fs₁) ∧
      exec (cdbbApply clk (queueAll batch fil a)) fs₁ =
        (.ok ((batchResult fil clk batch old).length : Int), fs₂) ∧
      fs₂.node a.w = .finished (batchResult fil clk batch old) ∧
      fs₂.dir f = if batchResult fil clk batch old = [] then none else some a.w := by
  obtain ⟨r, named, file⟩ := dir_of_recordsAt holds
  have opened := open_started memory named file ⟨operations, filters⟩
  obtain ⟨fs₂, ran, atF, -, -, written, -⟩ := exec_cdbbApply clk opened
  simp only [queueAll_started, newRecords_eq memory fil clk posed] at ran atF written
  refine ⟨started memory f fs.next r, fs.started f, fs₂, ?_, ?_, written, atF⟩
  · rw [exec_cdbbStartMod, named]
    rfl
  · rw [queueAll_started]
    exact ran

/-- Two records of one key, one operation of each kind, and a filter. -/
theorem cdbbApply_writes_batchResult_sample :
    let old : List Record := [⟨[1], [10]⟩, ⟨[2], [20, 21]⟩, ⟨[1], [11]⟩, ⟨[3], [30]⟩, ⟨[3], [31]⟩,
      ⟨[4], [40]⟩, ⟨[5], [50]⟩]
    let batch : List Change := [.add [1] [12], .mod [2] [22], .delVal [3] [31], .rep [4] [],
      .del [5]]
    let fil : List Filter := [fun _ r => r.value = [10]]
    let clk : Nat → Taia := fun _ => ⟨0, 0, 0⟩
    let fs := Fs.empty.install (str "db") (.finished old)
    ∃ a fs₁ fs₂, exec (cdbbStartMod (fun _ => ⟨7, 7, fun _ => 0⟩) (str "db")) fs =
        (.ok (some a), fs₁) ∧
      exec (cdbbApply clk (queueAll batch fil a)) fs₁ = (.ok 5, fs₂) ∧
      fs₂.node a.w =
        .finished [⟨[1], [11]⟩, ⟨[3], [30]⟩, ⟨[1], [12]⟩, ⟨[2], [22]⟩, ⟨[4], []⟩] ∧
      fs₂.dir (str "db") = some a.w := by
  intro old batch fil clk fs
  have posed : Posed batch old := by
    refine ⟨by decide, by decide, ?_, ?_⟩ <;> simp [batch, old]
  exact cdbbApply_writes_batchResult (fun _ => ⟨7, 7, fun _ => 0⟩) clk (str "db") batch fil fs old
    (recordsAt_of_content (Fs.content_install_self _ _ _)) posed (by decide) (by decide)

/-- An eleventh operation is written behind `ops`, and no new file comes of it. -/
theorem eleventh_operation_overruns :
    let batch : List Change := [.add [1] [1], .add [2] [2], .add [3] [3], .add [4] [4], .add [5] [5],
      .add [6] [6], .add [7] [7], .add [8] [8], .add [9] [9], .add [10] [10], .add [11] [11]]
    let memory : Nat → Slot := fun _ => ⟨0, 0, fun _ => 0⟩
    let clk : Nat → Taia := fun _ => ⟨0, 0, 0⟩
    let fs := Fs.empty.install (str "db") (.finished [])
    Posed batch [] ∧ ¬ ∃ a fs₁ fs₂, exec (cdbbStartMod memory (str "db")) fs = (.ok (some a), fs₁) ∧
      exec (cdbbApply clk (queueAll batch [] a)) fs₁ =
        (.ok ((batchResult [] clk batch []).length : Int), fs₂) ∧
      fs₂.node a.w = .finished (batchResult [] clk batch []) := by
  intro batch memory clk fs
  have posed : Posed batch [] := by
    refine ⟨by decide, by decide, ?_, ?_⟩ <;> simp [batch]
  refine ⟨posed, ?_⟩
  rintro ⟨a, fs₁, fs₂, opened, ran, -⟩
  rw [exec_cdbbStartMod] at opened
  obtain ⟨r, -, rfl⟩ := Option.map_eq_some_iff.1 (Except.ok.inj (Prod.mk.inj opened).1)
  have overrun : ¬ Room batch [] := by decide
  rw [cdbbApply_overrun clk (mt (fits_iff_room _ _ _ _ _ _).1 overrun)] at ran
  cases ran

end Bagunceiro
