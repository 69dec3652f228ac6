/-
# Verdict -- a record against any batch (`cdbb_check_ops`)

The operations of a batch share one flag.  Those a record is meant for set it,
and one on the record's key that carries another value clears it, whatever the
others have found (`Op.releases`).  So a batch withholds a record exactly when
one of its operations does and none behind that one releases it again
(`withholds_iff`), and what an operation deletes comes back when the batch goes
on with an `add` of the same key.

The comparison of values runs over the length of the stored one: a deletion of a
value takes the records with it whose value is shorter and starts it
(`delVal_exact_iff`).
-/
import Bagunceiro.Reuse

namespace Bagunceiro

open Effect

set_option autoImplicit false

/-! ## The shared flag -/

/-- What `cdbb_check_ops` returns: the record is not copied. -/
def withholds (ops : List Op) (r : Record) : Bool := (cdbbCheckOps r.key r.value ops false).2

/-- The operation clears the flag. -/
def Op.releases (k v : Bytes) (t : Op) : Bool :=
  t.n = k && k ≠ [] && t.v ≠ [] && t.t ≠ .mod && t.t ≠ .addMod && !memEqual t.v t.past v

theorem checkOp_snd_eq (k v : Bytes) (t : Op) (f : Bool) :
    (checkOp k v t f).2 = if t.stops k v then true else if t.releases k v then false else f := by
  by_cases onKey : t.n = k ∧ k ≠ []
  · obtain ⟨key, some_⟩ := onKey
    cases kind : t.t <;> by_cases empty : t.v = [] <;> cases same : memEqual t.v t.past v <;>
      simp [checkOp, Op.stops, Op.releases, key, some_, kind, empty, same]
  · have stops : t.stops k v = false := by
      simp only [Op.stops, Bool.and_eq_false_iff, decide_eq_false_iff_not]
      tauto
    have releases : t.releases k v = false := by
      simp only [Op.releases, Bool.and_eq_false_iff, decide_eq_false_iff_not]
      tauto
    simp [checkOp, onKey, stops, releases]

theorem stops_not_releases {k v : Bytes} {t : Op} (stops : t.stops k v = true) :
    t.releases k v = false := by
  simp only [Op.stops, Bool.and_eq_true, Bool.or_eq_true, decide_eq_true_eq] at stops
  simp only [Op.releases, Bool.and_eq_false_iff, decide_eq_false_iff_not, Bool.not_eq_false']
  tauto

/-- An operation of the batch withholds the record, and none behind it releases
it again. -/
def Settled (ops : List Op) (r : Record) : Prop :=
  ∃ before t after, ops = before ++ t :: after ∧ t.stops r.key r.value = true ∧
    ∀ u ∈ after, u.releases r.key r.value = false

theorem settled_cons {t : Op} {ops : List Op} {r : Record} :
    Settled (t :: ops) r ↔ Settled ops r ∨
      t.stops r.key r.value = true ∧ ∀ u ∈ ops, u.releases r.key r.value = false := by
  constructor
  · rintro ⟨before, u, after, cut, stops, kept⟩
    cases before with
    | nil =>
        cases cut
        exact .inr ⟨stops, kept⟩
    | cons _ before =>
        cases cut
        exact .inl ⟨before, u, after, rfl, stops, kept⟩
  · rintro (⟨before, u, after, rfl, stops, kept⟩ | ⟨stops, kept⟩)
    · exact ⟨t :: before, u, after, rfl, stops, kept⟩
    · exact ⟨[], t, ops, rfl, stops, kept⟩

/-- The flag at the end, for any flag at the start. -/
theorem cdbbCheckOps_snd_iff (r : Record) (ops : List Op) (f : Bool) :
    (cdbbCheckOps r.key r.value ops f).2 = true ↔
      Settled ops r ∨ f = true ∧ ∀ u ∈ ops, u.releases r.key r.value = false := by
  induction ops generalizing f with
  | nil =>
      have unsettled : ¬ Settled [] r := by
        rintro ⟨before, t, after, cut, -⟩
        cases before <;> cases cut
      simp [cdbbCheckOps, unsettled]
  | cons t ops ih =>
      rw [cdbbCheckOps, ih, checkOp_snd_eq, settled_cons, List.forall_mem_cons]
      cases stops : t.stops r.key r.value with
      | true =>
          have kept := stops_not_releases stops
          simp [kept, or_assoc]
          tauto
      | false =>
          cases releases : t.releases r.key r.value with
          | true => simp
          | false => simp

theorem withholds_iff (ops : List Op) (r : Record) : withholds ops r = true ↔ Settled ops r := by
  rw [withholds]
  rw [cdbbCheckOps_snd_iff]
  simp

theorem withholds_singleton (t : Op) (r : Record) : withholds [t] r = t.stops r.key r.value := by
  rw [withholds]
  rw [cdbbCheckOps, cdbbCheckOps, checkOp_snd]

/-! ## Whatever memory holds behind the values -/

/-- The operation withholds the record, whatever its slot held. -/
def Change.Withholds (r : Record) : Change → Prop
  | .add _ _ => False
  | .mod k _ | .rep k _ | .del k => k = r.key ∧ k ≠ []
  | .delVal k v => (k = r.key ∧ k ≠ []) ∧ (v = [] ∨ r.value <+: v)

/-- With some memory behind its value, the operation withholds the record. -/
def Change.MayWithhold (r : Record) : Change → Prop
  | .add _ _ => False
  | .mod k _ | .rep k _ | .del k => k = r.key ∧ k ≠ []
  | .delVal k v => (k = r.key ∧ k ≠ []) ∧ (v <+: r.value ∨ r.value <+: v)

/-- With some memory behind its value, the operation releases the record. -/
def Change.MayRelease (r : Record) : Change → Prop
  | .mod _ _ | .rep _ _ | .del _ => False
  | .add k v | .delVal k v => (k = r.key ∧ k ≠ []) ∧ v ≠ [] ∧ ¬ r.value <+: v

section Slots

variable {c : Change} {r : Record}

theorem stops_of_withholds (holds : c.Withholds r) (slot : Slot) :
    (c.request.op slot).stops r.key r.value = true := by
  cases c with
  | add k v => exact holds.elim
  | mod k v | rep k v | del k =>
      obtain ⟨rfl, key⟩ := holds
      simp [Op.stops, Change.request, Request.op, key]
  | delVal k v =>
      obtain ⟨⟨rfl, key⟩, rfl | starts⟩ := holds
      · simp [Op.stops, Change.request, Request.op, key]
      · simp [Op.stops, Change.request, Request.op, key, memEqual_of_prefix slot.past starts]

theorem mayWithhold_of_stops {slot : Slot}
    (stops : (c.request.op slot).stops r.key r.value = true) : c.MayWithhold r := by
  simp only [Op.stops, Bool.and_eq_true, Bool.or_eq_true, decide_eq_true_eq] at stops
  obtain ⟨⟨⟨onKey, key⟩, notAdd⟩, compared⟩ := stops
  rw [← onKey] at key
  cases c with
  | add k v => exact absurd rfl notAdd
  | mod k v | rep k v | del k => exact ⟨onKey, key⟩
  | delVal k v =>
      refine ⟨⟨onKey, key⟩, ?_⟩
      rcases compared with ((empty | isMod) | isRep) | same
      · have bare : v = [] := empty
        exact .inl (bare ▸ List.nil_prefix)
      · cases isMod
      · cases isRep
      · exact (prefix_or_of_memEqual same).symm

theorem exists_stops (may : c.MayWithhold r) :
    ∃ slot, (c.request.op slot).stops r.key r.value = true := by
  let clear : Slot := ⟨0, 0, fun _ => 0⟩
  cases c with
  | add k v => exact may.elim
  | mod k v => exact ⟨clear, stops_of_withholds (c := .mod k v) may clear⟩
  | rep k v => exact ⟨clear, stops_of_withholds (c := .rep k v) may clear⟩
  | del k => exact ⟨clear, stops_of_withholds (c := .del k) may clear⟩
  | delVal k v =>
      obtain ⟨⟨rfl, key⟩, starts | starts⟩ := may
      · obtain ⟨past, same⟩ := exists_memEqual starts
        refine ⟨⟨0, 0, past⟩, ?_⟩
        simp [Op.stops, Change.request, Request.op, key, same]
      · exact ⟨clear, stops_of_withholds (c := .delVal r.key v) ⟨⟨rfl, key⟩, .inr starts⟩ clear⟩

theorem not_releases_of_not_may (never : ¬ c.MayRelease r) (slot : Slot) :
    (c.request.op slot).releases r.key r.value = false := by
  rw [Bool.eq_false_iff]
  intro releases
  apply never
  simp only [Op.releases, Bool.and_eq_true, decide_eq_true_eq, Bool.not_eq_true'] at releases
  obtain ⟨⟨⟨⟨⟨onKey, key⟩, carries⟩, notMod⟩, notRep⟩, differs⟩ := releases
  rw [← onKey] at key
  have apart (starts : r.value <+: c.request.v) : False := by
    have same : memEqual c.request.v slot.past r.value = true := memEqual_of_prefix slot.past starts
    change memEqual c.request.v slot.past r.value = false at differs
    rw [same] at differs
    cases differs
  cases c with
  | mod k v => exact absurd rfl notMod
  | rep k v => exact absurd rfl notRep
  | del k => exact absurd rfl carries
  | add k v | delVal k v => exact ⟨⟨onKey, key⟩, carries, apart⟩

theorem exists_releases (may : c.MayRelease r) :
    ∃ slot, (c.request.op slot).releases r.key r.value = true := by
  cases c with
  | mod k v | rep k v | del k => exact may.elim
  | add k v | delVal k v =>
      obtain ⟨⟨rfl, key⟩, carries, apart⟩ := may
      obtain ⟨past, differs⟩ := exists_not_memEqual apart
      refine ⟨⟨0, 0, past⟩, ?_⟩
      simp [Op.releases, Change.request, Request.op, key, carries, differs]

/-- What may withhold the record and is not sure to may release it. -/
theorem withholds_or_mayRelease (may : c.MayWithhold r) : c.Withholds r ∨ c.MayRelease r := by
  cases c with
  | add k v => exact may.elim
  | mod k v | rep k v | del k => exact .inl may
  | delVal k v =>
      obtain ⟨onKey, compared⟩ := may
      by_cases sure : v = [] ∨ r.value <+: v
      · exact .inl ⟨onKey, sure⟩
      · rw [not_or] at sure
        exact .inr ⟨onKey, sure⟩

end Slots

/-! ## Batches -/

theorem queuedOps_append (memory : Nat → Slot) (i : Nat) (front back : List Change) :
    queuedOps memory i (front ++ back) =
      queuedOps memory i front ++ queuedOps memory (i + front.length) back := by
  induction front generalizing i with
  | nil => rfl
  | cons c front ih =>
      rw [List.cons_append, queuedOps, ih, queuedOps, List.length_cons, Nat.add_right_comm,
        Nat.add_assoc i, List.cons_append]

theorem queuedOps_congr {memory memory' : Nat → Slot} {i : Nat} (batch : List Change)
    (same : ∀ j, i ≤ j → memory j = memory' j) :
    queuedOps memory i batch = queuedOps memory' i batch := by
  induction batch generalizing i with
  | nil => rfl
  | cons c batch ih =>
      rw [queuedOps, queuedOps, same i le_rfl, ih fun j behind => same j (Nat.le_of_succ_le behind)]

/-- The slots of a batch can hold anything, each for itself. -/
theorem exists_memory (slot : Change → Slot) (i : Nat) (batch : List Change) :
    ∃ memory, queuedOps memory i batch = batch.map fun c => c.request.op (slot c) := by
  induction batch generalizing i with
  | nil => exact ⟨fun _ => ⟨0, 0, fun _ => 0⟩, rfl⟩
  | cons c batch ih =>
      obtain ⟨memory, later⟩ := ih (i + 1)
      refine ⟨Function.update memory i (slot c), ?_⟩
      rw [queuedOps, Function.update_self, List.map_cons, ← later]
      congr 1
      exact queuedOps_congr batch fun j behind =>
        Function.update_of_ne (Nat.ne_of_gt behind) _ _

/-- An operation of the batch is sure to withhold the record, and none behind it
can release it again. -/
def Upheld (batch : List Change) (r : Record) : Prop :=
  ∃ before c after, batch = before ++ c :: after ∧ c.Withholds r ∧ ∀ d ∈ after, ¬ d.MayRelease r

theorem Upheld.withholds {batch : List Change} {r : Record} (upheld : Upheld batch r)
    (memory : Nat → Slot) : withholds (queuedOps memory 0 batch) r = true := by
  obtain ⟨before, c, after, rfl, holds, kept⟩ := upheld
  rw [withholds_iff, queuedOps_append]
  refine ⟨queuedOps memory 0 before, _, _, rfl, stops_of_withholds holds _, fun u member => ?_⟩
  obtain ⟨j, d, there, rfl⟩ := mem_queuedOps.1 member
  exact not_releases_of_not_may (kept d (List.mem_of_getElem? there)) _

/-- A batch that withholds the record in every memory does so for a reason. -/
theorem upheld_of_withholds {batch : List Change} {r : Record}
    (always : ∀ memory, withholds (queuedOps memory 0 batch) r = true) : Upheld batch r := by
  have chosen (c : Change) : ∃ slot : Slot, c.MayRelease r →
      (c.request.op slot).releases r.key r.value = true := by
    by_cases may : c.MayRelease r
    · obtain ⟨slot, releases⟩ := exists_releases may
      exact ⟨slot, fun _ => releases⟩
    · exact ⟨⟨0, 0, fun _ => 0⟩, fun holds => absurd holds may⟩
  choose slot releases using chosen
  obtain ⟨memory, queued⟩ := exists_memory slot 0 batch
  have settled := (withholds_iff _ _).1 (always memory)
  rw [queued] at settled
  obtain ⟨front, t, back, cut, stops, kept⟩ := settled
  obtain ⟨before, rest, rfl, -, cut⟩ := List.map_eq_append_iff.1 cut
  obtain ⟨c, after, rfl, rfl, rfl⟩ := List.map_eq_cons_iff.1 cut
  refine ⟨before, c, after, rfl, ?_, fun d inside may => ?_⟩
  · rcases withholds_or_mayRelease (mayWithhold_of_stops stops) with sure | may
    · exact sure
    · have := stops_not_releases stops
      rw [releases c may] at this
      cases this
  · have := kept _ (List.mem_map_of_mem inside)
    rw [releases d may] at this
    cases this

theorem exists_mayWithhold {batch : List Change} {r : Record} {memory : Nat → Slot}
    (holds : withholds (queuedOps memory 0 batch) r = true) : ∃ c ∈ batch, c.MayWithhold r := by
  obtain ⟨before, t, after, cut, stops, -⟩ := (withholds_iff _ _).1 holds
  have member : t ∈ queuedOps memory 0 batch := cut ▸ by simp
  obtain ⟨j, c, there, rfl⟩ := mem_queuedOps.1 member
  exact ⟨c, List.mem_of_getElem? there, mayWithhold_of_stops stops⟩

theorem Change.MayWithhold.alone {c : Change} {r : Record} (may : c.MayWithhold r) :
    ∃ memory, withholds (queuedOps memory 0 [c]) r = true := by
  obtain ⟨slot, stops⟩ := exists_stops may
  refine ⟨fun _ => slot, ?_⟩
  change withholds [c.request.op slot] r = true
  rw [withholds_singleton, stops]

/-- **When a record that an operation withholds stays withheld.**  That is what
further operations and another order leave alone: a batch on which the record
stays withheld is one in which the operation that is sure to withhold it has
none behind it that can release it.  An `add` or a deletion of another value
does, on the same key, unless the record's value starts its own. -/
theorem withheld_alone_iff (batch : List Change) (r : Record) :
    ((∀ c ∈ batch, ∀ memory memory', withholds (queuedOps memory 0 [c]) r = true →
        withholds (queuedOps memory' 0 batch) r = true) ∧
      ∀ fewer, fewer ⊆ batch → ∀ memory memory', withholds (queuedOps memory 0 fewer) r = true →
        withholds (queuedOps memory' 0 batch) r = true) ↔
      ((∃ c ∈ batch, c.MayWithhold r) → Upheld batch r) := by
  constructor
  · rintro ⟨alone, -⟩ ⟨c, inside, may⟩
    obtain ⟨memory, holds⟩ := may.alone
    exact upheld_of_withholds fun memory' => alone c inside memory memory' holds
  · intro upheld
    have law : ∀ fewer, fewer ⊆ batch → ∀ memory memory',
        withholds (queuedOps memory 0 fewer) r = true →
          withholds (queuedOps memory' 0 batch) r = true := by
      intro fewer within memory memory' holds
      obtain ⟨c, inside, may⟩ := exists_mayWithhold holds
      exact (upheld ⟨c, within inside, may⟩).withholds memory'
    refine ⟨fun c inside => law [c] ?_, law⟩
    rintro d member
    rwa [List.mem_singleton.1 member]

/-- The record a deletion withholds on its own comes back when the batch goes on
with an `add` of the same key. -/
theorem comes_back :
    let memory : Nat → Slot := fun _ => ⟨0, 0, fun _ => 0⟩
    let r : Record := ⟨[1], [10]⟩
    ¬ ((∀ c ∈ [Change.del [1], .add [1] [11]], ∀ memory memory',
          withholds (queuedOps memory 0 [c]) r = true →
            withholds (queuedOps memory' 0 [.del [1], .add [1] [11]]) r = true)) ∧
      withholds (queuedOps memory 0 [.add [1] [11], .del [1]]) r = true ∧
      newRecords [] (fun _ => ⟨0, 0, 0⟩) (queuedOps memory 0 [.del [1], .add [1] [11]]) [r] =
        [r, ⟨[1], [11]⟩] := by
  intro memory r
  refine ⟨fun law => ?_, by decide, by decide⟩
  have holds := law (.del [1]) List.mem_cons_self memory memory (by decide)
  revert holds
  decide

/-! ## Deleting a value -/

/-- Without filters, what the loop copies is what the batch does not withhold. -/
theorem copyRecords_snd_eq (clk : Nat → Taia) (i : Nat) (ops : List Op) (old : List Record) :
    (copyRecords [] clk i ops old).2 = old.filter fun r => !withholds ops r := by
  induction old generalizing i ops with
  | nil => rfl
  | cons r old ih =>
      have marked (u : Record) : withholds (ops.map (markOp r.key r.value)) u = withholds ops u :=
        cdbbCheckOps_snd_markOp _ _ _ _ ops false
      simp only [copyRecords, cdbbCheckOps_fst, ih, marked, List.filter_cons]
      simp [cdbbCheckFilter, withholds]

theorem addedRecords_of_del {ops : List Op} (deletes : ∀ t ∈ ops, t.t = .del) :
    addedRecords ops = [] := by
  rw [addedRecords]
  rw [List.map_eq_nil_iff, List.filter_eq_nil_iff]
  intro t member
  rw [Op.writes]
  rw [deletes t member]
  split <;> simp

theorem newRecords_delVal (memory : Nat → Slot) (clk : Nat → Taia) (k w : Bytes)
    (old : List Record) :
    newRecords [] clk (queuedOps memory 0 [.delVal k w]) old =
      old.filter fun r => !((Change.delVal k w).request.op (memory 0)).stops r.key r.value := by
  have kinds : ∀ t ∈ (copyRecords [] clk 0 (queuedOps memory 0 [.delVal k w]) old).1,
      t.t = .del := by
    intro t member
    have request := List.mem_map_of_mem (f := (·.toRequest)) member
    rw [copyRecords_toRequest, queuedOps_toRequest, List.map_singleton, List.mem_singleton]
      at request
    rw [request]
    rfl
  unfold newRecords
  simp only
  rw [addedRecords_of_del kinds, List.append_nil, copyRecords_snd_eq]
  simp only [queuedOps, withholds_singleton]

/-- The content a path is left with: no name for no records. -/
theorem content_inj {new new' : List Record} :
    (if new = [] then none else some (Content.finished new)) =
      (if new' = [] then none else some (Content.finished new')) ↔ new = new' := by
  constructor
  · intro same
    split at same <;> split at same <;> simp_all
  · rintro rfl
    rfl

/-- One record: the operation does what it is meant to, whatever memory holds. -/
theorem stops_delVal_iff (k w : Bytes) (r : Record) :
    (∀ slot, ((Change.delVal k w).request.op slot).stops r.key r.value =
        decide (r.key = k ∧ r.value = w)) ↔
      (r.key = k → if k = [] then r.value ≠ w
        else r.value ≠ w → ¬ r.value <+: w ∧ ¬ w <+: r.value) := by
  constructor
  · intro exact_ onKey
    split
    · rename_i empty
      intro value
      have stops := exact_ ⟨0, 0, fun _ => 0⟩
      rw [decide_eq_true ⟨onKey, value⟩] at stops
      exact (mayWithhold_of_stops stops).1.2 empty
    · rename_i key
      intro other
      have never (may : (Change.delVal k w).MayWithhold r) : False := by
        obtain ⟨slot, stops⟩ := exists_stops may
        rw [exact_ slot, decide_eq_true_eq] at stops
        exact other stops.2
      exact ⟨fun starts => never ⟨⟨onKey.symm, key⟩, .inr starts⟩,
        fun starts => never ⟨⟨onKey.symm, key⟩, .inl starts⟩⟩
  · intro condition slot
    by_cases meant : r.key = k ∧ r.value = w
    · obtain ⟨onKey, value⟩ := meant
      have key : k ≠ [] := by
        rintro rfl
        exact condition onKey value
      rw [decide_eq_true ⟨onKey, value⟩]
      exact stops_of_withholds (c := .delVal k w)
        ⟨⟨onKey.symm, key⟩, .inr (value ▸ List.prefix_refl _)⟩ slot
    · rw [decide_eq_false meant, Bool.eq_false_iff]
      intro stops
      obtain ⟨⟨onKey, key⟩, compared⟩ := mayWithhold_of_stops stops
      have apart := condition onKey.symm
      rw [if_neg key] at apart
      have other := apart fun value => meant ⟨onKey.symm, value⟩
      exact compared.elim other.2 other.1

/-- **When a deletion of a value takes the records it is meant for.**  It
compares over the length of the stored value: it takes every record of the key
whose value starts the given one, and, when memory goes on that way, one whose
value the given one starts; an empty value is no value, and takes them all. -/
theorem delVal_exact_iff (k w : Bytes) (old : List Record) :
    (∀ (memory : Nat → Slot) (clk : Nat → Taia) (f : Path) (fs : Fs),
        fs.content f = some (.finished old) →
          let meant := old.filter fun r => ¬ (r.key = k ∧ r.value = w)
          (exec (cdbbModify memory clk f [.delVal k w] []) fs).2.content f =
            if meant = [] then none else some (.finished meant)) ↔
      ∀ r ∈ old, r.key = k → if k = [] then r.value ≠ w
        else r.value ≠ w → ¬ r.value <+: w ∧ ¬ w <+: r.value := by
  have left (memory : Nat → Slot) (clk : Nat → Taia) (f : Path) (fs : Fs)
      (holds : fs.content f = some (.finished old)) :
      (exec (cdbbModify memory clk f [.delVal k w] []) fs).2.content f =
        if newRecords [] clk (queuedOps memory 0 [.delVal k w]) old = [] then none
          else some (.finished (newRecords [] clk (queuedOps memory 0 [.delVal k w]) old)) := by
    have outcome := (exec_cdbbModify memory clk f [.delVal k w] [] fs).1
    rw [holds, modifyOutcome_of_records memory clk (by simp [Room, numOp]) rfl] at outcome
    exact congrArg Prod.snd outcome
  constructor
  · intro law r member
    refine (stops_delVal_iff k w r).1 fun slot => ?_
    have whole := law (fun _ => slot) (fun _ => ⟨0, 0, 0⟩) [] (Fs.empty.install [] (.finished old))
      (Fs.content_install_self _ _ _)
    rw [left _ _ _ _ (Fs.content_install_self _ _ _), content_inj, newRecords_delVal] at whole
    have kept : r ∈ old.filter (fun u => !((Change.delVal k w).request.op slot).stops u.key u.value) ↔
        r ∈ old.filter fun u => ¬ (u.key = k ∧ u.value = w) := by
      rw [whole]
    simp only [List.mem_filter, member, true_and, Bool.not_eq_true', decide_eq_true_eq] at kept
    by_cases meant : r.key = k ∧ r.value = w
    · rw [decide_eq_true meant, ← Bool.not_eq_false]
      exact fun stays => kept.1 stays meant
    · rw [decide_eq_false meant]
      exact kept.2 meant
  · intro condition memory clk f fs holds
    simp only
    rw [left memory clk f fs holds, content_inj, newRecords_delVal]
    refine List.filter_congr fun r member => ?_
    rw [(stops_delVal_iff k w r).2 (condition r member) (memory 0)]
    simp

/-- Deleting the value takes a record along whose value starts it. -/
theorem takes_shorter :
    let old : List Record := [⟨[1], [10]⟩, ⟨[1], [10, 11]⟩]
    ¬ ∀ (memory : Nat → Slot) (clk : Nat → Taia) (f : Path) (fs : Fs),
        fs.content f = some (.finished old) →
          let meant := old.filter fun r => ¬ (r.key = [1] ∧ r.value = [10, 11])
          (exec (cdbbModify memory clk f [.delVal [1] [10, 11]] []) fs).2.content f =
            if meant = [] then none else some (.finished meant) := by
  intro old law
  have kept := law (fun _ => ⟨0, 0, fun _ => 0⟩) (fun _ => ⟨0, 0, 0⟩) [1]
    (Fs.empty.install [1] (.finished old)) (Fs.content_install_self _ _ _)
  revert kept
  decide

end Bagunceiro
