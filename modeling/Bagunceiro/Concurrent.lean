/-
# Concurrent -- two processes that change one database

Two processes each add one record to the same database.  Nothing keeps them
apart: they use one temporary name, and each copies the database as it stands
when it reads it.  So one of the records can be lost although both processes
report success (`addOne_lost`).

What is needed is an order (`Serialised`): one process has renamed its file
before the other opens the temporary name for writing, has finished it before
the other opens the database, and is not working under the temporary name when
the other unlinks it.  Every interleaving of the calls with that order keeps
both records and all old ones (`addOne_keeps_both`); processes that run one
after the other are the simplest case (`Serialised.of_sequential`).
-/
import Bagunceiro.AddOne
import Bagunceiro.Lib.Interleave

namespace Bagunceiro

open Effect

set_option autoImplicit false

/-- `first` publishes its file before the other process takes part in earnest. -/
structure Serialised (f : Path) (first : Side) (trace : List (Side × Call)) : Prop where
  opens : ∀ past later, trace = past ++ (first.other, .openWrite (tmpName f)) :: later →
    (first, .rename (tmpName f) f) ∈ past
  reads : ∀ past later, trace = past ++ (first.other, .openRead f) :: later →
    ∃ i, (first, .makeFinish i) ∈ past
  unlinks : ∀ past later, trace = past ++ (first.other, .unlink (tmpName f)) :: later →
    (first, .openWrite (tmpName f)) ∈ past → (first, .rename (tmpName f) f) ∈ past

namespace Serialised

variable {f : Path} {first : Side}

theorem of_append {past later : List (Side × Call)}
    (serialised : Serialised f first (past ++ later)) : Serialised f first past := by
  have extend {xs ys : List (Side × Call)} {e : Side × Call} (split : past = xs ++ e :: ys) :
      past ++ later = xs ++ e :: (ys ++ later) := by
    rw [split, List.append_assoc, List.cons_append]
  constructor
  · intro xs ys split
    exact serialised.opens xs _ (extend split)
  · intro xs ys split
    exact serialised.reads xs _ (extend split)
  · intro xs ys split
    exact serialised.unlinks xs _ (extend split)

/-- A second process that does not move before the first one is done. -/
theorem of_sequential {alone rest : List (Side × Call)} {i : Inode}
    (only : ∀ e ∈ alone, e.1 = first) (renamed : (first, .rename (tmpName f) f) ∈ alone)
    (finished : (first, .makeFinish i) ∈ alone) : Serialised f first (alone ++ rest) := by
  have behind {past later : List (Side × Call)} {c : Call}
      (split : alone ++ rest = past ++ (first.other, c) :: later) : alone ⊆ past := by
    rcases List.append_eq_append_iff.1 split with ⟨mid, rfl, -⟩ | ⟨mid, rfl, tail⟩
    · exact List.subset_append_left _ _
    · cases mid with
      | nil => simp
      | cons e mid =>
          rw [List.cons_append, List.cons.injEq] at tail
          obtain ⟨rfl, -⟩ := tail
          exact absurd (only (first.other, c) (by simp)) first.other_ne
  constructor
  · intro past later split
    exact behind split renamed
  · intro past later split
    exact ⟨i, behind split finished⟩
  · intro past later split _
    exact behind split renamed

end Serialised

/-! ## The stages of a serialised interleaving -/

section Stages

variable (memory : Side → Nat → Slot) (clk : Side → Nat → Taia) (f : Path) (r : Side → Record)
variable (old : List Record) (first : Side)

/-- The two processes before they move. -/
def processes (fs : Fs) : Duo Fault Call Answer (Option Int) Fs where
  st := fs
  prog side := addOne (memory side) (clk side) f (r side)

/-- The process on one side has not opened anything. -/
def Waiting (side : Side) (p : M (Option Int)) : Prop :=
  p = addOne (memory side) (clk side) f (r side) ∨ p = unlinked (memory side) (clk side) f (r side)

/-- The second process while the first has its file under the database's name:
it waits, or it has opened its own temporary file. -/
def Behind (p : M (Option Int)) (fs : Fs) : Prop :=
  (Waiting memory clk f r first.other p ∧ fs.dir (tmpName f) = none) ∨
    ∃ w, p = opening (memory first.other) (clk first.other) f (r first.other) (some w) ∧
      fs.dir (tmpName f) = some w ∧ fs.node w = .unfinished [] ∧ fs.dir f ≠ some w

abbrev Both := Duo Fault Call Answer (Option Int) Fs

/-- Neither process has opened anything. -/
structure Early (d : Both) (past : List (Side × Call)) : Prop where
  firstWaits : d.prog first = addOne (memory first) (clk first) f (r first) ∨
    d.prog first = unlinked (memory first) (clk first) f (r first) ∧ d.st.dir (tmpName f) = none
  otherWaits : Waiting memory clk f r first.other (d.prog first.other)
  database : d.st.content f = some (.finished old)
  quiet : ∀ c, (first, c) ∈ past → c = .unlink (tmpName f)

/-- The first process fills its file. -/
structure Filling (d : Both) (past : List (Side × Call)) : Prop where
  fills : ∃ p w n fs, d.prog first = p >>= publishing f w ∧ p.Makes Copying ∧
    exec p d.st = (.ok (some n), fs) ∧ Filled f w (old ++ [r first]) fs ∧ n ≠ 0
  otherWaits : Waiting memory clk f r first.other (d.prog first.other)
  opened : (first, .openWrite (tmpName f)) ∈ past
  quiet : ∀ c, (first, c) ∈ past →
    c = .unlink (tmpName f) ∨ c = .openWrite (tmpName f) ∨ Copying c

/-- The first process has renamed its file and has to finish it. -/
structure Renamed (d : Both) (past : List (Side × Call)) : Prop where
  finishes : ∃ w n, d.prog first = .call (.makeFinish w) (fun _ => .ret (some n)) ∧
    d.st.dir f = some w ∧ d.st.node w = .unfinished (old ++ [r first])
  behind : Behind memory clk f r first (d.prog first.other) d.st
  quiet : ∀ i, (first, Call.makeFinish i) ∉ past

/-- The first process is done, and the second one ends well from here. -/
structure Finished (d : Both) : Prop where
  done : ∃ n, d.prog first = .ret (some n)
  ends : ∃ n fs, exec (d.prog first.other) d.st = (.ok (some n), fs) ∧
    fs.content f = some (.finished (old ++ [r first] ++ [r first.other]))

def Stage (d : Both) (past : List (Side × Call)) : Prop :=
  Early memory clk f r old first d past ∨ Filling memory clk f r old first d past ∨
    Renamed memory clk f r old first d past ∨ Finished f r old first d

variable {memory clk f r old first} {d : Both} {past : List (Side × Call)}

/-- What the trace says about one side does not change when the other side moves. -/
theorem mem_of_other {c c' : Call} (member : (first, c) ∈ past ++ [(first.other, c')]) :
    (first, c) ∈ past := by
  rcases List.mem_append.1 member with earlier | now
  · exact earlier
  · have := (Prod.mk.inj (List.mem_singleton.1 now)).1
    exact absurd this.symm first.other_ne

theorem mem_or_eq {c c' : Call} (member : (first, c) ∈ past ++ [(first, c')]) :
    (first, c) ∈ past ∨ c = c' := by
  rcases List.mem_append.1 member with earlier | now
  · exact .inl earlier
  · exact .inr (Prod.mk.inj (List.mem_singleton.1 now)).2

theorem Early.first_moves (early : Early memory clk f r old first d past) :
    Stage memory clk f r old first (d.move handle first) (past ++ d.moved first) := by
  have ne : first.other ≠ first := first.other_ne
  have others : Waiting memory clk f r first.other ((d.move handle first).prog first.other) := by
    rw [Duo.move_ne handle d ne]
    exact early.otherWaits
  rcases early.firstWaits with asked | ⟨asked, absent⟩
  · rw [addOne_eq] at asked
    obtain ⟨next, st⟩ := Duo.move_call handle asked
    rw [Duo.moved_call asked]
    refine .inl ⟨.inr ⟨next, ?_⟩, others, ?_, ?_⟩
    · rw [st]
      exact Fs.dir_unlink_self _ _
    · rw [st]
      show (d.st.unlink (tmpName f)).content f = _
      rw [Fs.content_unlink_ne _ (tmpName_ne f).symm, early.database]
    · intro c member
      rcases mem_or_eq member with earlier | rfl
      · exact early.quiet c earlier
      · rfl
  · obtain ⟨next, st⟩ := Duo.move_call handle asked
    rw [Duo.moved_call asked]
    have created : handle (.openWrite (tmpName f)) d.st =
        (some d.st.next, d.st.create (tmpName f)) := Fs.openWrite_of_none _ absent
    rw [created] at next st
    obtain ⟨fs, ran, filled⟩ := exec_writing (memory first) (clk first) (r first)
      (ready_create early.database)
    refine .inr (.inl ⟨⟨_, d.st.next, (old.length : Int) + 1, fs, next,
      makes_writing _ _ _ _ _, ?_, filled, ?_⟩, others, by simp, ?_⟩)
    · rw [st]
      exact ran
    · omega
    · intro c member
      rcases mem_or_eq member with earlier | rfl
      · exact .inl (early.quiet c earlier)
      · exact .inr (.inl rfl)

theorem Early.other_moves (early : Early memory clk f r old first d past)
    (allowed : Serialised f first (past ++ d.moved first.other)) :
    Stage memory clk f r old first (d.move handle first.other)
      (past ++ d.moved first.other) := by
  have same : (d.move handle first.other).prog first = d.prog first :=
    Duo.move_ne handle d first.other_ne.symm
  rcases early.otherWaits with asked | asked
  · rw [addOne_eq] at asked
    obtain ⟨next, st⟩ := Duo.move_call handle asked
    rw [Duo.moved_call asked]
    refine .inl ⟨?_, .inr next, ?_, fun c member => early.quiet c (mem_of_other member)⟩
    · rw [same]
      rcases early.firstWaits with waits | ⟨waits, -⟩
      · exact .inl waits
      · refine .inr ⟨waits, ?_⟩
        rw [st]
        exact Fs.dir_unlink_self _ _
    · rw [st]
      show (d.st.unlink (tmpName f)).content f = _
      rw [Fs.content_unlink_ne _ (tmpName_ne f).symm, early.database]
  · rw [Duo.moved_call asked] at allowed
    have renamed := allowed.opens past [] rfl
    exact absurd (early.quiet _ renamed) (by simp)

theorem Filling.first_moves (filling : Filling memory clk f r old first d past) :
    Stage memory clk f r old first (d.move handle first) (past ++ d.moved first) := by
  have ne : first.other ≠ first := first.other_ne
  have others : Waiting memory clk f r first.other ((d.move handle first).prog first.other) := by
    rw [Duo.move_ne handle d ne]
    exact filling.otherWaits
  obtain ⟨p, w, n, fs, prog, makes, ran, filled, some_⟩ := filling.fills
  cases p with
  | ret o =>
      simp only [exec, Prog.run_ret, Prod.mk.injEq, Except.ok.injEq] at ran
      obtain ⟨rfl, rfl⟩ := ran
      have asked : d.prog first = publish f w n := prog
      rw [publish_eq f w some_] at asked
      obtain ⟨next, st⟩ := Duo.move_call handle asked
      rw [Duo.moved_call asked]
      obtain ⟨-, dir, node, -⟩ := d.st.rename_of_some filled.temporary f
      refine .inr (.inr (.inl ⟨⟨w, n, next, ?_, ?_⟩, .inl ⟨others, ?_⟩, ?_⟩))
      · rw [st]
        show (d.st.rename (tmpName f) f).2.dir f = some w
        rw [dir, Function.update_self]
      · rw [st]
        show (d.st.rename (tmpName f) f).2.node w = _
        rw [node, filled.filled]
      · rw [st]
        show (d.st.rename (tmpName f) f).2.dir (tmpName f) = none
        rw [dir, Function.update_of_ne (tmpName_ne f), Function.update_self]
      · intro i member
        rcases mem_or_eq member with earlier | now
        · rcases filling.quiet _ earlier with it | it | it <;> cases it
        · cases now
  | fail e => simp [exec] at ran
  | call c k =>
      have asked : d.prog first = .call c fun x => k x >>= publishing f w := prog
      obtain ⟨next, st⟩ := Duo.move_call handle asked
      rw [Duo.moved_call asked]
      refine .inr (.inl ⟨⟨_, w, n, fs, next, makes.2 _, ?_, filled, some_⟩, others,
        List.mem_append_left _ filling.opened, ?_⟩)
      · rw [st]
        exact ran
      · intro c' member
        rcases mem_or_eq member with earlier | rfl
        · exact filling.quiet c' earlier
        · exact .inr (.inr makes.1)

theorem Filling.other_moves (filling : Filling memory clk f r old first d past)
    (allowed : Serialised f first (past ++ d.moved first.other)) :
    Stage memory clk f r old first (d.move handle first.other)
      (past ++ d.moved first.other) := by
  have renamed : (first, Call.rename (tmpName f) f) ∉ past := by
    intro member
    rcases filling.quiet _ member with it | it | it <;> cases it
  rcases filling.otherWaits with asked | asked
  · rw [addOne_eq] at asked
    rw [Duo.moved_call asked] at allowed
    exact absurd (allowed.unlinks past [] rfl filling.opened) renamed
  · rw [Duo.moved_call asked] at allowed
    exact absurd (allowed.opens past [] rfl) renamed

/-- From a finished file a process behind the first one ends well. -/
theorem Behind.ends {p : M (Option Int)} {fs : Fs} {new : List Record}
    (behind : Behind memory clk f r first p fs) (database : fs.content f = some (.finished new)) :
    ∃ n fs', exec p fs = (.ok (some n), fs') ∧
      fs'.content f = some (.finished (new ++ [r first.other])) := by
  rcases behind with ⟨rfl | rfl, absent⟩ | ⟨w, rfl, temporary, blank, -⟩
  · exact ⟨_, exec_addOne _ _ _ database⟩
  · exact ⟨_, exec_unlinked _ _ _ absent database⟩
  · exact ⟨_, exec_opening _ _ _ ⟨temporary, blank, database⟩⟩

theorem Renamed.first_moves (renamed : Renamed memory clk f r old first d past) :
    Stage memory clk f r old first (d.move handle first) (past ++ d.moved first) := by
  obtain ⟨w, n, asked, named, node⟩ := renamed.finishes
  obtain ⟨next, st⟩ := Duo.move_call handle asked
  have finished : (d.move handle first).st = d.st.setNode w (.finished (old ++ [r first])) := by
    rw [st]
    exact Fs.makeFinish_of_unfinished _ node
  have behind : Behind memory clk f r first ((d.move handle first).prog first.other)
      (d.move handle first).st := by
    rw [Duo.move_ne handle d first.other_ne, finished]
    rcases renamed.behind with waits | ⟨v, prog, temporary, blank, apart⟩
    · exact .inl waits
    · have ne : v ≠ w := by
        rintro rfl
        exact apart named
      refine .inr ⟨v, prog, temporary, ?_, apart⟩
      rw [Fs.node_setNode_ne _ ne, blank]
  refine .inr (.inr (.inr ⟨⟨n, next⟩, behind.ends ?_⟩))
  rw [finished]
  simp [Fs.content, named]

theorem Renamed.other_moves (renamed : Renamed memory clk f r old first d past)
    (allowed : Serialised f first (past ++ d.moved first.other)) :
    Stage memory clk f r old first (d.move handle first.other)
      (past ++ d.moved first.other) := by
  have same : (d.move handle first.other).prog first = d.prog first :=
    Duo.move_ne handle d first.other_ne.symm
  obtain ⟨w, n, prog, named, node⟩ := renamed.finishes
  have apart : f ≠ tmpName f := (tmpName_ne f).symm
  rcases renamed.behind with ⟨asked | asked, absent⟩ | ⟨v, asked, -⟩
  · rw [addOne_eq] at asked
    obtain ⟨next, st⟩ := Duo.move_call handle asked
    rw [Duo.moved_call asked]
    refine .inr (.inr (.inl ⟨⟨w, n, same.trans prog, ?_, ?_⟩, .inl ⟨.inr next, ?_⟩, ?_⟩))
    · rw [st]
      exact (Fs.dir_unlink_ne _ apart).trans named
    · rw [st]
      exact node
    · rw [st]
      exact Fs.dir_unlink_self _ _
    · intro i member
      exact renamed.quiet i (mem_of_other member)
  · obtain ⟨next, st⟩ := Duo.move_call handle asked
    rw [Duo.moved_call asked]
    have created : handle (.openWrite (tmpName f)) d.st =
        (some d.st.next, d.st.create (tmpName f)) := Fs.openWrite_of_none _ absent
    rw [created] at next st
    have old_ : w ≠ d.st.next := Fs.ne_next_of_dir _ named
    have dir : (d.st.create (tmpName f)).dir f = some w := by
      rw [Fs.dir_create_ne _ apart, named]
    refine .inr (.inr (.inl ⟨⟨w, n, same.trans prog, ?_, ?_⟩, .inr ⟨d.st.next, next, ?_⟩, ?_⟩))
    · rw [st]
      exact dir
    · rw [st]
      exact (Fs.node_create_ne _ old_).trans node
    · rw [st]
      refine ⟨Fs.dir_create_self _ _, Fs.node_create_next _ _, ?_⟩
      rw [dir]
      intro clash
      exact old_ (Option.some.inj clash)
    · intro i member
      exact renamed.quiet i (mem_of_other member)
  · have reads : d.moved first.other = [(first.other, .openRead f)] := Duo.moved_call asked
    rw [reads] at allowed
    obtain ⟨i, member⟩ := allowed.reads past [] rfl
    exact absurd member (renamed.quiet i)

theorem Finished.moves (finished : Finished f r old first d) (side : Side) :
    Stage memory clk f r old first (d.move handle side) (past ++ d.moved side) := by
  refine .inr (.inr (.inr ?_))
  obtain ⟨n, done⟩ := finished.done
  rcases first.eq_or_other side with rfl | rfl
  · rw [(Duo.move_ret handle done).2]
    exact finished
  · refine ⟨⟨n, ?_⟩, ?_⟩
    · rw [Duo.move_ne handle d first.other_ne.symm, done]
    · rw [Duo.move_self, Duo.move_st]
      simp only [exec, Prog.run_step]
      exact finished.ends

/-- **One call**, of either process, leads from stage to stage. -/
theorem Stage.moves (stage : Stage memory clk f r old first d past) (side : Side)
    (allowed : Serialised f first (past ++ d.moved side)) :
    Stage memory clk f r old first (d.move handle side) (past ++ d.moved side) := by
  rcases first.eq_or_other side with rfl | rfl
  · rcases stage with early | filling | renamed | finished
    · exact early.first_moves
    · exact filling.first_moves
    · exact renamed.first_moves
    · exact finished.moves _
  · rcases stage with early | filling | renamed | finished
    · exact early.other_moves allowed
    · exact filling.other_moves allowed
    · exact renamed.other_moves allowed
    · exact finished.moves _

/-- A process that has not opened anything has not returned either. -/
theorem Waiting.not_ret {side : Side} {p : M (Option Int)}
    (waiting : Waiting memory clk f r side p) (o : Option Int) : p ≠ .ret o := by
  rcases waiting with rfl | rfl
  · rw [addOne_eq]
    exact nofun
  · exact nofun

theorem Stage.content (stage : Stage memory clk f r old first d past)
    (success : ∀ side, ∃ n, d.prog side = .ret (some n)) :
    d.st.content f = some (.finished (old ++ [r first] ++ [r first.other])) := by
  obtain ⟨n, returned⟩ := success first.other
  rcases stage with early | filling | renamed | finished
  · exact absurd returned (early.otherWaits.not_ret _)
  · exact absurd returned (filling.otherWaits.not_ret _)
  · obtain ⟨w, m, asked, -⟩ := renamed.finishes
    obtain ⟨m', done⟩ := success first
    rw [asked] at done
    cases done
  · obtain ⟨m, fs, ran, content⟩ := finished.ends
    rw [returned] at ran
    cases ran
    exact content

end Stages

/-! ## Both records -/

/-- **A serialised interleaving keeps everything.**  When both processes report
success, the database holds the old records and both new ones. -/
theorem addOne_keeps_both (memory : Side → Nat → Slot) (clk : Side → Nat → Taia) (f : Path)
    (r : Side → Record) (old : List Record) (fs : Fs) (first : Side) (sched : List Side)
    (database : fs.content f = some (.finished old))
    (serialised : Serialised f first (calls handle sched (processes memory clk f r fs)))
    (success : ∀ side, ∃ n,
      (interleave handle sched (processes memory clk f r fs)).prog side = .ret (some n)) :
    (interleave handle sched (processes memory clk f r fs)).st.content f =
      some (.finished (old ++ [r first] ++ [r first.other])) := by
  have start : Stage memory clk f r old first (processes memory clk f r fs) [] :=
    .inl ⟨.inl rfl, .inl rfl, database, by simp⟩
  have final := interleave_induction handle (fun _ _ => Serialised.of_append)
    (fun _ _ side stage allowed => Stage.moves stage side allowed) sched _ [] start serialised
  exact final.content success

/-- The second process does not move before the first one has finished its file. -/
theorem addOne_keeps_both_sequential :
    let r : Side → Record := fun side => if side = .left then ⟨[2], [20]⟩ else ⟨[3], [30]⟩
    let fs := Fs.empty.install (str "db") (.finished [⟨[1], [10]⟩])
    let start := processes (fun _ _ => ⟨0, 0, fun _ => 0⟩) (fun _ _ => ⟨0, 0, 0⟩) (str "db") r fs
    let sched := List.replicate 8 Side.left ++ List.replicate 9 Side.right
    (interleave handle sched start).st.content (str "db") =
      some (.finished [⟨[1], [10]⟩, ⟨[2], [20]⟩, ⟨[3], [30]⟩]) := by
  intro r fs start sched
  have trace : calls handle sched start =
      calls handle (List.replicate 8 .left) start ++ (calls handle sched start).drop 8 := by rfl
  refine addOne_keeps_both _ _ _ r [⟨[1], [10]⟩] fs .left sched (Fs.content_install_self _ _ _)
    ?_ ?_
  · show Serialised _ _ (calls handle sched start)
    rw [trace]
    exact .of_sequential (i := 1) (by decide) (by decide) (by decide)
  · rintro (_ | _)
    · exact ⟨2, by rfl⟩
    · exact ⟨3, by rfl⟩

/-- The second process unlinks the first one's temporary file and opens its own
there: the first one's rename puts that file in place, its record is lost, and
both report two records. -/
theorem addOne_lost :
    let r : Side → Record := fun side => if side = .left then ⟨[2], [20]⟩ else ⟨[3], [30]⟩
    let fs := Fs.empty.install (str "db") (.finished [⟨[1], [10]⟩])
    let start := processes (fun _ _ => ⟨0, 0, fun _ => 0⟩) (fun _ _ => ⟨0, 0, 0⟩) (str "db") r fs
    let sched := List.replicate 6 Side.left ++ List.replicate 3 .right ++
      List.replicate 2 .left ++ List.replicate 5 .right
    let final := interleave handle sched start
    final.prog .left = .ret (some 2) ∧ final.prog .right = .ret (some 2) ∧
      final.st.content (str "db") = some (.finished [⟨[1], [10]⟩, ⟨[3], [30]⟩]) := by
  refine ⟨by rfl, by rfl, ?_⟩
  decide

end Bagunceiro
