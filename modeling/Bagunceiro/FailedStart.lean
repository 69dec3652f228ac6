/-
# FailedStart -- a configuration saved although the files did not open (`save_config`)

`cdbb_start_mod` fails in two places: with the temporary file, and then nothing of
`struct cdbb` is set that queueing needs; or with the database, and then only the
file to read from is missing.  `save_config` looks at neither.  In the second case
all it does before `cdbb_apply` is defined, so the batch is queued and both strings
of the form are in memory when the batch meets the file that was never opened
(`saveOn_noDb`).  It returns 0 in any case, so no failed start is ever
reported (`saveConfig_never_refuses`).
-/
import Bagunceiro.SavedConfig

namespace Bagunceiro

open Effect

set_option autoImplicit false

/-! ## Opening the files -/

/-- What the system allows: to create the temporary file, and to read a database
that is there. -/
structure Allowed where
  tmp : Bool
  db : Bool
  deriving DecidableEq, Repr

/-- A system that may refuse to open files. -/
def refusing (allowed : Allowed) : Handler Call Answer Fs
  | .openWrite p, fs => if allowed.tmp then handle (.openWrite p) fs else (none, fs)
  | .openRead p, fs => if allowed.db then handle (.openRead p) fs else (none, fs)
  | c, fs => handle c fs

theorem refusing_all : refusing ⟨true, true⟩ = handle := by
  funext c fs
  cases c <;> rfl

/-- `struct cdbb` behind `cdbb_start_mod`: what it has not set is not there. -/
inductive Started
  /-- neither file is open, and `tnum` is not set -/
  | noTmp
  /-- the batch is empty, and `r` is not set -/
  | noDb (w : Inode)
  | whole (a : Cdbb)

/-- What `cdbb_start_mod` returns; a descriptor is positive. -/
def Started.err : Started → Int
  | .noTmp => -1
  | .noDb _ => -1
  | .whole _ => 1

def Started.whole? : Started → Option Cdbb
  | .whole a => some a
  | _ => none

/-- `cdbb_start_mod`, with what it leaves when it fails. -/
def startMod (memory : Nat → Slot) (f : Path) : M Started := do
  match ← cdbbOpenWrite (tmpName f) with
  | none => return .noTmp
  | some w =>
      match ← cdbbOpenRead f with
      | none => return .noDb w
      | some r => return .whole { w, r, f, t := tmpName f, ops := [], slots := memory, fil := [] }

theorem cdbbStartMod_eq (memory : Nat → Slot) (f : Path) :
    cdbbStartMod memory f = startMod memory f >>= fun a => .ret a.whole? := by
  rw [cdbbStartMod, startMod]
  rw [Prog.bind_assoc]
  refine congrArg _ (funext fun w => ?_)
  cases w with
  | none => rfl
  | some w =>
      simp only [Prog.bind_assoc]
      refine congrArg _ (funext fun r => ?_)
      cases r <;> rfl

/-! ## Saving -/

/-- What `save_config` works on: the blog, the batch, and the files. -/
structure Saving where
  conf : Blog
  queue : List Change
  fs : Fs

/-- What `save_config` does with its batch. -/
inductive Use
  | rep (k v : Bytes)
  | apply

/-- What a use of unset memory does: it ends the program, or goes on with anything. -/
abbrev Undefined := Use → Saving → Option Saving

/-- A statement of `save_config`; a fault keeps what it found. -/
abbrev Step := Saving → Except (Fault × Saving) Saving

section

variable (undefined : Undefined) (a : Started)

def useUnset (use : Use) : Step := fun s =>
  match undefined use s with
  | none => .error (.uninitialised, s)
  | some s => .ok s

/-- `cdbb_rep`, which needs `tnum`. -/
def repFrom (k v : Bytes) : Step := fun s =>
  match a with
  | .noTmp => useUnset undefined (.rep k v) s
  | _ => .ok { s with queue := s.queue ++ [.rep k v] }

/-- `cdbb_apply`, which needs both files. -/
def applyFrom (clk : Nat → Taia) : Step := fun s =>
  match a with
  | .whole a =>
      match exec (cdbbApply clk (queueAll s.queue [] a)) s.fs with
      | (.ok _, fs) => .ok { s with fs }
      | (.error e, fs) => .error (e, { s with fs })
  | _ => useUnset undefined .apply s

/-- `strcpy(conf->title, conf->qry.title)` -/
def takeTitle : Step := fun s =>
  match store sizeHttpArg s.conf.title (cstr s.conf.qry.title ++ [0]) with
  | .ok title => .ok { s with conf := { s.conf with title } }
  | .error e => .error (e, s)

/-- `strcpy(conf->tagline, conf->qry.tagline)` -/
def takeTagline : Step := fun s =>
  match store sizeTagline s.conf.tagline (cstr s.conf.qry.tagline ++ [0]) with
  | .ok tagline => .ok { s with conf := { s.conf with tagline } }
  | .error e => .error (e, s)

/-- The statements of `save_config` behind `cdbb_start_mod`. -/
def saveSteps (clk : Nat → Taia) : Step := fun s => do
  let s ← if cstr s.conf.qry.title ≠ [] then
      repFrom undefined a confTitle (cstr s.conf.qry.title ++ [0]) s >>= takeTitle
    else pure s
  let s ← if cstr s.conf.qry.pass ≠ [] then
      repFrom undefined a confPass (cstr s.conf.qry.pass ++ [0]) s
    else pure s
  let s ← repFrom undefined a confTagline (cstr s.conf.qry.tagline ++ [0]) s
  let s ← takeTagline s
  let s ← repFrom undefined a confSearchbox [s.conf.sbox] s
  applyFrom undefined a clk s

/-- The result, and what is left. -/
def saveFrom (clk : Nat → Taia) (s : Saving) : Except (Fault × Saving) (Int × Saving) := do
  let s ← saveSteps undefined a clk s
  return (0, s)

end

/-- `cdbb_start_mod` on the configuration database. -/
def startConfig (allowed : Allowed) (memory : Nat → Slot) (fs : Fs) : Except Fault Started × Fs :=
  Prog.run (refusing allowed) (startMod memory confDb) fs

/-- `save_config`, on a system that may refuse to open files. -/
def saveOn (undefined : Undefined) (allowed : Allowed) (memory : Nat → Slot) (clk : Nat → Taia)
    (conf : Blog) (fs : Fs) : Except (Fault × Saving) (Int × Saving) :=
  match startConfig allowed memory fs with
  | (.ok a, fs) => saveFrom undefined a clk ⟨conf, [], fs⟩
  | (.error e, fs) => .error (e, ⟨conf, [], fs⟩)

/-! ## What opening leaves -/

theorem run_startMod_noTmp {allowed : Allowed} (refused : allowed.tmp = false)
    (memory : Nat → Slot) (f : Path) (fs : Fs) :
    Prog.run (refusing allowed) (startMod memory f) fs = (.ok .noTmp, fs.unlink (tmpName f)) := by
  have opened : Prog.run (refusing allowed) (cdbbOpenWrite (tmpName f)) fs =
      (.ok none, fs.unlink (tmpName f)) := by
    change (Except.ok (refusing allowed (.openWrite (tmpName f)) (fs.unlink (tmpName f))).1,
      (refusing allowed (.openWrite (tmpName f)) (fs.unlink (tmpName f))).2) = _
    simp only [refusing, refused]
    rfl
  rw [startMod]
  rw [Prog.run_bind_ok _ opened]
  rfl

theorem run_startMod {allowed : Allowed} (created : allowed.tmp = true) (memory : Nat → Slot)
    (f : Path) (fs : Fs) :
    Prog.run (refusing allowed) (startMod memory f) fs =
      (.ok (match if allowed.db then fs.dir f else none with
        | none => .noDb fs.next
        | some r => .whole (started memory f fs.next r)), fs.started f) := by
  have opened : Prog.run (refusing allowed) (cdbbOpenWrite (tmpName f)) fs =
      (.ok (some fs.next), fs.started f) := by
    change (Except.ok (refusing allowed (.openWrite (tmpName f)) (fs.unlink (tmpName f))).1,
      (refusing allowed (.openWrite (tmpName f)) (fs.unlink (tmpName f))).2) = _
    have made := Fs.openWrite_of_none (fs.unlink (tmpName f)) (Fs.dir_unlink_self fs _)
    simp only [refusing, created, handle, made]
    rfl
  have reading : Prog.run (refusing allowed) (cdbbOpenRead f) (fs.started f) =
      (.ok (if allowed.db then fs.dir f else none), fs.started f) := by
    rw [← Fs.dir_started_ne fs (tmpName_ne f).symm]
    change (Except.ok (refusing allowed (.openRead f) (fs.started f)).1,
      (refusing allowed (.openRead f) (fs.started f)).2) = _
    cases permitted : allowed.db with
    | true =>
        simp only [refusing, permitted]
        rfl
    | false =>
        simp only [refusing, permitted]
        rfl
  rw [startMod]
  rw [Prog.run_bind_ok _ opened]
  simp only
  rw [Prog.run_bind_ok _ reading]
  cases if allowed.db then fs.dir f else none <;> rfl

/-! ## Saving over what it leaves -/

section

variable (undefined : Undefined) (clk : Nat → Taia)

/-- Whatever happens, the result is 0. -/
theorem saveFrom_returns {a : Started} {s t : Saving} {err : Int}
    (ran : saveFrom undefined a clk s = .ok (err, t)) : err = 0 := by
  rw [saveFrom] at ran
  cases steps : saveSteps undefined a clk s with
  | error e =>
      rw [steps] at ran
      cases ran
  | ok t =>
      rw [steps] at ran
      cases ran
      rfl

theorem takeOver_parts {conf taken : Blog} (fits : takeOver conf = .ok taken) :
    ∃ title tagline,
      (if cstr conf.qry.title ≠ [] then
        store sizeHttpArg conf.title (cstr conf.qry.title ++ [0]) else .ok conf.title) = .ok title ∧
      store sizeTagline conf.tagline (cstr conf.qry.tagline ++ [0]) = .ok tagline ∧
      taken = { conf with title, tagline } := by
  rw [takeOver] at fits
  cases hasTagline : store sizeTagline conf.tagline (cstr conf.qry.tagline ++ [0]) with
  | error e =>
      simp only [hasTagline, bind, Except.bind] at fits
      grind
  | ok tagline =>
      by_cases some_ : cstr conf.qry.title = []
      · simp [some_, hasTagline, bind, Except.bind, pure, Except.pure] at fits
        exact ⟨conf.title, tagline, by simp [some_], rfl, fits.symm⟩
      · cases hasTitle : store sizeHttpArg conf.title (cstr conf.qry.title ++ [0]) with
        | error e => simp [some_, hasTitle, bind, Except.bind] at fits
        | ok title =>
            simp [some_, hasTitle, hasTagline, bind, Except.bind, pure, Except.pure] at fits
            exact ⟨title, tagline, by simp [some_], rfl, fits.symm⟩

/-- Once the batch can be queued, it is, and the strings of the form are taken over
before the batch is applied. -/
theorem saveSteps_queued {a : Started} (queues : a ≠ .noTmp) {conf taken : Blog} (fs : Fs)
    (fits : takeOver conf = .ok taken) :
    saveSteps undefined a clk ⟨conf, [], fs⟩ =
      applyFrom undefined a clk ⟨taken, saveChanges conf, fs⟩ := by
  have queue (k v : Bytes) (s : Saving) :
      repFrom undefined a k v s = .ok { s with queue := s.queue ++ [.rep k v] } := by
    cases a with
    | noTmp => exact absurd rfl queues
    | noDb w => rfl
    | whole a => rfl
  obtain ⟨title, tagline, hasTitle, hasTagline, rfl⟩ := takeOver_parts fits
  by_cases some_ : cstr conf.qry.title = []
  · rw [if_neg (not_not.2 some_), Except.ok.injEq] at hasTitle
    subst hasTitle
    by_cases pass : cstr conf.qry.pass = [] <;>
      simp [saveSteps, saveChanges, queue, takeTagline, some_, hasTagline, pass, bind, Except.bind,
        pure, Except.pure]
  · rw [if_pos some_] at hasTitle
    by_cases pass : cstr conf.qry.pass = [] <;>
      simp [saveSteps, saveChanges, queue, takeTitle, takeTagline, some_, hasTitle, hasTagline, pass,
        bind, Except.bind, pure, Except.pure]

end

/-! ## The program, where nothing is refused -/

/-- The blog a run leaves or its fault, and the files. -/
def ending : Except (Fault × Saving) (Int × Saving) → Except Fault Blog × Fs
  | .ok (_, s) => (.ok s.conf, s.fs)
  | .error (e, s) => (.error e, s.fs)

/-- If a use of unset memory ends the program, it is `saveConfig`. -/
theorem ending_saveOn (memory : Nat → Slot) (clk : Nat → Taia) {conf taken : Blog} (fs : Fs)
    (fits : takeOver conf = .ok taken) :
    ending (saveOn (fun _ _ => none) ⟨true, true⟩ memory clk conf fs) =
      exec (saveConfig memory clk conf) fs := by
  have start := @run_startMod ⟨true, true⟩ rfl memory confDb fs
  rw [refusing_all] at start
  rw [exec, saveConfig, saveOn, startConfig]
  rw [refusing_all, start, cdbbStartMod_eq, Prog.bind_assoc, Prog.run_bind_ok handle start]
  cases named : fs.dir confDb with
  | none =>
      simp only [if_true, saveFrom]
      rw [saveSteps_queued _ clk (by simp) _ fits]
      rfl
  | some r =>
      simp only [if_true, saveFrom, Prog.ret_bind, Started.whole?, fits, written]
      rw [saveSteps_queued _ clk (by simp) _ fits, saveConfigOps_eq, Prog.run_bind]
      simp only [applyFrom, exec]
      cases Prog.run handle (cdbbApply clk (queueAll (saveChanges conf) []
        (started memory confDb fs.next r))) (fs.started confDb) with
      | mk result t => cases result <;> rfl

/-! ## A failed start -/

/-- What should come of it: nothing is queued or stored, nothing in memory has
changed, and the caller hears of it. -/
structure Refuses (conf : Blog) (fs : Fs) (err : Int) (s : Saving) : Prop where
  reported : err < 0
  queue : s.queue = []
  stored : s.fs.content confDb = fs.content confDb
  title : s.conf.title = conf.title
  tagline : s.conf.tagline = conf.tagline

section

variable (undefined : Undefined) (allowed : Allowed) (memory : Nat → Slot) (clk : Nat → Taia)
  (conf : Blog) (fs : Fs)

theorem saveOn_returns {err : Int} {s : Saving}
    (ran : saveOn undefined allowed memory clk conf fs = .ok (err, s)) : err = 0 := by
  rw [saveOn] at ran
  split at ran
  · exact saveFrom_returns undefined clk ran
  · cases ran

/-- Without the database, the whole form is queued and taken over. -/
theorem saveOn_noDb (created : allowed.tmp = true) (unread : allowed.db = false ∨ fs.dir confDb = none)
    {taken : Blog} (fits : takeOver conf = .ok taken) :
    saveOn undefined allowed memory clk conf fs =
      useUnset undefined .apply ⟨taken, saveChanges conf, fs.started confDb⟩ >>= fun s =>
        .ok (0, s) := by
  have opens : (if allowed.db then fs.dir confDb else none) = none := by
    rcases unread with refused | absent
    · simp [refused]
    · simp [absent]
  rw [saveOn, startConfig]
  rw [run_startMod created, opens]
  simp only [saveFrom]
  rw [saveSteps_queued undefined clk (by simp) _ fits]
  rfl

/-- **A failed start is never refused**: `save_config` returns 0 or not at all.
Where only the database is missing, it gets as far as applying the whole form. -/
theorem saveConfig_never_refuses {a : Started}
    (failed : (startConfig allowed memory fs).1 = .ok a ∧ a.err < 0) :
    (¬ ∃ err s, saveOn undefined allowed memory clk conf fs = .ok (err, s) ∧
      Refuses conf fs err s) ∧
    ∀ taken, a ≠ .noTmp → takeOver conf = .ok taken →
      saveOn undefined allowed memory clk conf fs =
        useUnset undefined .apply ⟨taken, saveChanges conf, fs.started confDb⟩ >>= fun s =>
          .ok (0, s) := by
  constructor
  · rintro ⟨err, s, ran, refuses⟩
    have zero := saveOn_returns undefined allowed memory clk conf fs ran
    have reported := refuses.reported
    omega
  · intro taken queues fits
    obtain ⟨start, negative⟩ := failed
    rw [startConfig] at start
    cases created : allowed.tmp with
    | false =>
        rw [run_startMod_noTmp created] at start
        exact absurd (Except.ok.inj start).symm queues
    | true =>
        rw [run_startMod created] at start
        refine saveOn_noDb undefined allowed memory clk conf fs created ?_ fits
        by_contra both
        rw [not_or, Bool.not_eq_false] at both
        obtain ⟨r, named⟩ := Option.ne_none_iff_exists'.1 both.2
        rw [both.1, named] at start
        cases start
        exact absurd negative (by simp [Started.err])

end

/-- The database is missing. -/
theorem saveConfig_never_refuses_sample :
    ¬ ∃ err s, saveOn (fun _ _ => none) ⟨true, true⟩ (fun _ => ⟨0, 0, fun _ => 0⟩)
      (fun _ => ⟨0, 0, 0⟩) (configForm (str "new") (str "about") 121) Fs.empty = .ok (err, s) ∧
        Refuses (configForm (str "new") (str "about") 121) Fs.empty err s :=
  (saveConfig_never_refuses (fun _ _ => none) ⟨true, true⟩ _ _ _ Fs.empty (a := .noDb 0)
    ⟨rfl, by decide⟩).1

/-- The blog when the form has been taken over. -/
def takenSample : Blog :=
  { configForm (str "new") (str "about") 121 with
    title := str "new" ++ zeros 61
    tagline := str "about" ++ zeros 187 }

/-- Whether the program ends with the batch or goes on, it has taken the new title
over, and if it returns it returns 0. -/
theorem missing_conf_takes_title :
    ∃ s, saveOn (fun _ _ => none) ⟨true, true⟩ (fun _ => ⟨0, 0, fun _ => 0⟩) (fun _ => ⟨0, 0, 0⟩)
        (configForm (str "new") (str "about") 121) Fs.empty = .error (.uninitialised, s) ∧
      saveOn (fun _ t => some t) ⟨true, true⟩ (fun _ => ⟨0, 0, fun _ => 0⟩) (fun _ => ⟨0, 0, 0⟩)
        (configForm (str "new") (str "about") 121) Fs.empty = .ok (0, s) ∧
      s.queue ≠ [] ∧ s.conf.title ≠ (configForm (str "new") (str "about") 121).title ∧
      ¬ Refuses (configForm (str "new") (str "about") 121) Fs.empty 0 s := by
  have fits : takeOver (configForm (str "new") (str "about") 121) = .ok takenSample := by decide +kernel
  refine ⟨⟨takenSample, saveChanges (configForm (str "new") (str "about") 121),
    Fs.empty.started confDb⟩, ?_, ?_, ?_, ?_, ?_⟩
  · rw [saveOn_noDb _ _ _ _ _ _ rfl (.inr rfl) fits]
    rfl
  · rw [saveOn_noDb _ _ _ _ _ _ rfl (.inr rfl) fits]
    rfl
  · simp [saveChanges]
  · decide +kernel
  · intro refuses
    exact absurd refuses.reported (by decide)

end Bagunceiro
