/-
# Freshness -- `304 Not Modified` (`z_conf.c`, `z_format.c`)

Every change of an entry replaces the record of the last modification, whose time
goes out as `Last-Modified` and is compared when it comes back.  As long as clocks
move on, a page that is not sent again has the entries of the page that was sent
(`not_modified_is_fresh`).

A page shows the title, the tagline and the search box too, and `save_config`
leaves the record as it is: after it old pages pass for new ones
(`new_title_is_not_sent`).

The build is the one without FastCGI: a process serves one request, so that the
files are all that lasts.
-/
import Bagunceiro.Entry
import Bagunceiro.Lib.Hoare
import Bagunceiro.Lib.Runs
import Bagunceiro.SavedConfig

namespace Bagunceiro

open Effect Prog

set_option autoImplicit false

/-! ## The code -/

/-- `fmt_httpdate` and `scan_httpdate`, on `time_t`. -/
structure Httpdate where
  fmt : Int → Bytes
  scan : Bytes → Int

def httpIsModified (date : Httpdate) (lm : Bytes) (t : Int) : Bool := date.scan lm < t

/-- The bits of a label that are taken for the time. -/
def timeOf (t : Taia) : Int := ((t.sec &&& 0xfffffffffff).toNat : Int)

/-- `pk` is what its buffer holds before the record is read into it. -/
def httpIfModifiedSince (date : Httpdate) (pk : Bytes) (m : Option Bytes) : M Int := do
  match ← cdbbOpenRead dbFile with
  | none => return -1
  | some r =>
      let (err, v) ← cdbbReadn r dbLastModified taiaPackSize
      let t := timeOf (taiaUnpack (v ++ pk.drop v.length))
      if err = 1 ∧ m.any fun m => !httpIsModified date m t then return 0
      return t

inductive Response
  | notModified
  /-- the page, and the `Last-Modified` in front of it -/
  | page (lastModified : Option Bytes)
  deriving DecidableEq, Repr

/-- `print_show` up to the page itself. -/
def printShow (date : Httpdate) (pk : Bytes) (mod : Option Bytes) : M Response :=
  match mod with
  | none => return .page none
  | some m => do
      let t ← httpIfModifiedSince date pk (some m)
      if t ≠ 0 then return .page (some (date.fmt t)) else return .notModified

/-! ## Runs -/

inductive Action
  | addEntry (k : Taia) (v : Bytes)
  | modifyEntry (k : Taia) (v : Bytes)
  | deleteEntry (k : Taia)
  | saveConfig (conf : Blog)
  | printShow (mod : Option Bytes) (pk : Bytes)

/-- One process: its clock, what it does, and the memory and the clocks of its batch. -/
structure Event where
  now : Taia
  action : Action
  memory : Nat → Slot
  clk : Nat → Taia

/-- A batch on the blog's database. -/
def Event.change (e : Event) (queue : Cdbb → Cdbb) : M (Option Response) := do
  match ← cdbbStartMod e.memory dbFile with
  | none => return none
  | some a =>
      let _ ← cdbbApply e.clk (queue a)
      return none

section Run

variable (date : Httpdate) (leapsecs : List UInt64)

def Event.run (e : Event) : M (Option Response) :=
  match e.action with
  | .addEntry k v => e.change fun a => Bagunceiro.addEntry leapsecs e.now a k v
  | .modifyEntry k v => e.change fun a => Bagunceiro.modifyEntry e.now a k v
  | .deleteEntry k => e.change fun a => Bagunceiro.deleteEntry leapsecs e.now a k
  | .saveConfig conf => do
      let _ ← Bagunceiro.saveConfig e.memory e.clk conf
      return none
  | .printShow mod pk => do
      let response ← Bagunceiro.printShow date pk mod
      return some response

/-- The files after an event, also after one that is stopped. -/
def Event.after (e : Event) (fs : Fs) : Fs := (exec (e.run date leapsecs) fs).2

def Event.answer (e : Event) (fs : Fs) : Option Response :=
  match (exec (e.run date leapsecs) fs).1 with
  | .ok response => response
  | .error _ => none

end Run

/-! ## Pages -/

/-- What pages are made of. -/
structure Contents where
  /-- none when the database cannot be read -/
  entries : Option (List Record)
  title : List Bytes
  tagline : List Bytes
  searchbox : List Bytes
  deriving DecidableEq, Repr

def contentsOf (fs : Fs) : Contents where
  entries := (recordsAt fs dbFile).map fun recs => recs.filter (·.key ≠ dbLastModified)
  title := findAll (recordsAt fs confDb) confTitle
  tagline := findAll (recordsAt fs confDb) confTagline
  searchbox := findAll (recordsAt fs confDb) confSearchbox

/-- Whoever has a page's date and is told that it is not modified, has the page. -/
def Fresh (date : Httpdate) (leapsecs : List UInt64) (events : List Event) (fs : Fs) : Prop :=
  ∀ (i j : Nat) (earlier later : Event × Fs), i < j →
    (history (Event.after date leapsecs) events fs)[i]? = some earlier →
    (history (Event.after date leapsecs) events fs)[j]? = some later →
    ∀ d pk, earlier.1.answer date leapsecs earlier.2 = some (.page (some d)) →
      later.1.action = .printShow (some d) pk →
      later.1.answer date leapsecs later.2 = some .notModified →
      contentsOf later.2 = contentsOf earlier.2

/-! ## Conditions on an event -/

/-- The time of the last modification. -/
def Stamped (fs : Fs) (t : Taia) : Prop :=
  findAll (recordsAt fs dbFile) dbLastModified = [taiaPack t]

/-- The labels whose time is not zero and is all there in the bits that are taken. -/
def InTime (t : Taia) : Prop := 2 ^ 62 < t.sec.toNat ∧ t.sec.toNat < 2 ^ 62 + 2 ^ 44

/-- What is saved is what is there. -/
structure Resaves (conf : Blog) (page : Contents) : Prop where
  title : cstr conf.qry.title ≠ [] → page.title = [cstr conf.qry.title ++ [0]]
  tagline : page.tagline = [cstr conf.qry.tagline ++ [0]]
  searchbox : page.searchbox = [[conf.sbox]]

/-- The condition on an event and the state it finds: a configuration that is saved
changes nothing on a page, and a database that is looked at has a record of its last
modification, and none of the future. -/
structure Steady (e : Event) (fs : Fs) : Prop where
  clock : InTime e.now
  saves : ∀ conf, e.action = .saveConfig conf → Resaves conf (contentsOf fs)
  stamped : ∀ m pk, e.action = .printShow (some m) pk → fs.content dbFile = none ∨
    ∃ t, Stamped fs t ∧ InTime t ∧ t.sec ≤ e.now.sec

/-! ## One request -/

section Requests

variable {date : Httpdate} {fs : Fs} {t : Taia} {m : Bytes} {pk : Bytes}

theorem timeOf_eq (inTime : InTime t) : timeOf t = (t.sec.toNat : Int) - 2 ^ 62 := by
  obtain ⟨low, high⟩ := inTime
  have mask : (0xfffffffffff : UInt64).toNat = 2 ^ 44 - 1 := rfl
  rw [timeOf]
  rw [UInt64.toNat_and, mask, Nat.and_two_pow_sub_one_eq_mod]
  omega

theorem timeOf_nonneg (t : Taia) : 0 ≤ timeOf t := Int.natCast_nonneg _

theorem exec_httpIfModifiedSince_absent (absent : fs.content dbFile = none) (mod : Option Bytes) :
    exec (httpIfModifiedSince date pk mod) fs = (.ok (-1), fs) := by
  rw [exec, httpIfModifiedSince]
  rw [Prog.run_bind_ok handle (exec_openRead_absent absent)]
  rfl

/-- The record decides, whatever the buffer held. -/
theorem exec_httpIfModifiedSince_stamped (stamped : Stamped fs t) :
    exec (httpIfModifiedSince date pk (some m)) fs =
      (.ok (if timeOf t ≤ date.scan m then 0 else timeOf t), fs) := by
  rw [Stamped, recordsAt] at stamped
  cases holds : fs.content dbFile with
  | none =>
      rw [holds] at stamped
      cases stamped
  | some c =>
      rw [holds, Option.bind_some] at stamped
      obtain ⟨r, named, node⟩ := Fs.dir_of_content holds
      have read : exec (cdbbReadn r dbLastModified taiaPackSize) fs = (.ok (1, taiaPack t), fs) := by
        have file : exec (records r) fs = (.ok (fs.records r), fs) := rfl
        rw [exec, cdbbReadn]
        rw [Prog.run_bind_ok handle file, Fs.records_eq node, stamped]
        simp [taiaPackSize]
      rw [exec, httpIfModifiedSince]
      rw [Prog.run_bind_ok handle (exec_openRead named)]
      simp only
      rw [Prog.run_bind_ok handle read]
      simp only [taiaUnpack_taiaPack_append, httpIsModified, Option.any_some, true_and]
      by_cases older : timeOf t ≤ date.scan m
      · rw [if_pos older, if_pos (by simpa using older)]
        rfl
      · rw [if_neg older, if_neg (by simpa using older)]
        rfl

theorem exec_cdbbReadn_ok (r : Inode) (k : Bytes) (n : Nat) (fs : Fs) :
    ∃ read, exec (cdbbReadn r k n) fs = (.ok read, fs) := by
  have file : exec (records r) fs = (.ok (fs.records r), fs) := rfl
  rw [exec, cdbbReadn]
  rw [Prog.run_bind_ok handle file]
  split
  · exact ⟨_, rfl⟩
  · split
    · exact ⟨_, rfl⟩
    · exact ⟨_, rfl⟩

/-- A page leaves the files as they are. -/
theorem exec_printShow_state (mod : Option Bytes) : (exec (printShow date pk mod) fs).2 = fs := by
  cases mod with
  | none => rfl
  | some m =>
      have asked : ∃ t, exec (httpIfModifiedSince date pk (some m)) fs = (.ok t, fs) := by
        unfold exec httpIfModifiedSince
        cases named : fs.dir dbFile with
        | none =>
            have opened : exec (cdbbOpenRead dbFile) fs = (.ok none, fs) := by rw [← named]; rfl
            rw [Prog.run_bind_ok handle opened]
            exact ⟨_, rfl⟩
        | some r =>
            obtain ⟨read, found⟩ := exec_cdbbReadn_ok r dbLastModified taiaPackSize fs
            rw [Prog.run_bind_ok handle (exec_openRead named)]
            simp only
            rw [Prog.run_bind_ok handle found]
            split
            · exact ⟨_, rfl⟩
            · exact ⟨_, rfl⟩
      obtain ⟨t, ran⟩ := asked
      unfold exec printShow
      simp only
      rw [Prog.run_bind_ok handle ran]
      split
      · rfl
      · rfl

end Requests

/-! ## One change -/

section Changes

variable {fs : Fs}

theorem change_snd (e : Event) (batch : List Change) (fs : Fs) :
    (exec (e.change (queueAll batch [])) fs).2 =
      (exec (cdbbModify e.memory e.clk dbFile batch []) fs).2 := by
  have same : e.change (queueAll batch []) =
      (cdbbModify e.memory e.clk dbFile batch [] >>= fun _ => .ret none) := by
    unfold Event.change cdbbModify
    rw [Prog.bind_assoc]
    refine congrArg _ (funext fun opened => ?_)
    cases opened with
    | none => rfl
    | some a =>
        show _ = (cdbbApply e.clk _ >>= _) >>= _
        rw [Prog.bind_assoc]
        rfl
  rw [same]
  exact Prog.run_bind_snd handle (fun _ _ => rfl) fs

/-- **A change of an entry is stamped**, unless the database cannot be changed. -/
theorem stamped_of_change (e : Event) (before : List Change)
    (others : ∀ c ∈ before, c.key ≠ dbLastModified) (fs : Fs) :
    let fs' := (exec (e.change (queueAll (before ++ [modifiedChange e.now]) [])) fs).2
    fs'.content confDb = fs.content confDb ∧
      (fs'.content dbFile = fs.content dbFile ∨ Stamped fs' e.now) := by
  intro fs'
  obtain ⟨outcome, untouched⟩ :=
    exec_cdbbModify e.memory e.clk dbFile (before ++ [modifiedChange e.now]) [] fs
  have same : fs' = (exec (cdbbModify e.memory e.clk dbFile (before ++ [modifiedChange e.now]) []) fs).2 :=
    change_snd e _ fs
  rw [← same] at untouched
  refine ⟨untouched confDb (by decide) (by decide), ?_⟩
  have content := congrArg Prod.snd outcome
  simp only [← same] at content
  have member : Change.rep dbLastModified (taiaPack e.now) ∈ before ++ [modifiedChange e.now] :=
    List.mem_append_right _ List.mem_cons_self
  rcases modifyOutcome_of_rep e.memory [] e.clk member (fs.content dbFile) with kept | ⟨old, -, new⟩
  · exact .inl (content.trans kept)
  · right
    unfold Stamped recordsAt
    rw [content, new]
    exact findAll_newRecords_last e.memory [] e.clk (by decide) others old

/-- A value that is saved again. -/
theorem findAll_resaved (clk : Nat → Taia) {conf : Blog} {old : List Record} {k v : Bytes}
    (member : Change.rep k v ∈ saveChanges conf) (value : findAll (some old) k = [v]) :
    findAll (some (batchResult [] clk (saveChanges conf) old)) k = findAll (some old) k := by
  have values := findAll_batchResult_of_mem clk member (posed_saveChanges conf old).distinct old
  rw [key_rep] at values
  rw [values, value]
  simp [Change.onValues, Change.keepsValue, Change.adds]

/-- What a save leaves. -/
theorem exec_saveConfig_snd (memory : Nat → Slot) (clk : Nat → Taia) (conf : Blog) (fs : Fs) :
    let fs' := (exec (saveConfig memory clk conf) fs).2
    fs'.content dbFile = fs.content dbFile ∧ (fs'.content confDb = fs.content confDb ∨
      ∃ old, recordsAt fs confDb = some old ∧
        fs'.content confDb = some (.finished (batchResult [] clk (saveChanges conf) old))) := by
  intro fs'
  cases fits : takeOver conf with
  | error e =>
      have stopped : fs' = fs.started confDb := by
        show (exec (saveConfig memory clk conf) fs).2 = _
        rw [saveConfig_eq, fits]
        exact (Prog.run_bind_snd handle (fun _ _ => rfl) fs).trans
          (congrArg Prod.snd (exec_cdbbStartMod memory confDb fs))
      rw [stopped]
      exact ⟨Fs.content_started_ne (by decide), .inl (Fs.content_started_ne (by decide))⟩
  | ok saved =>
      have same : fs' = (exec (cdbbModify memory clk confDb (saveChanges conf) []) fs).2 := by
        show (exec (saveConfig memory clk conf) fs).2 = _
        rw [saveConfig_eq, fits]
        refine Prog.run_bind_snd handle (fun err _ => ?_) fs
        split <;> rfl
      obtain ⟨outcome, untouched⟩ := exec_cdbbModify memory clk confDb (saveChanges conf) [] fs
      have content := congrArg Prod.snd outcome
      simp only [← same] at untouched content
      refine ⟨untouched dbFile (by decide) (by decide), ?_⟩
      have member : Change.rep confSearchbox [conf.sbox] ∈ saveChanges conf := by
        simp [saveChanges]
      apply (modifyOutcome_of_rep memory [] clk member (fs.content confDb)).imp content.trans
      rintro ⟨old, holds, new⟩
      rw [newRecords_eq _ _ _ (posed_saveChanges conf old)] at new
      exact ⟨old, holds, content.trans new⟩

/-- **A configuration that is saved as it was** leaves the page as it was. -/
theorem contentsOf_resaved (memory : Nat → Slot) (clk : Nat → Taia) {conf : Blog}
    (resaves : Resaves conf (contentsOf fs)) :
    let fs' := (exec (saveConfig memory clk conf) fs).2
    fs'.content dbFile = fs.content dbFile ∧ contentsOf fs' = contentsOf fs := by
  intro fs'
  obtain ⟨blog, config⟩ := exec_saveConfig_snd memory clk conf fs
  refine ⟨blog, ?_⟩
  have entries : recordsAt fs' dbFile = recordsAt fs dbFile := recordsAt_congr blog
  rcases config with same | ⟨old, before, after⟩
  · have config : recordsAt fs' confDb = recordsAt fs confDb := recordsAt_congr same
    unfold contentsOf
    rw [entries, config]
  · have after : recordsAt fs' confDb = some (batchResult [] clk (saveChanges conf) old) :=
      recordsAt_of_content after
    obtain ⟨title, tagline, searchbox⟩ := resaves
    unfold contentsOf at title tagline searchbox ⊢
    simp only [before] at title tagline searchbox
    rw [entries, before, after]
    have keptTitle : findAll (some (batchResult [] clk (saveChanges conf) old)) confTitle =
        findAll (some old) confTitle := by
      by_cases some_ : cstr conf.qry.title = []
      · refine findAll_batchResult_of_notMem clk ?_ old
        unfold saveChanges
        rw [if_neg (not_not.2 some_), List.nil_append]
        split_ifs <;> simp <;> decide
      · exact findAll_resaved clk (by simp [saveChanges, some_]) (title some_)
    rw [keptTitle, findAll_resaved clk (by simp [saveChanges]) tagline,
      findAll_resaved clk (by simp [saveChanges]) searchbox]

end Changes

/-! ## From one response to a later one -/

section Later

variable {date : Httpdate} {leapsecs : List UInt64} {start fs : Fs} {sec : UInt64} {e : Event}

/-- What is as it was, and what has a later stamp. -/
structure Since (start : Fs) (sec : UInt64) (fs : Fs) : Prop where
  title : (contentsOf fs).title = (contentsOf start).title
  tagline : (contentsOf fs).tagline = (contentsOf start).tagline
  searchbox : (contentsOf fs).searchbox = (contentsOf start).searchbox
  blog : fs.content dbFile = start.content dbFile ∨ ∃ t, Stamped fs t ∧ InTime t ∧ sec < t.sec

theorem Since.refl (start : Fs) (sec : UInt64) : Since start sec start := ⟨rfl, rfl, rfl, .inl rfl⟩

theorem Since.contentsOf_eq (since : Since start sec fs)
    (same : fs.content dbFile = start.content dbFile) : contentsOf fs = contentsOf start := by
  have entries : (contentsOf fs).entries = (contentsOf start).entries := by
    unfold contentsOf recordsAt
    rw [same]
  exact Contents.mk.injEq .. ▸ ⟨entries, since.title, since.tagline, since.searchbox⟩

theorem stamped_congr {fs' : Fs} (same : fs'.content dbFile = fs.content dbFile) (t : Taia) :
    Stamped fs' t ↔ Stamped fs t := by
  unfold Stamped recordsAt
  rw [same]

/-- A change of an entry has the stamp of its own time. -/
theorem Since.change (since : Since start sec fs) (inTime : InTime e.now) (later : sec < e.now.sec)
    (before : List Change) (others : ∀ c ∈ before, c.key ≠ dbLastModified) :
    Since start sec (exec (e.change (queueAll (before ++ [modifiedChange e.now]) [])) fs).2 := by
  obtain ⟨config, blog⟩ := stamped_of_change e before others fs
  have kept : recordsAt (exec (e.change (queueAll (before ++ [modifiedChange e.now]) [])) fs).2 confDb =
      recordsAt fs confDb := by
    unfold recordsAt
    rw [config]
  refine ⟨?_, ?_, ?_, ?_⟩
  · exact (congrArg (findAll · confTitle) kept).trans since.title
  · exact (congrArg (findAll · confTagline) kept).trans since.tagline
  · exact (congrArg (findAll · confSearchbox) kept).trans since.searchbox
  · rcases blog with same | stamped
    · apply since.blog.imp same.trans
      rintro ⟨t, stamped, rest⟩
      exact ⟨t, (stamped_congr same t).2 stamped, rest⟩
    · exact .inr ⟨e.now, stamped, inTime, later⟩

theorem after_change {queue : Cdbb → Cdbb} {batch : List Change}
    (ran : e.run date leapsecs = e.change queue) (queued : ∀ a, queue a = queueAll batch [] a) :
    e.after date leapsecs fs = (exec (e.change (queueAll batch [])) fs).2 := by
  rw [Event.after, ran, funext queued]

theorem after_printShow {mod : Option Bytes} {pk : Bytes} (action : e.action = .printShow mod pk) :
    e.after date leapsecs fs = fs := by
  rw [Event.after, Event.run]
  rw [action]
  exact (Prog.run_bind_snd handle (fun _ _ => rfl) fs).trans (exec_printShow_state mod)

theorem after_saveConfig {conf : Blog} (action : e.action = .saveConfig conf) :
    e.after date leapsecs fs = (exec (saveConfig e.memory e.clk conf) fs).2 := by
  rw [Event.after, Event.run]
  rw [action]
  exact Prog.run_bind_snd handle (fun _ _ => rfl) fs

theorem key_ne_dbLastModified {k : Taia} : taiaPack k ≠ dbLastModified := by
  intro same
  have length := congrArg List.length same
  rw [length_taiaPack] at length
  exact absurd length (by decide)

/-- **A steady event keeps what is as it was**, or leaves a later stamp. -/
theorem Since.after (since : Since start sec fs) (steady : Steady e fs) (later : sec < e.now.sec) :
    Since start sec (e.after date leapsecs fs) := by
  cases action : e.action with
  | addEntry k v =>
      rw [after_change (by rw [Event.run, action]) fun a => addEntry_eq leapsecs e.now a k v]
      refine since.change steady.clock later
        [.add (taiaPack k) v, .add (fmtDayIdx leapsecs k) (taiaPack k)] ?_
      refine List.forall_mem_cons.2 ⟨(key_add _ _).trans_ne key_ne_dbLastModified, ?_⟩
      refine List.forall_mem_singleton.2 ((key_add _ _).trans_ne ?_)
      exact fmtDayIdx_ne_dbLastModified leapsecs k
  | modifyEntry k v =>
      rw [after_change (by rw [Event.run, action]) fun a => modifyEntry_eq e.now a k v]
      apply since.change steady.clock later [.mod (taiaPack k) v]
      exact List.forall_mem_singleton.2 ((key_mod _ _).trans_ne key_ne_dbLastModified)
  | deleteEntry k =>
      rw [after_change (by rw [Event.run, action]) fun a => deleteEntry_eq leapsecs e.now a k]
      refine since.change steady.clock later
        [.del (taiaPack k), .delVal (fmtDayIdx leapsecs k) (taiaPack k)] ?_
      refine List.forall_mem_cons.2 ⟨(key_del _).trans_ne key_ne_dbLastModified, ?_⟩
      refine List.forall_mem_singleton.2 ((key_delVal _ _).trans_ne ?_)
      exact fmtDayIdx_ne_dbLastModified leapsecs k
  | saveConfig conf =>
      rw [after_saveConfig action]
      obtain ⟨blog, page⟩ := contentsOf_resaved e.memory e.clk (steady.saves conf action)
      refine ⟨?_, ?_, ?_, ?_⟩
      · exact (congrArg Contents.title page).trans since.title
      · exact (congrArg Contents.tagline page).trans since.tagline
      · exact (congrArg Contents.searchbox page).trans since.searchbox
      · apply since.blog.imp blog.trans
        rintro ⟨t, stamped, rest⟩
        exact ⟨t, (stamped_congr blog t).2 stamped, rest⟩
  | printShow mod pk =>
      rw [after_printShow action]
      exact since

/-! ## Answers -/

theorem silent_change (e : Event) (queue : Cdbb → Cdbb) :
    Prog.Ensures handle (fun _ => True) (e.change queue) (fun r _ => r = none) (fun _ => True) := by
  rw [Event.change]
  refine (Ensures.any _).bind fun opened => ?_
  cases opened with
  | none => exact Ensures.ret fun _ _ => rfl
  | some a => exact (Ensures.any _).bind fun _ => Ensures.ret fun _ _ => rfl

theorem answer_of_silent (silent : Prog.Ensures handle (fun _ => True) (e.run date leapsecs)
    (fun r _ => r = none) (fun _ => True)) (fs : Fs) : e.answer date leapsecs fs = none := by
  rw [Event.answer]
  cases ran : exec (e.run date leapsecs) fs with
  | mk result t =>
      cases result with
      | ok r => exact silent.of_ok True.intro ran
      | error fault => rfl

/-- Who asks with a date gets a page with one, or is told that it is not modified. -/
theorem answer_printShow {m pk : Bytes} {t : Int} (action : e.action = .printShow (some m) pk)
    (asked : exec (httpIfModifiedSince date pk (some m)) fs = (.ok t, fs)) :
    e.answer date leapsecs fs =
      some (if t ≠ 0 then .page (some (date.fmt t)) else .notModified) := by
  have shown : exec (e.run date leapsecs) fs =
      (.ok (some (if t ≠ 0 then .page (some (date.fmt t)) else .notModified)), fs) := by
    unfold exec Event.run printShow
    rw [action]
    simp only
    rw [Prog.bind_assoc, Prog.run_bind_ok handle asked]
    split
    · rfl
    · rfl
  unfold Event.answer
  rw [shown]

/-- A date goes out with a page that was asked for with one. -/
theorem asked_of_dated {d : Bytes} (answered : e.answer date leapsecs fs = some (.page (some d))) :
    ∃ m pk, e.action = .printShow (some m) pk := by
  have unasked (silent : Prog.Ensures handle (fun _ => True) (e.run date leapsecs)
      (fun r _ => r = none) (fun _ => True)) : False := by
    rw [answer_of_silent silent] at answered
    cases answered
  cases action : e.action with
  | addEntry k v =>
      exact (unasked (by rw [Event.run, action]; exact silent_change e _)).elim
  | modifyEntry k v =>
      exact (unasked (by rw [Event.run, action]; exact silent_change e _)).elim
  | deleteEntry k =>
      exact (unasked (by rw [Event.run, action]; exact silent_change e _)).elim
  | saveConfig conf =>
      refine (unasked ?_).elim
      rw [Event.run, action]
      exact (Ensures.any _).bind fun _ => Ensures.ret fun _ _ => rfl
  | printShow mod pk =>
      cases mod with
      | some m => exact ⟨m, pk, rfl⟩
      | none =>
          have undated : e.answer date leapsecs fs = some (.page none) := by
            rw [Event.answer, Event.run]
            rw [action]
            rfl
          rw [undated] at answered
          cases answered

/-! ## Every run -/

/-- The time that goes out with a page. -/
theorem sent_of_dated {d : Bytes} (steady : Steady e fs)
    (answered : e.answer date leapsecs fs = some (.page (some d))) :
    ∃ sent, d = date.fmt sent ∧ ∀ t, InTime t → e.now.sec < t.sec → sent < timeOf t := by
  obtain ⟨m, pk, action⟩ := asked_of_dated answered
  rcases steady.stamped m pk action with absent | ⟨u, stamped, inTime, past⟩
  · rw [answer_printShow action (exec_httpIfModifiedSince_absent absent _)] at answered
    refine ⟨-1, ?_, fun t _ _ => ?_⟩
    · simpa using answered.symm
    · have nonneg := timeOf_nonneg t
      omega
  · rw [answer_printShow action (exec_httpIfModifiedSince_stamped stamped)] at answered
    by_cases older : timeOf u ≤ date.scan m
    · simp [if_pos older] at answered
    · simp only [if_neg older] at answered
      split at answered
      · refine ⟨timeOf u, ?_, fun t soon less => ?_⟩
        · simpa using answered.symm
        · rw [timeOf_eq inTime, timeOf_eq soon]
          have before := UInt64.le_iff_toNat_le.1 past
          have after := UInt64.lt_iff_toNat_lt.1 less
          omega
      · simp at answered

/-- **In a run of steady events, a page that is not modified is the one that was
sent.** -/
theorem not_modified_is_fresh (date : Httpdate) (inverts : ∀ t, date.scan (date.fmt t) = t)
    (leapsecs : List UInt64) (events : List Event) (fs : Fs)
    (clock : events.Pairwise fun e f => e.now.sec < f.now.sec)
    (steady : ∀ m ∈ history (Event.after date leapsecs) events fs, Steady m.1 m.2) :
    Fresh date leapsecs events fs := by
  intro i j earlier later less first last d pk answered asks told
  obtain ⟨sent, rfl, newer⟩ := sent_of_dated (steady earlier (List.mem_of_getElem? first)) answered
  have since : Since earlier.2 earlier.1.now.sec later.2 := by
    apply history_later _ (Since earlier.2 earlier.1.now.sec) less first last
    · obtain ⟨m, pk, action⟩ := asked_of_dated answered
      rw [after_printShow action]
      exact .refl _ _
    · intro k z more found kept
      exact kept.after (steady z (List.mem_of_getElem? found))
        (history_pairwise _ clock more first found)
  rcases since.blog with same | ⟨t, stamped, inTime, after⟩
  · exact since.contentsOf_eq same
  · rw [answer_printShow asks (exec_httpIfModifiedSince_stamped stamped), inverts] at told
    have modified := newer t inTime after
    have time := timeOf_eq inTime
    have positive := inTime.1
    have newer : ¬ timeOf t ≤ sent := by omega
    have some_ : timeOf t ≠ 0 := by omega
    rw [if_neg newer, if_pos some_] at told
    cases told

/-- Any save that changes a page goes unnoticed. -/
theorem not_fresh_of_save {events : List Event} {t : Taia} {m pk pk' : Bytes} {conf : Blog}
    {first saves second : Event} (inverts : ∀ t, date.scan (date.fmt t) = t)
    (stamped : Stamped fs t) (inTime : InTime t) (old : date.scan m < timeOf t)
    (asks : first.action = .printShow (some m) pk) (saved : saves.action = .saveConfig conf)
    (returns : second.action = .printShow (some (date.fmt (timeOf t))) pk')
    (changed : contentsOf (exec (saveConfig saves.memory saves.clk conf) fs).2 ≠ contentsOf fs)
    (run : events = [first, saves, second]) : ¬ Fresh date leapsecs events fs := by
  intro fresh
  subst run
  have time := timeOf_eq inTime
  have positive := inTime.1
  have some_ : timeOf t ≠ 0 := by omega
  have sent : first.answer date leapsecs fs = some (.page (some (date.fmt (timeOf t)))) := by
    rw [answer_printShow asks (exec_httpIfModifiedSince_stamped stamped), if_neg (not_le.2 old),
      if_pos some_]
  have kept := (stamped_congr (exec_saveConfig_snd saves.memory saves.clk conf fs).1 t).2 stamped
  have told : second.answer date leapsecs (exec (saveConfig saves.memory saves.clk conf) fs).2 =
      some .notModified := by
    rw [answer_printShow returns (exec_httpIfModifiedSince_stamped kept), inverts,
      if_pos (le_refl _), if_neg (not_not.2 rfl)]
  have states : (history (Event.after date leapsecs) [first, saves, second] fs)[2]? =
      some (second, (exec (saveConfig saves.memory saves.clk conf) fs).2) := by
    simp only [history, List.getElem?_cons_succ, List.getElem?_cons_zero]
    rw [after_printShow asks, after_saveConfig saved]
  exact changed (fresh 0 2 (first, fs)
    (second, (exec (saveConfig saves.memory saves.clk conf) fs).2) (by decide) rfl states _ _ sent
    returns told)

end Later

/-! ## A run -/

/-- The dates of two moments as they are written, and some text for all others. -/
def httpdateSample : Httpdate where
  fmt t :=
    if t = 0 then str "Thu, 01 Jan 1970 00:00:00 GMT"
    else if t = 0x4c31ef0f then str "Mon, 05 Jul 2010 14:41:19 GMT"
    else (if t < 0 then 0 else 1) :: List.replicate t.natAbs 0
  scan lm :=
    if lm = str "Thu, 01 Jan 1970 00:00:00 GMT" then 0
    else if lm = str "Mon, 05 Jul 2010 14:41:19 GMT" then 0x4c31ef0f
    else if lm.head? = some 0 then -((lm.length : Int) - 1)
    else (lm.length : Int) - 1

theorem httpdateSample_inverts (t : Int) : httpdateSample.scan (httpdateSample.fmt t) = t := by
  rw [httpdateSample]
  simp only
  by_cases epoch : t = 0
  · subst epoch
    rfl
  rw [if_neg epoch]
  by_cases modified : t = 0x4c31ef0f
  · subst modified
    decide
  rw [if_neg modified]
  have notDate (rest : Bytes) (sign : UInt8) (low : sign = 0 ∨ sign = 1) (date : Bytes)
      (letter : date.head? = some 84 ∨ date.head? = some 77) : sign :: rest ≠ date := by
    rintro rfl
    rcases low with rfl | rfl <;> simp at letter
  by_cases negative : t < 0
  · rw [if_pos negative, if_neg (notDate _ 0 (.inl rfl) _ (.inl rfl)),
      if_neg (notDate _ 0 (.inl rfl) _ (.inr rfl)), if_pos List.head?_cons, List.length_cons,
      List.length_replicate]
    omega
  · rw [if_neg negative, if_neg (notDate _ 1 (.inr rfl) _ (.inl rfl)),
      if_neg (notDate _ 1 (.inr rfl) _ (.inr rfl)), List.head?_cons,
      if_neg (by decide : ¬ some (1 : UInt8) = some 0), List.length_cons, List.length_replicate]
    omega

/-- A blog with a title, changed on the fifth of July 2010. -/
def titled : Fs :=
  (Fs.empty.install confDb (.finished [⟨confTitle, str "Blog" ++ [0]⟩, ⟨confTagline, [0]⟩,
    ⟨confSearchbox, [110]⟩])).install dbFile
      (.finished [⟨dbLastModified, taiaPack ⟨0x400000004c31ef0f, 0, 0⟩⟩])

/-- A page, the title saved, and the page again. -/
def titleRun (title : Bytes) : List Event :=
  let event (sec : UInt64) (action : Action) : Event :=
    ⟨⟨sec, 0, 0⟩, action, fun _ => ⟨0, 0, fun _ => 0⟩, fun _ => ⟨sec, 0, 0⟩⟩
  [event 0x400000004c31f000 (.printShow (some (str "Thu, 01 Jan 1970 00:00:00 GMT")) (zeros 16)),
    event 0x400000004c31f001 (.saveConfig (configForm title [] 110)),
    event 0x400000004c31f002 (.printShow (some (str "Mon, 05 Jul 2010 14:41:19 GMT")) (zeros 16))]

theorem titled_stamped : Stamped titled ⟨0x400000004c31ef0f, 0, 0⟩ := by
  rw [Stamped, titled, recordsAt]
  rw [Fs.content_install_self]
  rfl

theorem titled_contents : contentsOf titled =
    ⟨some [], [str "Blog" ++ [0]], [[0]], [[110]]⟩ := by
  decide +kernel

theorem Steady.of_show {e : Event} {fs : Fs} {mod : Option Bytes} {pk : Bytes} {t : Taia}
    (action : e.action = .printShow mod pk) (clock : InTime e.now) (stamped : Stamped fs t)
    (inTime : InTime t) (past : t.sec ≤ e.now.sec) : Steady e fs where
  clock := clock
  saves conf save := by
    rw [action] at save
    cases save
  stamped _ _ _ := .inr ⟨t, stamped, inTime, past⟩

theorem Steady.of_save {e : Event} {fs : Fs} {conf : Blog} (action : e.action = .saveConfig conf)
    (clock : InTime e.now) (resaves : Resaves conf (contentsOf fs)) : Steady e fs where
  clock := clock
  saves conf' save := by
    rw [action] at save
    cases save
    exact resaves
  stamped _ _ shown := by
    rw [action] at shown
    cases shown

/-- The title is saved as it is. -/
theorem not_modified_is_fresh_sample :
    Fresh httpdateSample [] (titleRun (str "Blog")) titled := by
  refine not_modified_is_fresh httpdateSample httpdateSample_inverts [] (titleRun (str "Blog")) titled
    (by decide) ?_
  have modified : InTime ⟨0x400000004c31ef0f, 0, 0⟩ := ⟨by decide, by decide⟩
  have resaves : Resaves (configForm (str "Blog") [] 110) (contentsOf titled) := by
    rw [titled_contents]
    exact ⟨fun _ => by decide, by decide, rfl⟩
  intro m member
  simp only [titleRun, history, List.mem_cons, List.not_mem_nil, or_false] at member
  rw [after_printShow rfl, after_saveConfig rfl] at member
  rcases member with rfl | rfl | rfl
  · exact .of_show rfl ⟨by decide, by decide⟩ titled_stamped modified (by decide)
  · exact .of_save rfl ⟨by decide, by decide⟩ resaves
  · exact .of_show rfl ⟨by decide, by decide⟩
      ((stamped_congr (contentsOf_resaved _ _ resaves).1 _).2 titled_stamped) modified (by decide)

/-- Another title is saved. -/
theorem new_title_is_not_sent :
    ¬ ∀ (date : Httpdate) (leapsecs : List UInt64) (events : List Event) (fs : Fs),
      (∀ t, date.scan (date.fmt t) = t) → (events.Pairwise fun e f => e.now.sec < f.now.sec) →
      Fresh date leapsecs events fs := by
  intro claim
  refine not_fresh_of_save (t := ⟨0x400000004c31ef0f, 0, 0⟩) httpdateSample_inverts titled_stamped
    ⟨by decide, by decide⟩ (by decide) rfl rfl rfl ?_ rfl
    (claim httpdateSample [] (titleRun (str "News")) titled httpdateSample_inverts (by decide))
  decide +kernel

end Bagunceiro
