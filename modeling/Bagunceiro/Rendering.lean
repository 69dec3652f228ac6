/-
# Rendering -- the accesses of a feed to its entries (`day_entries_rss`)

A feed hands the text of an entry to `html_remove_tags` without a length, and a
buffer that is as long as the text.  Here every access has its index, and one
behind the end is an error: there is none exactly when the text has a terminator
(`removeTagsIn_eq`).  What is shown is made of records of the database
(`shows_fetchShown`), and these come from the requests and commands before.
-/
import Bagunceiro.Dangling
import Bagunceiro.MonthView
import Bagunceiro.Origins
import Bagunceiro.Search
import Bagunceiro.Stripping
import Bagunceiro.Week

namespace Bagunceiro

open Effect

set_option autoImplicit false

/-! ## Accesses -/

/-- An access that is none to the text or to the buffer. -/
inductive Outside
  | read (l : Nat)
  | write (i : Nat)
  deriving DecidableEq, Repr

/-- What an `int` counts: behind that the index is no longer one. -/
def intRange : Nat := 2 ^ 31

/-- `fmt[i] = c`, in a buffer of `size` bytes, and what is written next. -/
def putByte (size i : Nat) (c : UInt8) (rest : Except Outside Bytes) : Except Outside Bytes :=
  if i < size then rest.map (c :: ·) else .error (.write i)

/-- `html_remove_tags` from the index `l` of the text on, up to which `i` bytes are
written: what it writes to the buffer.  Its length is no limit: it is -1. -/
def removeTagsIn (range size : Nat) : Nat → Nat → Nat → Bool → Bool → Bytes → Except Outside Bytes
  | l, _, _, _, _, [] => .error (.read l)
  | l, i, tagopen, andopen, ws, c :: s =>
      if range ≤ l then .error (.read l)
      else if c = 0 then putByte size i 0 (.ok [])
      else if c = 60 then removeTagsIn range size (l + 1) i (tagopen + 1) andopen ws s
      else if c = 62 ∧ tagopen ≠ 0 then removeTagsIn range size (l + 1) i 0 andopen ws s
      else if c = 38 then removeTagsIn range size (l + 1) i tagopen true ws s
      else if c = 59 ∧ andopen then removeTagsIn range size (l + 1) i tagopen false ws s
      else if tagopen = 0 ∧ ¬ andopen then
        if c = 10 ∨ c = 13 ∨ c = 32 then
          if ws then removeTagsIn range size (l + 1) i tagopen andopen ws s
          else putByte size i 32 (removeTagsIn range size (l + 1) (i + 1) tagopen andopen true s)
        else putByte size i c (removeTagsIn range size (l + 1) (i + 1) tagopen andopen false s)
      else removeTagsIn range size (l + 1) i tagopen andopen ws s

/-- `html_remove_tags(e->e.p, -1, cnt)`, where `cnt` is as long as the text. -/
def entryStripped (e : Nentry) : Except Outside Bytes :=
  removeTagsIn intRange e.e.length 0 0 0 false false e.e

theorem putByte_of_lt {size i : Nat} (inside : i < size) (c : UInt8) (rest : Except Outside Bytes) :
    putByte size i c rest = rest.map (c :: ·) := if_pos inside

/-- As long as the buffer has room for all of the text, it is the reads that decide:
up to the terminator they are inside, and without one they are not. -/
theorem removeTagsIn_eq (range size : Nat) : ∀ (s : Bytes) (l i tagopen : Nat) (andopen ws : Bool),
    i + s.length ≤ size → removeTagsIn range size l i tagopen andopen ws s =
      if (0 : UInt8) ∈ s.take (range - l) then .ok ((removeTags tagopen andopen ws (cstr s)).1 ++ [0])
      else .error (.read (l + min s.length (range - l)))
  | [], l, i, tagopen, andopen, ws, room => by
      simp [removeTagsIn]
  | c :: s, l, i, tagopen, andopen, ws, room => by
      rw [List.length_cons] at room
      by_cases beyond : range ≤ l
      · simp [removeTagsIn, beyond, Nat.sub_eq_zero_of_le beyond]
      · have ahead : range - l = range - (l + 1) + 1 := by omega
        by_cases zero : c = 0
        · simp [removeTagsIn, beyond, zero, ahead, putByte_of_lt (show i < size by omega), removeTags,
            cstr, Except.map]
        · have text : cstr (c :: s) = c :: cstr s := by simp [cstr, zero]
          have last : l + min (c :: s).length (range - l) =
              l + 1 + min s.length (range - (l + 1)) := by
            rw [List.length_cons]
            omega
          have same := fun tagopen andopen ws =>
            removeTagsIn_eq range size s (l + 1) i tagopen andopen ws (by omega)
          have next := fun tagopen andopen ws =>
            removeTagsIn_eq range size s (l + 1) (i + 1) tagopen andopen ws (by omega)
          rw [last, ahead, text]
          simp only [removeTagsIn, removeTags, beyond, zero, List.take_succ_cons, List.mem_cons,
            Ne.symm zero, false_or, if_false, putByte_of_lt (show i < size by omega), same, next]
          by_cases terminated : (0 : UInt8) ∈ s.take (range - (l + 1))
          · simp only [terminated, if_true]
            split_ifs <;> simp [Except.map]
          · simp only [terminated, if_false]
            split_ifs <;> simp [Except.map]

/-- What stands in front of the first terminator is what `Stripping` is about. -/
theorem entryStripped_eq (e : Nentry) :
    entryStripped e =
      if (0 : UInt8) ∈ e.e.take intRange then .ok ((htmlRemoveTags (cstr e.e)).1 ++ [0])
      else .error (.read (min e.e.length intRange)) := by
  rw [entryStripped, removeTagsIn_eq _ _ _ _ _ _ _ _ (by omega), Nat.sub_zero, Nat.zero_add]
  rfl

/-- Rendering the entry reads nothing but its text, and writes to nothing but the
buffer. -/
def Within (e : Nentry) : Prop := ∃ fmt, entryStripped e = .ok fmt

theorem zero_mem_take_iff (n : Nat) (s : Bytes) :
    (0 : UInt8) ∈ s.take n ↔ (0 : UInt8) ∈ s ∧ (cstr s).length < n := by
  induction s generalizing n with
  | nil => simp
  | cons c s ih =>
      cases n with
      | zero => simp
      | succ n =>
          by_cases zero : c = 0
          · simp [zero, cstr]
          · have text : cstr (c :: s) = c :: cstr s := by simp [cstr, zero]
            rw [List.take_succ_cons, List.mem_cons, List.mem_cons, ih, text, List.length_cons,
              Nat.succ_lt_succ_iff]
            simp only [Ne.symm zero, false_or]

theorem within_iff (e : Nentry) :
    Within e ↔ (0 : UInt8) ∈ e.e ∧ (cstr e.e).length < intRange := by
  rw [Within, entryStripped_eq, ← zero_mem_take_iff]
  by_cases terminated : (0 : UInt8) ∈ e.e.take intRange
  · simp [terminated]
  · simp [terminated]

/-! ## Terminators -/

/-- A value was given, or some input. -/
def GivesValue (options : List CmdOption) (stdin : Bytes) : Prop :=
  (∃ v, CmdOption.v v ∈ options) ∨ CmdOption.i ∈ options ∧ stdin ≠ []

/-- A value was given, or input with a terminator in it. -/
def GivesZero (options : List CmdOption) (stdin : Bytes) : Prop :=
  (∃ v, CmdOption.v v ∈ options) ∨ CmdOption.i ∈ options ∧ (0 : UInt8) ∈ stdin

/-- Whether a text is stored with a terminator: a form has to have one, and on the
command line it depends on what is done. -/
def Write.Terminates : Write → Prop
  | .request req _ => (postInput.value req).isSome
  | .command env options =>
      ∃ cmd, Cmd.parse env.sha256 options (Cmd.start env.skey env.stdin) = .ok cmd ∧
        match cmd.action, cmd.mode with
        | .addNow, .taia => GivesValue options env.stdin
        | .add, .taia => GivesValue options env.stdin
        | .add, .plain => GivesZero options env.stdin
        | .mod, .taia => GivesZero options env.stdin
        | .mod, .plain => True
        | _, _ => False

theorem zero_mem_formText_iff (req : HttpRequest) :
    (0 : UInt8) ∈ formText req ↔ (postInput.value req).isSome := by
  rw [formText]
  cases postInput.value req with
  | none => simp
  | some v => simp

section Command

variable {env : CmdEnv} {options : List CmdOption} {cmd : Cmd}

theorem value_ne_nil_iff
    (parsed : Cmd.parse env.sha256 options (Cmd.start env.skey env.stdin) = .ok cmd) :
    cmd.value ≠ [] ↔ GivesValue options env.stdin := by
  have bytes := Cmd.parse_value env.sha256 (P := fun _ => True) True.intro parsed
  simpa [Cmd.start, GivesValue, List.eq_nil_iff_forall_not_mem] using bytes

theorem zero_mem_value_iff
    (parsed : Cmd.parse env.sha256 options (Cmd.start env.skey env.stdin) = .ok cmd) :
    (0 : UInt8) ∈ cmd.value ↔ GivesZero options env.stdin := by
  have bytes := Cmd.parse_value env.sha256 (P := (· = 0)) rfl parsed
  simpa [Cmd.start, GivesZero] using bytes

theorem zero_mem_string : (0 : UInt8) ∈ cmd.string env := by simp [Cmd.string]

theorem zero_mem_text_iff : (0 : UInt8) ∈ cmd.text env ↔ cmd.mode = .taia ∧ cmd.value ≠ [] := by
  rw [Cmd.text]
  split
  · rename_i text
    exact iff_of_true zero_mem_string text
  · rename_i noText
    exact iff_of_false (by simp) noText

/-- What a command stores, by what it does and its mode. -/
theorem zero_mem_record_iff
    (parsed : Cmd.parse env.sha256 options (Cmd.start env.skey env.stdin) = .ok cmd) {r : Record}
    (is : cmd.record env = some r) :
    (0 : UInt8) ∈ r.value ↔
      match cmd.action, cmd.mode with
      | .addNow, .taia => GivesValue options env.stdin
      | .add, .taia => GivesValue options env.stdin
      | .add, .plain => GivesZero options env.stdin
      | .mod, .taia => GivesZero options env.stdin
      | .mod, .plain => True
      | _, _ => False := by
  have value := value_ne_nil_iff parsed
  have zero := zero_mem_value_iff parsed
  rw [Cmd.record] at is
  cases action : cmd.action with
  | addNow =>
      rw [action] at is
      cases is
      rw [zero_mem_text_iff, value]
      cases mode : cmd.mode with
      | taia => exact and_iff_right rfl
      | plain => exact iff_of_false (fun text => CmdMode.noConfusion text.1) id
  | add =>
      cases mode : cmd.mode with
      | taia =>
          simp only [action, mode, if_true] at is
          cases is
          rw [zero_mem_text_iff, value]
          exact and_iff_right mode
      | plain =>
          simp only [action, mode, reduceCtorEq, if_false] at is
          cases is
          exact zero
  | mod =>
      cases mode : cmd.mode with
      | taia =>
          simp only [action, mode, if_true] at is
          cases is
          exact zero
      | plain =>
          simp only [action, mode, reduceCtorEq, if_false] at is
          cases is
          exact iff_of_true zero_mem_string True.intro
  | _ =>
      rw [action] at is
      cases is

end Command

/-- **What is stored as a text has a terminator exactly when it was given one.** -/
theorem Write.terminates_iff {w : Write} {r : Record} (is : w.record = some r) :
    (0 : UInt8) ∈ r.value ↔ w.Terminates := by
  cases w with
  | request req s =>
      rw [Write.Terminates, ← zero_mem_formText_iff]
      rw [Write.record, HttpRequest.record] at is
      split at is
      · cases is
        rfl
      · cases is
        rfl
      · cases is
  | command env options =>
      rw [Write.record] at is
      split at is
      · rename_i cmd parsed
        rw [Write.Terminates]
        simp only [parsed, Except.ok.injEq, exists_eq_left']
        exact zero_mem_record_iff parsed is
      · cases is

/-! ## What a feed shows -/

/-- An entry as a feed shows it, and the records it is made of: those of a key that
was looked up, which may be none, or one that a search has hit. -/
inductive Rendered (recs : List Record) : Nentry → List Record → Prop
  | lookedUp (k : Bytes) : Rendered recs (readEntry (some recs) k) (recs.filter (·.key = k))
  | hit {r : Record} (member : r ∈ recs) : Rendered recs ⟨r.value, r.key⟩ [r]

/-- What a result has is made of the records of the file. -/
def Renders (recs : List Record) (res : Result) : Prop :=
  ∀ day ∈ res, ∀ e ∈ day.es, ∃ parts, Rendered recs e parts

section Rendered

variable {recs parts : List Record} {e : Nentry}

theorem Rendered.part (rendered : Rendered recs e parts) {r : Record} (inside : r ∈ parts) :
    r ∈ recs ∧ r.key = e.k := by
  cases rendered with
  | lookedUp k => simpa [readEntry] using inside
  | hit member =>
      rw [List.mem_singleton] at inside
      subst inside
      exact ⟨member, rfl⟩

theorem Rendered.zero_mem_iff (rendered : Rendered recs e parts) :
    (0 : UInt8) ∈ e.e ↔ ∃ r ∈ parts, (0 : UInt8) ∈ r.value := by
  cases rendered with
  | lookedUp k => simp [readEntry, findAll, and_assoc]
  | hit member => simp

theorem Renders.append {res res' : Result} (renders : Renders recs res)
    (renders' : Renders recs res') : Renders recs (res ++ res') := by
  intro day inside
  rcases List.mem_append.1 inside with before | added
  · exact renders day before
  · exact renders' day added

theorem renders_nil : Renders recs [] := fun _ inside => absurd inside List.not_mem_nil

end Rendered

/-- `fetch_entry_ts`; whether there is an entry is not asked. -/
def fetchEntryTs (leapsecs : List UInt64) (left : Bytes) (conf : Blog) (res : Result) :
    M (Int × Result) := do
  match ← cdbbOpenRead dbFile with
  | none => return (-1, res)
  | some a =>
      let k := scanTimeHex left conf.qry.ts
      let (_, e) ← showEntry a k ⟨[], []⟩
      return (0, res ++ [{ time := caltimeUtc leapsecs k.sec, es := [e] }])

/-- The branch of `handle_query` that shows: its `switch` over the query.  The days of a
search have still to be sorted. -/
def fetchShown (leapsecs : List UInt64) (left : Bytes) (memory : Nat → Beyond) (conf : Blog) :
    M (Option Result) :=
  match conf.qry.type with
  | .qryWeek => do
      let (_, _, res) ← fetchWeek leapsecs 100 0 conf []
      return some res
  | .qryTs => do
      let (_, res) ← fetchEntryTs leapsecs left conf []
      return some res
  | .qryFind => do
      let (_, res) ← fetchEntryQuery leapsecs memory conf []
      return some res
  | .qryTag => do
      let (_, res) ← fetchEntryTag leapsecs memory conf []
      return some res
  | .qryMonth => do
      let (_, _, res) ← fetchEntriesMonth leapsecs conf []
      return some res
  | .qryNone => return none

/-- What `handle_query` prints the entries of.  After what is posted, deleted or
logged out it fetches a single window; the other branches print a form. -/
def fetchPage (leapsecs : List UInt64) (left : Bytes) (memory : Nat → Beyond) (action : Qaction)
    (conf : Blog) : M (Option Result) :=
  match action with
  | .qaShow => fetchShown leapsecs left memory conf
  | .qaAddPost | .qaDelete | .qaModifyPost | .qaConfigPost | .qaLogout => do
      let (_, res) ← fetchEntriesDays leapsecs conf []
      return some res
  | .qaAdd | .qaModify | .qaConfig | .qaLogin => return none

/-- One round of the request loop: the server it leaves, and the entries of its page. -/
def servePage (memory : Nat → Beyond) (req : HttpRequest) (s : Server) :
    M (Server × Option Result) := do
  let parsed ← parseRequest req s
  let final ← handleQuery req parsed
  let page ← fetchPage req.leapsecs req.left memory (branch parsed) final.conf
  return (final, page)

/-- A program that reads the file and whose result is made of its records. -/
def Shows (recs : List Record) {α : Type} (result : α → Result) (p : M α) : Prop :=
  Prog.Ensures handle (fun fs => fs.content dbFile = some (.finished recs)) p
    (fun a fs => fs.content dbFile = some (.finished recs) ∧ Renders recs (result a)) (fun _ => True)

section Shows

variable {recs : List Record} {α β : Type} {result : α → Result} {result' : β → Result}

theorem Shows.ret {a : α} (renders : Renders recs (result a)) :
    Shows recs result (.ret a : M α) := Prog.Ensures.ret fun _ holds => ⟨holds, renders⟩

theorem Shows.bind {p : M α} {f : α → M β} (first : Shows recs result p)
    (rest : ∀ a, Renders recs (result a) → Shows recs result' (f a)) :
    Shows recs result' (p >>= f) :=
  Prog.Ensures.bind first fun a fs shown => rest a shown.2 fs shown.1

theorem Shows.of_exec {p : M α} (each : ∀ fs, fs.content dbFile = some (.finished recs) →
    ∃ a, exec p fs = (.ok a, fs) ∧ Renders recs (result a)) : Shows recs result p := by
  refine .of_run (fun fs a t holds ran => ?_) fun _ _ _ _ _ => True.intro
  obtain ⟨a', ran', renders⟩ := each fs holds
  cases ran.symm.trans ran'
  exact ⟨holds, renders⟩

variable (leapsecs : List UInt64)

/-- The entries of a day are those its index names. -/
theorem shows_fetchEntriesDays (conf : Blog) {res : Result} (renders : Renders recs res) :
    Shows recs Prod.snd (fetchEntriesDays leapsecs conf res) := by
  refine .of_exec fun fs holds => ?_
  obtain ⟨r, named, node⟩ := Fs.dir_of_content holds
  refine ⟨_, exec_fetchEntriesDays named conf res, renders.append fun day inside e member => ?_⟩
  obtain ⟨t, -, shown⟩ := List.mem_filterMap.1 inside
  rw [shownDay, exec_cdbbFetchDay_eq, Fs.records_of_finished fs node] at shown
  simp only at shown
  split at shown
  · cases shown
  · cases shown
    obtain ⟨k, -, rfl⟩ := List.mem_map.1 member
    exact ⟨_, .lookedUp k⟩

theorem shows_fetchWeek (i : Nat) (err : Int) (conf : Blog) {res : Result}
    (renders : Renders recs res) :
    Shows recs (fun r => r.2.2) (fetchWeek leapsecs i err conf res) := by
  induction i generalizing err conf res with
  | zero =>
      rw [fetchWeek]
      refine (shows_fetchEntriesDays leapsecs conf renders).bind fun r shown => ?_
      simp only
      split
      · exact .ret shown
      · exact .ret shown
  | succ i ih =>
      rw [fetchWeek]
      refine (shows_fetchEntriesDays leapsecs conf renders).bind fun r shown => ?_
      simp only
      split
      · exact .ret shown
      · exact ih _ _ shown

theorem shows_fetchEntryTs (left : Bytes) (conf : Blog) :
    Shows recs Prod.snd (fetchEntryTs leapsecs left conf []) := by
  refine .of_exec fun fs holds => ?_
  obtain ⟨r, named, node⟩ := Fs.dir_of_content holds
  have ran : exec (fetchEntryTs leapsecs left conf []) fs =
      (.ok (0, [⟨caltimeUtc leapsecs (scanTimeHex left conf.qry.ts).sec,
        [readEntry (some recs) (taiaPack (scanTimeHex left conf.qry.ts))]⟩]), fs) := by
    rw [exec, fetchEntryTs]
    rw [Prog.run_bind_ok handle (exec_openRead named)]
    simp only [showEntry]
    rw [Prog.run_bind_ok handle (exec_cdbbReadNentry_fresh r _ fs), Fs.records_of_finished fs node]
    rfl
  refine ⟨_, ran, fun day inside e member => ?_⟩
  rw [List.mem_singleton.1 inside, List.mem_singleton] at member
  rw [member]
  exact ⟨_, .lookedUp _⟩

theorem shows_fetchEntryFind (memory : Nat → Beyond) (conf : Blog) (ignorecase : Bool) :
    Shows recs Prod.snd (fetchEntryFind leapsecs memory conf ignorecase []) := by
  refine .of_exec fun fs holds => ⟨_, exec_fetchEntryFind leapsecs memory conf ignorecase holds [], ?_⟩
  refine (forall_listed_iff leapsecs).2 fun i r there _ => ⟨_, .hit ?_⟩
  exact List.mem_of_mem_tail (List.mem_of_getElem? there)

/-- **Whatever is shown, it is made of the records of the file.** -/
theorem shows_fetchShown (left : Bytes) (memory : Nat → Beyond) (conf : Blog) :
    Shows recs (fun res => res.getD []) (fetchShown leapsecs left memory conf) := by
  rw [fetchShown]
  split
  · exact (shows_fetchWeek leapsecs 100 0 conf renders_nil).bind fun _ shown => .ret shown
  · exact (shows_fetchEntryTs leapsecs left conf).bind fun _ shown => .ret shown
  · exact (shows_fetchEntryFind leapsecs memory conf false).bind fun _ shown => .ret shown
  · exact (shows_fetchEntryFind leapsecs memory conf true).bind fun _ shown => .ret shown
  · have month := shows_fetchEntriesDays leapsecs (monthWindow leapsecs conf) (@renders_nil recs)
    exact Shows.bind (month.bind fun _ shown => .ret shown) fun _ shown => .ret shown
  · exact .ret renders_nil

end Shows

/-! ## Entries -/

theorem not_isMark_taiaPack {t : Taia} (clocked : Clocked t) : ¬ IsMark (taiaPack t) := by
  rintro (last | ⟨leapsecs, u, index⟩)
  · exact taiaPack_ne_dbLastModified t last
  · exact taiaPack_ne_fmtDayIdx clocked leapsecs u index

/-- **Rendering an entry stays within its text exactly when one of the records it is
made of was given with a terminator**, and an `int` counts what stands in front of it. -/
theorem feed_within_iff {fs : Fs} (blank : Stems (fun _ => False) fs) (writes : List Write)
    {recs : List Record} (holds : (filesAfter fs writes).content dbFile = some (.finished recs))
    {e : Nentry} {parts : List Record} (rendered : Rendered recs e parts) (entry : ¬ IsMark e.k) :
    Within e ↔ (∃ r ∈ parts, ∃ w ∈ writes, w.record = some r ∧ w.Terminates) ∧
      (cstr e.e).length < intRange := by
  have stems := stems_filesAfter blank writes recs holds
  rw [within_iff, rendered.zero_mem_iff]
  refine and_congr_left fun _ => ⟨?_, ?_⟩
  · rintro ⟨r, inside, zero⟩
    obtain ⟨member, onKey⟩ := rendered.part inside
    rcases stems r member with mark | ⟨w, write, is⟩
    · exact absurd (onKey ▸ mark) entry
    · exact ⟨r, inside, w, write, is, (Write.terminates_iff is).1 zero⟩
  · rintro ⟨r, inside, w, -, is, terminates⟩
    exact ⟨r, inside, (Write.terminates_iff is).2 terminates⟩

/-! ## An entry from the command line -/

/-- A command with this input, at the start of 1970, over memory that is zero. -/
def cmdSample (stdin : Bytes) : CmdEnv where
  leapsecs := []
  sha256 s := s
  skey := zeros 100
  left := zeros taiaPackSize
  behind := []
  stdin
  memory _ := ⟨0, 0, fun _ => 0⟩
  clk _ := ⟨epoch, 0, 0⟩
  entryAt := ⟨epoch, 0, 0⟩
  modifiedAt := ⟨epoch, 0, 0⟩

/-- The start of 1970, as a key is written. -/
def keySample : Bytes := str "40000000000000000000000000000000"

/-- `-t -k .. -a -v old` -/
def addSample : Write := .command (cmdSample []) [.t, .k keySample, .a, .v (str "old")]

/-- `-t -k .. -m -i`, with `new` to read. -/
def modSample : Write := .command (cmdSample (str "new")) [.t, .k keySample, .m, .i]

/-- A blog without entries. -/
def blankBlog : Fs := Fs.empty.install dbFile (.finished [])

theorem stems_blankBlog : Stems (fun _ => False) blankBlog := by
  intro recs holds r member
  rw [blankBlog, Fs.content_install_self] at holds
  cases holds
  cases member

/-- The blog of one entry, and what keeps its index. -/
def entrySample (v : Bytes) : List Record :=
  [⟨fmtDayIdx [] ⟨epoch, 0, 0⟩, taiaPack ⟨epoch, 0, 0⟩⟩, ⟨taiaPack ⟨epoch, 0, 0⟩, v⟩,
    ⟨dbLastModified, taiaPack ⟨epoch, 0, 0⟩⟩]

theorem not_isMark_epoch : ¬ IsMark (taiaPack ⟨epoch, 0, 0⟩) :=
  not_isMark_taiaPack ⟨by decide, by decide⟩

/-- Added with `-v`, it is rendered within its text. -/
theorem feed_within_sample : ∃ recs,
    (filesAfter blankBlog [addSample]).content dbFile = some (.finished recs) ∧
      Within (readEntry (some recs) (taiaPack ⟨epoch, 0, 0⟩)) := by
  have holds : (filesAfter blankBlog [addSample]).content dbFile =
      some (.finished [⟨taiaPack ⟨epoch, 0, 0⟩, str "old" ++ [0]⟩,
        ⟨fmtDayIdx [] ⟨epoch, 0, 0⟩, taiaPack ⟨epoch, 0, 0⟩⟩,
        ⟨dbLastModified, taiaPack ⟨epoch, 0, 0⟩⟩]) := by decide +kernel
  refine ⟨_, holds, (feed_within_iff stems_blankBlog [addSample] holds (.lookedUp _)
    not_isMark_epoch).2 ⟨⟨⟨taiaPack ⟨epoch, 0, 0⟩, str "old" ++ [0]⟩, by decide +kernel,
      addSample, List.mem_singleton_self _, by decide +kernel, ?_⟩, by decide +kernel⟩⟩
  exact ⟨_, rfl, .inl ⟨str "old", by simp⟩⟩

/-- What is read from the input is stored as it is, and a form without a text stores
nothing; neither is rendered without a read behind its end. -/
theorem input_read_past_its_end :
    (filesAfter blankBlog [addSample, modSample]).content dbFile =
        some (.finished (entrySample (str "new"))) ∧
      ¬ Within (readEntry (some (entrySample (str "new"))) (taiaPack ⟨epoch, 0, 0⟩)) ∧
      ({ HttpRequest.blank with postData := str "action=add&input=" }).record =
        some ⟨taiaPack ⟨epoch, 0, 0⟩, []⟩ ∧
      ¬ Within ⟨[], taiaPack ⟨epoch, 0, 0⟩⟩ := by
  refine ⟨by decide +kernel, ?_, by decide +kernel, ?_⟩
  · rw [within_iff]
    decide +kernel
  · rw [within_iff]
    simp

end Bagunceiro
