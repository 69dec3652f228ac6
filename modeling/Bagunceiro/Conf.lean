/-
# Conf -- configuration, password and sessions (`z_conf.c`)

The configuration lives in one database under four keys, the sessions in
another one under their ids, with the time they run out as value.  The hash, the
clock and the random numbers come from outside: they are arguments.
-/
import Bagunceiro.Batch
import Bagunceiro.Blog

namespace Bagunceiro

open Effect

set_option autoImplicit false

/-- A buffer that is written out of bounds ends the program. -/
def written {α : Type} : Except Fault α → M α
  | .ok a => .ret a
  | .error e => .fail e

/-! ## Configuration -/

/-- `CONF_TITLE` -/
def confTitle : Bytes := str "title"
/-- `CONF_TAGLINE` -/
def confTagline : Bytes := str "tagline"
/-- `CONF_SEARCHBOX` -/
def confSearchbox : Bytes := str "searchbox"
/-- `CONF_PASS` -/
def confPass : Bytes := str "input"

def loadConfig (conf : Blog) : M (Int × Blog) := do
  match ← cdbbOpenRead confDb with
  | none => return (-1, conf)
  | some r =>
      let (err, v) ← cdbbReadn r confTitle sizeHttpArg
      let conf := { conf with title := v ++ conf.title.drop v.length }
      if err < 0 then return (-2, conf)
      let (err, v) ← cdbbReadn r confTagline sizeTagline
      let conf := { conf with tagline := v ++ conf.tagline.drop v.length }
      if err < 0 then return (-2, conf)
      let (err, v) ← cdbbReadn r confSearchbox 1
      let conf := { conf with sbox := v.headD conf.sbox }
      if err < 0 then return (-2, conf)
      return (err, conf)

/-- What `save_config` queues. -/
def saveConfigOps (conf : Blog) (a : Cdbb) : Cdbb :=
  let a := if cstr conf.qry.title ≠ [] then cdbbRep a confTitle (cstr conf.qry.title ++ [0]) else a
  let a := if cstr conf.qry.pass ≠ [] then cdbbRep a confPass (cstr conf.qry.pass ++ [0]) else a
  let a := cdbbRep a confTagline (cstr conf.qry.tagline ++ [0])
  cdbbRep a confSearchbox [conf.sbox]

/-- The two `strcpy` of `save_config`. -/
def takeOver (conf : Blog) : Except Fault Blog := do
  let title ← if cstr conf.qry.title ≠ [] then
      store sizeHttpArg conf.title (cstr conf.qry.title ++ [0])
    else pure conf.title
  let tagline ← store sizeTagline conf.tagline (cstr conf.qry.tagline ++ [0])
  return { conf with title, tagline }

/-- What `cdbb_start_mod` returns is not looked at. -/
def saveConfig (memory : Nat → Slot) (clk : Nat → Taia) (conf : Blog) : M Blog := do
  match ← cdbbStartMod memory confDb with
  | none => .fail .uninitialised
  | some a =>
      let saved ← written (takeOver conf)
      let _ ← cdbbApply clk (saveConfigOps conf a)
      return saved

/-! ## The password -/

/-- `SHA256_DIGEST_LENGTH` -/
def sha256DigestLength : Nat := 32

/-- `past` is what the comparison meets behind the stored bytes. -/
def authConf (sha256 : Bytes → Bytes) (past : Nat → UInt8) (input : Bytes) : M Bool := do
  match ← cdbbOpenRead confDb with
  | none => .fail .uninitialised
  | some r =>
      let (err, n) ← cdbbReadNentry r confPass ⟨[], []⟩
      if err ≤ 0 then return false
      return readMemory n.e past sha256DigestLength = sha256 input

/-! ## Sessions -/

def isExpired (now : Taia) (v : Bytes) : Bool := !taiaLess now (taiaUnpack v)

def filterExpired : Filter := fun now r => isExpired now r.value

/-- The new id; `rand i` is what the `i`-th call of `rand` returns. -/
def sessionId (rand : Nat → Nat) : Bytes :=
  (List.range sizeSessionId).map fun i => Radix.hexDigit (rand i % 16)

/-- The result and the caller's buffer, which gets the id in any case. -/
def addSessionId (memory : Nat → Slot) (clk : Nat → Taia) (now : Taia) (rand : Nat → Nat)
    (buf : Bytes) : M (Int × Bytes) := do
  let id := sessionId rand
  let buf := id ++ buf.drop sizeSessionId
  match ← cdbbStartMod memory sessionDb with
  | none => return (-1, buf)
  | some a =>
      let a := cdbbAdd a id (taiaPack (taiaAddsec now sessionVtime))
      let _ ← cdbbApply clk (cdbbAddFilter a filterExpired)
      return (1, buf)

/-- Whether the first bytes of a buffer are the id of an unexpired session. -/
def validateSessionId (now : Taia) (buf : Bytes) : M Bool := do
  match ← cdbbOpenRead sessionDb with
  | none => .fail .uninitialised
  | some r =>
      let (err, value) ← cdbbReadNentry r (buf.take sizeSessionId) ⟨[], []⟩
      if err ≤ 0 then return false
      return !isExpired now value.e

def expireAllSessions : M Int := do
  unlink sessionDb
  let _ ← openFile sessionDb
  return 0

/-! ## What they do -/

theorem sessionId_length (rand : Nat → Nat) : (sessionId rand).length = sizeSessionId := by
  simp [sessionId]

/-- Whether some stored value was found, and it has not run out. -/
def sessionValid (file : Option (List Record)) (now : Taia) (id : Bytes) : Bool :=
  findAll file id ≠ [] && !isExpired now (findAll file id).flatten

theorem sessionValid_iff {file : Option (List Record)} {now : Taia} {id : Bytes} :
    sessionValid file now id = true ↔
      ∃ v vs, findAll file id = v :: vs ∧ isExpired now (v ++ vs.flatten) = false := by
  rw [sessionValid]
  cases found : findAll file id with
  | nil => simp
  | cons v vs => simp

theorem exec_validateSessionId (now : Taia) (buf : Bytes) {fs : Fs} {c : Content}
    (holds : fs.content sessionDb = some c) :
    exec (validateSessionId now buf) fs =
      (.ok (sessionValid c.records now (buf.take sizeSessionId)), fs) := by
  obtain ⟨i, named, node⟩ := Fs.dir_of_content holds
  rw [exec, validateSessionId]
  rw [Prog.run_bind_ok handle (exec_openRead named)]
  simp only
  rw [Prog.run_bind_ok handle (exec_cdbbReadNentry i _ _ fs), Fs.records_eq node]
  cases found : findAll c.records (buf.take sizeSessionId) with
  | nil => simp [sessionValid, found]
  | cons v vs =>
      have some_ : ¬ (((v :: vs).length : Int) ≤ 0) := by rw [List.length_cons]; omega
      simp only [List.nil_append, if_neg some_]
      simp [sessionValid, found]

theorem exec_openRead_absent {fs : Fs} {p : Path} (absent : fs.content p = none) :
    exec (cdbbOpenRead p) fs = (.ok none, fs) := by
  have named : fs.dir p = none := by simpa [Fs.content] using absent
  show (Except.ok (fs.dir p), fs) = _
  rw [named]

theorem exec_validateSessionId_absent (now : Taia) (buf : Bytes) {fs : Fs}
    (absent : fs.content sessionDb = none) :
    exec (validateSessionId now buf) fs = (.error .uninitialised, fs) := by
  rw [exec, validateSessionId]
  rw [Prog.run_bind_ok handle (exec_openRead_absent absent)]
  rfl

/-- The bytes stored as the password, if there are any. -/
def passwordMatches (file : Option (List Record)) (past : Nat → UInt8) (hash : Bytes) : Bool :=
  findAll file confPass ≠ [] &&
    readMemory (findAll file confPass).flatten past sha256DigestLength = hash

theorem exec_authConf (sha256 : Bytes → Bytes) (past : Nat → UInt8) (input : Bytes) {fs : Fs}
    {c : Content} (holds : fs.content confDb = some c) :
    exec (authConf sha256 past input) fs =
      (.ok (passwordMatches c.records past (sha256 input)), fs) := by
  obtain ⟨i, named, node⟩ := Fs.dir_of_content holds
  rw [exec, authConf]
  rw [Prog.run_bind_ok handle (exec_openRead named)]
  simp only
  rw [Prog.run_bind_ok handle (exec_cdbbReadNentry i _ _ fs), Fs.records_eq node]
  cases found : findAll c.records confPass with
  | nil => simp [passwordMatches, found]
  | cons v vs =>
      have some_ : ¬ (((v :: vs).length : Int) ≤ 0) := by rw [List.length_cons]; omega
      simp only [List.nil_append, if_neg some_]
      simp [passwordMatches, found]

theorem exec_authConf_absent (sha256 : Bytes → Bytes) (past : Nat → UInt8) (input : Bytes) {fs : Fs}
    (absent : fs.content confDb = none) :
    exec (authConf sha256 past input) fs = (.error .uninitialised, fs) := by
  rw [exec, authConf]
  rw [Prog.run_bind_ok handle (exec_openRead_absent absent)]
  rfl

/-! ## Saving -/

/-- The batch of `save_config`. -/
def saveChanges (conf : Blog) : List Change :=
  (if cstr conf.qry.title ≠ [] then [.rep confTitle (cstr conf.qry.title ++ [0])] else []) ++
  (if cstr conf.qry.pass ≠ [] then [.rep confPass (cstr conf.qry.pass ++ [0])] else []) ++
  [.rep confTagline (cstr conf.qry.tagline ++ [0]), .rep confSearchbox [conf.sbox]]

theorem saveConfigOps_eq (conf : Blog) (a : Cdbb) :
    saveConfigOps conf a = queueAll (saveChanges conf) [] a := by
  rw [saveConfigOps, saveChanges, queueAll]
  split_ifs <;> rfl

/-- Saving is a change of the configuration database, once both strings fit. -/
theorem saveConfig_eq (memory : Nat → Slot) (clk : Nat → Taia) (conf : Blog) :
    saveConfig memory clk conf =
      match takeOver conf with
      | .ok saved => cdbbModify memory clk confDb (saveChanges conf) [] >>= fun err =>
          if err.isSome then .ret saved else .fail .uninitialised
      | .error e => cdbbStartMod memory confDb >>= fun opened =>
          .fail (if opened.isSome then e else .uninitialised) := by
  rw [saveConfig, cdbbModify]
  cases takeOver conf with
  | error e =>
      refine congrArg _ (funext fun opened => ?_)
      cases opened <;> rfl
  | ok saved =>
      simp only [Prog.bind_assoc]
      refine congrArg _ (funext fun opened => ?_)
      cases opened with
      | none => rfl
      | some a =>
          show (cdbbApply clk (saveConfigOps conf a) >>= _) = (cdbbApply clk _ >>= _) >>= _
          rw [Prog.bind_assoc, saveConfigOps_eq]
          rfl

theorem posed_saveChanges (conf : Blog) (old : List Record) : Posed (saveChanges conf) old := by
  have reps : ∀ c ∈ saveChanges conf, ∃ k v, c = .rep k v ∧ k ≠ [] := by
    intro c member
    simp only [saveChanges, List.mem_append] at member
    rcases member with (title | pass) | always
    · split at title
      · exact ⟨_, _, List.mem_singleton.1 title, by decide⟩
      · cases title
    · split at pass
      · exact ⟨_, _, List.mem_singleton.1 pass, by decide⟩
      · cases pass
    · rcases List.mem_pair.1 always with tagline | searchbox
      · exact ⟨_, _, tagline, by decide⟩
      · exact ⟨_, _, searchbox, by decide⟩
  constructor
  · intro c member
    obtain ⟨k, v, rfl, key⟩ := reps c member
    exact key
  · rw [saveChanges]
    split_ifs <;>
      simp only [List.nil_append, List.cons_append, List.map_cons, List.map_nil, Change.key] <;>
      decide
  · intro k v member
    obtain ⟨k', v', clash, -⟩ := reps _ member
    cases clash
  · intro k v member
    obtain ⟨k', v', clash, -⟩ := reps _ member
    cases clash

theorem room_saveChanges (conf : Blog) : Room (saveChanges conf) [] := by
  rw [saveChanges]
  split_ifs <;> simp [Room, numOp]

theorem exec_saveConfig (memory : Nat → Slot) (clk : Nat → Taia) {conf conf' : Blog} {fs : Fs}
    {old : List Record} (holds : fs.content confDb = some (.finished old))
    (fits : takeOver conf = .ok conf') :
    ∃ fs', exec (saveConfig memory clk conf) fs = (.ok conf', fs') ∧
      fs'.content confDb = some (.finished (batchResult [] clk (saveChanges conf) old)) ∧
      ∀ p, p ≠ confDb → p ≠ tmpName confDb → fs'.content p = fs.content p := by
  obtain ⟨r, named, node⟩ := Fs.dir_of_content holds
  obtain ⟨fs', ran, content, others⟩ := exec_cdbbApply_posed memory clk (room_saveChanges conf)
    named (Fs.records_of_finished fs node) (posed_saveChanges conf old)
  have some_ : batchResult [] clk (saveChanges conf) old ≠ [] := by
    have member : (⟨confSearchbox, [conf.sbox]⟩ : Record) ∈
        batchResult [] clk (saveChanges conf) old := by
      rw [batchResult_nil, List.mem_append, List.mem_filterMap]
      exact .inr ⟨.rep confSearchbox [conf.sbox], by simp [saveChanges], rfl⟩
    exact List.ne_nil_of_mem member
  rw [if_neg some_] at content
  refine ⟨fs', ?_, content, others⟩
  rw [exec, saveConfig]
  rw [Prog.run_bind_ok handle (exec_cdbbStartMod memory confDb fs), named]
  simp only [Option.map_some, fits, saveConfigOps_eq]
  show Prog.run handle (cdbbApply clk _ >>= fun _ => .ret conf') _ = _
  rw [Prog.run_bind_ok handle ran]
  rfl

end Bagunceiro
