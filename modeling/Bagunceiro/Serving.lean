/-
# Serving -- one request, served twice

The same request is served over two states that later requests cannot tell
apart: the servers agree on what a request leaves (`Server.surviving`), the files
are alike (`FilesAlike`).  Both stop, or both return and agree again
(`agree_serve`).

What the automatic variables and fresh memory hold is no part of a request: it
may differ (`Leftovers`).
-/
import Bagunceiro.TwoRuns

namespace Bagunceiro

open Effect Prog

set_option autoImplicit false

/-- The memory a request is served over: the buffer of `scan_time_hex`, and the
batches of a change and of a login. -/
structure Leftovers where
  left : Bytes
  memory : Nat → Slot
  loginMemory : Nat → Slot

def HttpRequest.upon (req : HttpRequest) (l : Leftovers) : HttpRequest :=
  { req with left := l.left, memory := l.memory, loginMemory := l.loginMemory }

theorem agree_written {α β : Type} {e : Except Fault α} {e' : Except Fault β}
    {pre : Fs → Fs → Prop} {rel : α → β → Prop} (alike : Alike rel e e') :
    Agree handle pre (written e) (written e') (fun a b fs t => rel a b ∧ pre fs t) := by
  cases e with
  | ok a =>
      cases e' with
      | ok b => exact .ret fun fs t holds => ⟨alike, holds⟩
      | error e' => exact alike.elim
  | error e =>
      cases e' with
      | ok b => exact alike.elim
      | error e' => exact .fail

/-! ## Privileges -/

theorem OwnSessions.of_alike {fs t : Fs} (own : OwnSessions fs) (alike : FilesAlike fs t) :
    OwnSessions t := fun recs holds => own recs (alike.sessions.trans holds)

/-- The same cookie, in front of whatever the buffers hold. -/
theorem agree_validate (now : Taia) {buf buf' id : Bytes}
    (buffer : ∃ rest, buf = (id ++ [0]).take (sizeSessionId + 1) ++ rest)
    (buffer' : ∃ rest, buf' = (id ++ [0]).take (sizeSessionId + 1) ++ rest) :
    Agree handle (fun fs t => FilesAlike fs t ∧ OwnSessions fs) (validateSessionId now buf)
      (validateSessionId now buf') (fun a b fs t => a = b ∧ FilesAlike fs t) := by
  rintro fs t ⟨alike, own⟩
  obtain ⟨rest, rfl⟩ := buffer
  obtain ⟨rest', rfl⟩ := buffer'
  cases holds : fs.content sessionDb with
  | none =>
      have left := exec_validateSessionId_absent now
        ((id ++ [0]).take (sizeSessionId + 1) ++ rest) holds
      have right := exec_validateSessionId_absent now
        ((id ++ [0]).take (sizeSessionId + 1) ++ rest') (alike.sessions.symm.trans holds)
      rw [exec] at left right
      rw [left, right]
      exact True.intro
  | some c =>
      have left := own.validate holds now id rest
      have right := (own.of_alike alike).validate (alike.sessions.symm.trans holds) now id rest'
      rw [exec] at left right
      rw [left, right]
      exact ⟨rfl, alike⟩

theorem agree_authConf (sha256 : Bytes → Bytes) (past : Nat → UInt8) (input : Bytes) :
    Agree handle FilesAlike (authConf sha256 past input) (authConf sha256 past input)
      (fun a b fs t => a = b ∧ FilesAlike fs t) := by
  intro fs t alike
  cases holds : fs.content confDb with
  | none =>
      have left := exec_authConf_absent sha256 past input holds
      have right := exec_authConf_absent sha256 past input (alike.conf.symm.trans holds)
      rw [exec] at left right
      rw [left, right]
      exact True.intro
  | some c =>
      have left := exec_authConf sha256 past input holds
      have right := exec_authConf sha256 past input (alike.conf.symm.trans holds)
      rw [exec] at left right
      rw [left, right]
      exact ⟨rfl, alike⟩

/-- Privileges are not part of the core. -/
theorem Matching.of_core {s t : Server} (same : s.core = t.core) (p : Param) (auth : Bool)
    (authtype : Authtype) :
    Matching ((s.noted p).modConf ({ · with auth, authtype }))
      ((t.noted p).modConf ({ · with auth, authtype })) :=
  ⟨Server.core_noted_congr same p, rfl, rfl⟩

/-- What overruns the session id is part of the core. -/
theorem storeSid_core {s t : Server} (same : s.core = t.core) {new : Bytes} {a b : Blog}
    (left : storeSid s.conf new = .ok a) (right : storeSid t.conf new = .ok b) :
    (s.modConf fun _ => a).core = (t.modConf fun _ => b).core := by
  rw [storeSid_ok left, storeSid_ok right]
  exact Server.core_step (f := fun s => s.modConf fun conf =>
    { conf with
      title := new.drop (sizeSessionId + 1) ++
        conf.title.drop (new.length - (sizeSessionId + 1)) }) (fun _ => rfl) same

theorem agree_parseSid (req : HttpRequest) (l l' : Leftovers) {s t : Server}
    (same : s.core = t.core) :
    Agree handle (fun fs t => FilesAlike fs t ∧ OwnSessions fs) (parseSid (req.upon l) s)
      (parseSid (req.upon l') t) (fun s t fs fs' => Matching s t ∧ FilesAlike fs fs') := by
  rw [parseSid]
  simp only
  show Agree handle _ (written (cookieSid.get req) >>= _) (written (cookieSid.get req) >>= _) _
  cases got : cookieSid.get req with
  | error e => exact .fail
  | ok p =>
      show Agree handle _ (written (storeSid _ p.write) >>= _) (written (storeSid _ p.write) >>= _) _
      have cleared : (s.modConf fun conf => { conf with
            authtype := .authNone, auth := false, sid := 0 :: conf.sid.drop 1 }).core =
          (t.modConf fun conf => { conf with
            authtype := .authNone, auth := false, sid := 0 :: conf.sid.drop 1 }).core := same
      by_cases fits : p.write.length ≤ sizeSessionId + 1 + sizeHttpArg
      · obtain ⟨a, left⟩ : ∃ a, storeSid (s.modConf fun conf => { conf with
            authtype := .authNone, auth := false, sid := 0 :: conf.sid.drop 1 }).conf p.write =
              .ok a := ⟨_, if_pos fits⟩
        obtain ⟨b, right⟩ : ∃ b, storeSid (t.modConf fun conf => { conf with
            authtype := .authNone, auth := false, sid := 0 :: conf.sid.drop 1 }).conf p.write =
              .ok b := ⟨_, if_pos fits⟩
        have alike := storeSid_core cleared left right
        simp only [left, right, written, Prog.ret_bind]
        by_cases success : p.code = paramSuccess
        · simp only [if_pos success, Server.noted_conf]
          obtain ⟨id, -, write, -⟩ := Site.get_success got success
          rw [write] at left right
          refine (agree_validate req.validateAt ⟨_, (congrArg Blog.sid (storeSid_ok left) :)⟩
            ⟨_, (congrArg Blog.sid (storeSid_ok right) :)⟩).bind fun auth _ => ?_
          refine Agree.ret fun fs fs' checked => ?_
          obtain ⟨rfl, files⟩ := checked
          exact ⟨.of_core alike p auth .authSid, files⟩
        · simp only [if_neg success]
          refine Agree.ret fun fs fs' start => ⟨⟨Server.core_noted_congr alike p, ?_, ?_⟩, start.1⟩
          · rw [Server.noted_conf, Server.noted_conf]
            exact (congrArg Blog.auth (storeSid_ok left)).trans
              (congrArg Blog.auth (storeSid_ok right)).symm
          · rw [Server.noted_conf, Server.noted_conf]
            exact (congrArg Blog.authtype (storeSid_ok left)).trans
              (congrArg Blog.authtype (storeSid_ok right)).symm
      · simp only [storeSid, if_neg fits]
        exact .fail

theorem agree_addSessionId (req : HttpRequest) (l l' : Leftovers) (buf buf' : Bytes) :
    Agree handle FilesAlike
      (addSessionId l.loginMemory req.loginClk req.loginAt req.rand buf)
      (addSessionId l'.loginMemory req.loginClk req.loginAt req.rand buf')
      (fun a b fs t => a.1 = b.1 ∧ FilesAlike fs t) := by
  rw [addSessionId_eq, addSessionId_eq]
  have posed (old : List Record) : Posed (loginChanges (sessionId req.rand) req.loginAt) old :=
    posed_loginChanges _ (sessionId_ne_nil req.rand) _ old
  refine (agree_cdbbModify posed _ _ (.inr rfl)).bind fun err _ => ?_
  refine Agree.ret fun fs t made => ?_
  obtain ⟨rfl, alike⟩ := made
  exact ⟨rfl, alike⟩

theorem agree_parseLogin (req : HttpRequest) (l l' : Leftovers) {s t : Server}
    (matching : Matching s t) :
    Agree handle FilesAlike (parseLogin (req.upon l) s) (parseLogin (req.upon l') t)
      (fun s t fs fs' => Matching s t ∧ FilesAlike fs fs') := by
  rw [parseLogin]
  apply (agree_written (readLocal_related req postLogin 10 Matching matching.noted)).bind
  rintro ⟨err, text, s₁⟩ ⟨err', text', t₁⟩
  refine Agree.assuming fun read => ?_
  obtain ⟨rfl, rfl, matching⟩ := read
  by_cases success : err = paramSuccess
  · simp only [if_pos success]
    refine (agree_authConf req.sha256 req.past text).bind fun auth auth' => ?_
    refine Agree.assuming fun equal => ?_
    obtain rfl : auth = auth' := equal
    have known := matching.modConf (f := ({ · with auth })) (g := ({ · with auth })) rfl rfl rfl
      matching.authtype
    have posted {s t : Server} (matching : Matching s t) :
        Agree handle FilesAlike (.ret (s.modConf ({ · with authtype := .authPost })) : M Server)
          (.ret (t.modConf ({ · with authtype := .authPost })))
          (fun s t fs fs' => Matching s t ∧ FilesAlike fs fs') :=
      Agree.ret fun fs fs' alike => ⟨matching.modConf rfl rfl matching.auth rfl, alike⟩
    cases auth with
    | false => exact posted known
    | true =>
        simp only [if_true]
        refine (agree_addSessionId req l l' _ _).bind fun added added' => ?_
        obtain ⟨err, sid⟩ := added
        obtain ⟨err', sid'⟩ := added'
        refine Agree.assuming fun equal => ?_
        obtain rfl : err = err' := equal
        have issued := known.modConf (f := ({ · with sid })) (g := ({ · with sid := sid' })) rfl rfl
          rfl known.authtype
        apply posted
        show Matching (if err < 0 then _ else _) (if err < 0 then _ else _)
        split
        · exact issued.setErr _ _ _
        · exact issued
  · simp only [if_neg success]
    exact Agree.ret fun fs fs' alike => ⟨matching, alike⟩

theorem agree_doAdminPassMode (req : HttpRequest) (l l' : Leftovers) {s t : Server}
    (same : s.core = t.core) :
    Agree handle (fun fs t => FilesAlike fs t ∧ OwnSessions fs) (doAdminPassMode (req.upon l) s)
      (doAdminPassMode (req.upon l') t) (fun s t fs fs' => Matching s t ∧ FilesAlike fs fs') := by
  rw [doAdminPassMode]
  refine (agree_parseSid req l l' same).bind fun s₁ t₁ => Agree.assuming fun matching => ?_
  refine (agree_parseLogin req l l' matching).bind fun s₂ t₂ => Agree.assuming fun matching => ?_
  exact agree_written (parseLogout_alike req matching)

theorem Matching.checked (req : HttpRequest) {s t : Server} (matching : Matching s t) :
    Matching (checkCss req (checkTs s)) (checkCss req (checkTs t)) := by
  have kept (s : Server) : (checkCss req (checkTs s)).conf.authtype = s.conf.authtype := by
    rw [checkCss, checkTs]
    split_ifs <;> rfl
  refine ⟨?_, ?_, ?_⟩
  · rw [checkCss_core, checkCss_core, checkTs_core matching.core]
  · simp only [checkCss_auth, checkTs_auth, matching.auth]
  · rw [kept, kept, matching.authtype]

theorem agree_parseRequest (req : HttpRequest) (l l' : Leftovers) {s t : Server}
    (same : s.surviving = t.surviving) :
    Agree handle (fun fs t => FilesAlike fs t ∧ OwnSessions fs) (parseRequest (req.upon l) s)
      (parseRequest (req.upon l') t) (fun s t fs fs' => Matching s t ∧ FilesAlike fs fs') := by
  have start : (resetVariables req s).core = (resetVariables req t).core := by
    rw [Server.core_resetVariables req s, same, ← Server.core_resetVariables]
  rw [parseRequest]
  refine (agree_written (parseCookie_alike req start)).bind fun s₁ t₁ =>
    Agree.assuming fun same => ?_
  refine (agree_written (parseQuery_alike req same)).bind fun s₂ t₂ => Agree.assuming fun same => ?_
  refine (agree_written (doAdminMode_alike req same)).bind fun s₃ t₃ =>
    Agree.assuming fun same => ?_
  refine (agree_doAdminPassMode req l l' same).bind fun s₄ t₄ => Agree.assuming fun matching => ?_
  exact Agree.ret fun fs fs' alike => ⟨(matching.checked req).modQry fun _ => rfl, alike⟩

/-! ## Actions -/

theorem Matching.accessGate {s t : Server} (matching : Matching s t) :
    (accessGate s).core = (accessGate t).core := by
  have gate : Matching
      (if isAdminAction s.conf.qry.action ∧ ¬ s.conf.auth then
        s.modQry ({ · with action := .qaShow, type := .qryWeek }) else s)
      (if isAdminAction t.conf.qry.action ∧ ¬ t.conf.auth then
        t.modQry ({ · with action := .qaShow, type := .qryWeek }) else t) := by
    rw [Server.action_congr matching.core, matching.auth]
    split
    · exact matching.modQry fun _ => rfl
    · exact matching
  have refused {s t : Server} (matching : Matching s t) : Matching
      (if s.conf.authtype = .authPost ∧ ¬ s.conf.auth then
        s.setErr (str "Wrong password") 0 .nError else s)
      (if t.conf.authtype = .authPost ∧ ¬ t.conf.auth then
        t.setErr (str "Wrong password") 0 .nError else t) := by
    rw [matching.auth, matching.authtype]
    split
    · exact matching.setErr _ _ _
    · exact matching
  exact (refused gate).core

section Actions

variable {s t : Server}

theorem Server.core_setErr (same : s.core = t.core) (msg : Bytes) (num : Int) (type : Notice) :
    (s.setErr msg num type).core = (t.setErr msg num type).core := by
  show (s.core.setErr msg num type).core = (t.core.setErr msg num type).core
  rw [same]

theorem Server.surviving_congr (same : s.core = t.core) : s.surviving = t.surviving := by
  rw [← surviving_core s, same, surviving_core]

theorem noticeChange_core (same : s.core = t.core) (done : Bytes) {a b : Option Int}
    (made : a.isSome = b.isSome) : (noticeChange s done a).core = (noticeChange t done b).core := by
  cases a with
  | none =>
      cases b with
      | none => exact Server.core_setErr same _ _ _
      | some n => cases made
  | some m =>
      cases b with
      | none => cases made
      | some n => exact Server.core_setErr same _ _ _

/-- What is left is alike. -/
def Left (s t : Server) (fs fs' : Fs) : Prop := s.core = t.core ∧ FilesAlike fs fs'

theorem agree_left (same : s.core = t.core) :
    Agree handle FilesAlike (.ret s : M Server) (.ret t) Left :=
  Agree.ret fun _ _ alike => ⟨same, alike⟩

/-- A change of the blog by a batch that stamps it, and the notice. -/
theorem agree_changed (clk : Nat → Taia) (now : Taia) (memory memory' : Nat → Slot)
    {batch batch' : List Change} (stamps : modifiedChange now ∈ batch)
    (stamps' : modifiedChange now ∈ batch') (room : Room batch []) (room' : Room batch' [])
    {f g : Option Int → Server}
    (noted : ∀ a b, Counted a b → (f a).core = (g b).core) :
    Agree handle FilesAlike (cdbbModify memory clk dbFile batch [] >>= fun err => .ret (f err))
      (cdbbModify memory' clk dbFile batch' [] >>= fun err => .ret (g err)) Left :=
  (agree_changeBlog clk stamps stamps' room room' memory memory').bind fun a b =>
    Agree.assuming fun counted => agree_left (noted a b counted)

theorem agree_modifyAction (k k' : Taia) (same : s.core = t.core) :
    Agree handle FilesAlike (modifyAction k s) (modifyAction k' t) Left := by
  have opens : Agree handle FilesAlike (cdbbOpenRead dbFile) (cdbbOpenRead dbFile)
      (fun a b fs t => a.isSome = b.isSome ∧ FilesAlike fs t) := by
    intro fs t alike
    refine ⟨?_, alike⟩
    show (fs.dir dbFile).isSome = (t.dir dbFile).isSome
    have shape := congrArg Option.isSome alike.blog
    simpa only [Option.isSome_map, Fs.content] using shape
  rw [modifyAction]
  refine opens.bind fun opened opened' => Agree.assuming fun there => ?_
  cases opened with
  | none =>
      cases opened' with
      | none => exact .fail
      | some r => cases there
  | some r =>
      cases opened' with
      | none => cases there
      | some r' =>
          have reads : Agree handle FilesAlike (showEntry r k ⟨[], []⟩) (showEntry r' k' ⟨[], []⟩)
              (fun _ _ => FilesAlike) := fun fs t alike => alike
          exact reads.bind fun entry entry' => agree_left (Server.core_setErr same _ _ _)

/-- What is saved comes from the core. -/
theorem takeOver_alike (same : s.core = t.core) :
    Alike (fun a b => ({ s with conf := a } : Server).core = ({ t with conf := b } : Server).core)
      (takeOver s.conf) (takeOver t.conf) := by
  have field {α : Type} (g : Server → α) (inside : ∀ s, g s = g s.core) : g s = g t := by
    rw [inside s, inside t, same]
  have title := field (·.conf.title) fun _ => rfl
  have tagline := field (·.conf.tagline) fun _ => rfl
  have newTitle := field (·.conf.qry.title) fun _ => rfl
  have newTagline := field (·.conf.qry.tagline) fun _ => rfl
  unfold takeOver
  rw [title, tagline, newTitle, newTagline]
  have copied (title : Bytes) :
      Alike (fun a b => ({ s with conf := a } : Server).core = ({ t with conf := b } : Server).core)
        (store sizeTagline t.conf.tagline (cstr t.conf.qry.tagline ++ [0]) >>= fun tagline =>
          .ok { s.conf with title, tagline })
        (store sizeTagline t.conf.tagline (cstr t.conf.qry.tagline ++ [0]) >>= fun tagline =>
          .ok { t.conf with title, tagline }) := by
    apply Alike.bind (.refl _)
    rintro tagline _ rfl
    exact Server.core_modConf (f := ({ · with title, tagline })) (fun _ => rfl) same
  simp only
  split
  · apply Alike.bind (.refl _)
    rintro title _ rfl
    exact copied title
  · exact copied t.conf.title

theorem agree_saveConfig (req : HttpRequest) (memory memory' : Nat → Slot)
    (same : s.core = t.core) :
    Agree handle FilesAlike (saveConfig memory req.clk s.conf) (saveConfig memory' req.clk t.conf)
      (fun a b fs fs' => ({ s with conf := a } : Server).core = ({ t with conf := b } : Server).core ∧
        FilesAlike fs fs') := by
  have changes : saveChanges s.conf = saveChanges t.conf := by
    show saveChanges s.core.conf = saveChanges t.core.conf
    rw [same]
  have taken := takeOver_alike same
  rw [saveConfig_eq, saveConfig_eq, changes]
  cases left : takeOver s.conf with
  | error e =>
      cases right : takeOver t.conf with
      | ok b =>
          rw [left, right] at taken
          exact taken.elim
      | error e' =>
          have start : Agree handle FilesAlike (cdbbStartMod memory confDb)
              (cdbbStartMod memory' confDb) (fun _ _ _ _ => True) := by
            intro fs t alike
            have left := exec_cdbbStartMod memory confDb fs
            have right := exec_cdbbStartMod memory' confDb t
            rw [exec] at left right
            rw [left, right]
            exact True.intro
          exact start.bind fun opened opened' => Agree.fail
  | ok a =>
      cases right : takeOver t.conf with
      | error e =>
          rw [left, right] at taken
          exact taken.elim
      | ok b =>
          rw [left, right] at taken
          refine (agree_cdbbModify (posed_saveChanges t.conf) memory memory' (.inl rfl)).bind
            fun err err' => Agree.assuming fun equal => ?_
          subst equal
          split
          · exact Agree.ret fun fs fs' alike => ⟨taken, alike⟩
          · exact .fail

theorem agree_expireAllSessions :
    Agree handle FilesAlike expireAllSessions expireAllSessions
      (fun a b fs t => a = b ∧ FilesAlike fs t) := by
  intro fs t alike
  have left := exec_expireAllSessions fs
  have right := exec_expireAllSessions t
  rw [exec] at left right
  rw [left, right]
  refine ⟨rfl, alike.of_content (f := sessionDb) ?_ ?_ ?_ ?_⟩
  · rw [Fs.content_install_self, Fs.content_install_self]
  · intro p ne _
    rw [Fs.content_install_ne _ ne, Fs.content_unlink_ne _ ne]
  · intro p ne _
    rw [Fs.content_install_ne _ ne, Fs.content_unlink_ne _ ne]
  · decide

theorem agree_runAction (req : HttpRequest) (l l' : Leftovers) (k k' : Taia)
    (same : s.core = t.core) :
    Agree handle FilesAlike (runAction (req.upon l) k s) (runAction (req.upon l') k' t) Left := by
  have noted (done : Bytes) (a b : Option Int) (counted : Counted a b) :
      (noticeChange s done a).core = (noticeChange t done b).core :=
    noticeChange_core same done counted.isSome
  have shown {s t : Server} (same : s.core = t.core) :
      (s.modQry ({ · with action := .qaShow })).core =
        (t.modQry ({ · with action := .qaShow })).core := Server.core_modQry (fun _ => rfl) same
  unfold runAction
  rw [Server.action_congr same]
  cases t.conf.qry.action with
  | qaShow => exact agree_left same
  | qaAdd => exact agree_left (Server.core_setErr same _ _ _)
  | qaAddPost =>
      have stamps (v : Bytes) : modifiedChange req.modifiedAt ∈
          addChanges req.leapsecs req.modifiedAt req.entryAt v := by simp [addChanges]
      exact agree_changed req.clk req.modifiedAt l.memory l'.memory (stamps _) (stamps _)
        (room_addChanges _ _ _ _) (room_addChanges _ _ _ _)
        fun a b counted => shown (noted _ a b counted)
  | qaDelete =>
      have stamps (k : Taia) : modifiedChange req.modifiedAt ∈
          deleteChanges req.leapsecs req.modifiedAt k := by simp [deleteChanges]
      have counts {n : Option Int} (positive : ∀ m ∈ n, 0 ≤ m) : n.any (· < 0) = false := by
        cases n with
        | none => rfl
        | some m => simpa using positive m rfl
      refine agree_changed req.clk req.modifiedAt l.memory l'.memory (stamps k) (stamps k')
        (room_deleteChanges _ _ _) (room_deleteChanges _ _ _) fun a b counted => ?_
      rw [if_neg (Bool.eq_false_iff.1 (counts counted.left)),
        if_neg (Bool.eq_false_iff.1 (counts counted.right))]
      exact noted _ a b counted
  | qaModify => exact agree_modifyAction k k' same
  | qaModifyPost =>
      have stamps (k : Taia) (v : Bytes) : modifiedChange req.modifiedAt ∈
          modifyChanges req.modifiedAt k v := by simp [modifyChanges]
      exact agree_changed req.clk req.modifiedAt l.memory l'.memory (stamps _ _) (stamps _ _)
        (room_modifyChanges _ _ _) (room_modifyChanges _ _ _)
        fun a b counted => shown (noted _ a b counted)
  | qaConfig => exact agree_left (Server.core_setErr same _ _ _)
  | qaConfigPost =>
      refine (agree_saveConfig req l.memory l'.memory (Server.core_setErr same _ _ _)).bind
        fun conf conf' => Agree.assuming fun saved => ?_
      exact agree_left (shown saved)
  | qaLogin => exact agree_left (Server.core_setErr same _ _ _)
  | qaLogout =>
      refine agree_expireAllSessions.bind fun err err' => Agree.assuming fun equal => ?_
      subst equal
      apply agree_left
      split
      · exact Server.core_setErr same _ _ _
      · exact same

end Actions

/-- **Serving a request keeps apart nothing that was alike.** -/
theorem agree_serve (req : HttpRequest) (l l' : Leftovers) {s t : Server}
    (same : s.surviving = t.surviving) :
    Agree handle (fun fs t => FilesAlike fs t ∧ OwnSessions fs) (serve (req.upon l) s)
      (serve (req.upon l') t) Left := by
  rw [serve]
  refine (agree_parseRequest req l l' same).bind fun s₁ t₁ => Agree.assuming fun matching => ?_
  exact agree_runAction req l l' _ _ matching.accessGate

end Bagunceiro
