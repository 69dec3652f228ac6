/-
# Origins -- where the records of the blog come from

Two programs write to the database of the blog: the server, when a form is posted,
and the command line.  What they do is a batch of a few changes, and a batch adds
nothing but what it was asked to (`mem_newRecords`).  So every record is one that
some request or some command gave as the text of an entry, or it belongs to the
index of days or the last modification (`Stems.filesAfter`).
-/
import Bagunceiro.Blogger
import Bagunceiro.Orders
import Bagunceiro.Unset

namespace Bagunceiro

open Effect

set_option autoImplicit false

/-! ## Batches -/

/-- What a batch leaves was there, or is what one of its changes asked to add. -/
theorem mem_newRecords {fil : List Filter} {clk : Nat → Taia} {memory : Nat → Slot}
    {batch : List Change} {old : List Record} {r : Record}
    (member : r ∈ newRecords fil clk (queuedOps memory 0 batch) old) :
    r ∈ old ∨ ∃ c ∈ batch, c.request.t ≠ .del ∧ c.request.record = r := by
  rcases List.mem_append.1 member with copied | added
  · exact .inl ((copyRecords_sublist fil clk 0 _ old).subset copied)
  · obtain ⟨t, queued, appends, rfl⟩ := mem_addedRecords_iff.1 added
    obtain ⟨j, c, there, rfl⟩ := mem_queuedOps.1 queued
    refine .inr ⟨c, List.mem_of_getElem? there, fun del => ?_, rfl⟩
    have kind : (c.request.op (memory (0 + j))).t = .del := del
    rcases appends with is | is | ⟨is, -⟩ <;> rw [kind] at is <;> cases is

/-- Every record of the database is of a kind. -/
def Stems (kind : Record → Prop) (fs : Fs) : Prop :=
  ∀ recs, fs.content dbFile = some (.finished recs) → ∀ r ∈ recs, kind r

theorem Stems.mono {kind kind' : Record → Prop} {fs : Fs} (stems : Stems kind fs)
    (wider : ∀ r, kind r → kind' r) : Stems kind' fs :=
  fun recs holds r member => wider r (stems recs holds r member)

theorem Stems.of_content {kind : Record → Prop} {fs t : Fs} (stems : Stems kind fs)
    (same : t.content dbFile = fs.content dbFile) : Stems kind t :=
  fun recs holds => stems recs (same ▸ holds)

theorem dbFile_ne_tmpName (f : Path) : dbFile ≠ tmpName f := by
  intro same
  have last := congrArg List.getLast? same
  have tmp : (str ".tmp").getLast? = some 112 := by decide
  rw [tmpName, List.getLast?_append, tmp, Option.some_or] at last
  exact absurd last (by decide)

section Batch

variable {kind : Record → Prop} (memory : Nat → Slot) (clk : Nat → Taia) {f : Path}
  {batch : List Change} (fil : List Filter)

/-- A batch on the database, of changes that add records of the kind. -/
theorem Stems.cdbbModify {fs : Fs} (stems : Stems kind fs)
    (adds : f = dbFile → ∀ c ∈ batch, c.request.t ≠ .del → kind c.request.record) :
    Stems kind (exec (cdbbModify memory clk f batch fil) fs).2 := by
  obtain ⟨outcome, others⟩ := exec_cdbbModify memory clk f batch fil fs
  by_cases here : dbFile = f
  · subst here
    intro recs holds r member
    have content := (congrArg Prod.snd outcome).symm.trans holds
    rcases modifyOutcome_cases memory clk batch fil (fs.content dbFile) with
      ⟨old, file, -, new⟩ | ⟨-, kept⟩ | ⟨e, kept⟩
    · rw [new] at content
      simp only at content
      split at content
      · cases content
      · cases content
        rcases mem_newRecords member with old_ | ⟨c, inside, adding, rfl⟩
        · exact mem_of_recordsAt stems file old_
        · exact adds rfl c inside adding
    · exact stems recs ((congrArg Prod.snd kept).symm.trans content) r member
    · exact stems recs ((congrArg Prod.snd kept).symm.trans content) r member
  · exact stems.of_content (others dbFile here (dbFile_ne_tmpName f))

end Batch

/-- A program after which every record is still of the kind. -/
def OnlyAdds (kind : Record → Prop) {α : Type} (p : M α) : Prop :=
  Prog.Ensures handle (Stems kind) p (fun _ => Stems kind) (Stems kind)

section OnlyAdds

variable {kind : Record → Prop} {α β : Type}

theorem OnlyAdds.ret (a : α) : OnlyAdds kind (.ret a : M α) := Prog.Ensures.ret fun _ stems => stems

theorem OnlyAdds.fail (e : Fault) : OnlyAdds kind (.fail e : M α) :=
  Prog.Ensures.fail fun _ stems => stems

theorem OnlyAdds.bind {p : M α} {f : α → M β} (first : OnlyAdds kind p)
    (rest : ∀ a, OnlyAdds kind (f a)) : OnlyAdds kind (p >>= f) := Prog.Ensures.bind first rest

theorem OnlyAdds.written (e : Except Fault α) : OnlyAdds kind (written e) :=
  ensures_written (fun _ _ _ stems => stems) fun _ stems => stems

/-- A program that leaves the database alone. -/
theorem OnlyAdds.of_content {p : M α}
    (same : ∀ fs, (exec p fs).2.content dbFile = fs.content dbFile) : OnlyAdds kind p :=
  .of_state fun fs stems => stems.of_content (same fs)

theorem OnlyAdds.of_reads {p : M α} (reads : ∀ fs, (exec p fs).2 = fs) : OnlyAdds kind p :=
  .of_content fun fs => congrArg (Fs.content · dbFile) (reads fs)

theorem onlyAdds_cdbbModify (memory : Nat → Slot) (clk : Nat → Taia) {f : Path}
    {batch : List Change} (fil : List Filter)
    (adds : f = dbFile → ∀ c ∈ batch, c.request.t ≠ .del → kind c.request.record) :
    OnlyAdds kind (cdbbModify memory clk f batch fil) :=
  .of_state fun _ stems => stems.cdbbModify memory clk fil adds

/-- Opening a batch leaves the database. -/
theorem onlyAdds_cdbbStartMod (memory : Nat → Slot) (f : Path) :
    OnlyAdds kind (cdbbStartMod memory f) := by
  refine .of_content fun fs => ?_
  rw [exec_cdbbStartMod]
  exact Fs.content_started_ne (dbFile_ne_tmpName f)

theorem onlyAdds_cdbbOpenRead (f : Path) : OnlyAdds kind (cdbbOpenRead f) :=
  .of_reads fun _ => rfl

theorem onlyAdds_cdbbReadNentry (r : Inode) (k : Bytes) (n : Nentry) :
    OnlyAdds kind (cdbbReadNentry r k n) := .of_reads fun _ => rfl

end OnlyAdds

/-- The key of the last modification, or one of the index of days. -/
def IsMark (k : Bytes) : Prop := k = dbLastModified ∨ ∃ leapsecs t, k = fmtDayIdx leapsecs t

section Entries

variable {kind : Record → Prop} (marks : ∀ r : Record, IsMark r.key → kind r) (leapsecs : List UInt64)
  (modifiedAt k : Taia) (v : Bytes)

include marks

theorem adds_addChanges (entry : kind ⟨taiaPack k, v⟩) :
    ∀ c ∈ addChanges leapsecs modifiedAt k v, c.request.t ≠ .del → kind c.request.record := by
  simp only [addChanges, List.forall_mem_cons]
  exact ⟨fun _ => entry, fun _ => marks _ (.inr ⟨leapsecs, k, rfl⟩), fun _ => marks _ (.inl rfl),
    List.forall_mem_nil _⟩

theorem adds_modifyChanges (entry : kind ⟨taiaPack k, v⟩) :
    ∀ c ∈ modifyChanges modifiedAt k v, c.request.t ≠ .del → kind c.request.record := by
  simp only [modifyChanges, List.forall_mem_cons]
  exact ⟨fun _ => entry, fun _ => marks _ (.inl rfl), List.forall_mem_nil _⟩

theorem adds_deleteChanges :
    ∀ c ∈ deleteChanges leapsecs modifiedAt k, c.request.t ≠ .del → kind c.request.record := by
  simp only [deleteChanges, List.forall_mem_cons]
  exact ⟨fun adding => absurd rfl adding, fun adding => absurd rfl adding,
    fun _ => marks _ (.inl rfl), List.forall_mem_nil _⟩

end Entries

/-! ## Forms -/

/-- The actions of the form of an entry. -/
def Posting (action : Qaction) : Prop := action = .qaAddPost ∨ action = .qaModifyPost

/-- The text a form gives an entry: without the parameter there is none. -/
def formText (req : HttpRequest) : Bytes :=
  ((postInput.value req).map fun v => cstr v ++ [0]).getD []

/-- The record of an entry, as a request asks for it. -/
def HttpRequest.record (req : HttpRequest) : Option Record :=
  match formAction req with
  | .qaAddPost => some ⟨taiaPack req.entryAt, formText req⟩
  | .qaModifyPost =>
      some ⟨taiaPack (scanTimeHex req.left (inflateTs (formStamp req))), formText req⟩
  | _ => none

/-- What is to be done, and with which text. -/
def Server.posting (s : Server) : Qaction × Bytes := (s.conf.qry.action, s.conf.qry.input)

theorem posting_of_query {s t : Server} (qry : t.conf.qry = s.conf.qry)
    (_ : t.conf.now = s.conf.now) : t.posting = s.posting := by
  rw [Server.posting, Server.posting, qry]

theorem posting_of_conf {s t : Server} (same : t.conf = s.conf) : t.posting = s.posting :=
  posting_of_query (congrArg Blog.qry same) (congrArg Blog.now same)

/-- No text yet, and no action that asks for one. -/
structure Unposted (s : Server) : Prop where
  input : s.conf.qry.input = []
  action : ¬ Posting s.conf.qry.action

/-- Whoever posts an entry has the text of the form. -/
def Posts (req : HttpRequest) (s : Server) : Prop :=
  Posting s.conf.qry.action → s.conf.qry.input = formText req

theorem Posts.of_posting {req : HttpRequest} {s t : Server} (posts : Posts req s)
    (same : t.posting = s.posting) : Posts req t := by
  obtain ⟨action, input⟩ := Prod.mk.inj same
  rw [Posts]
  rw [action, input]
  exact posts

/-- Nobody posts who is sent elsewhere. -/
theorem Posts.send {req : HttpRequest} {s : Server} {f : Query → Query} {c : Prop} [Decidable c]
    (posts : Posts req s) (action : ∀ q, ¬ Posting (f q).action) :
    Posts req (if c then s.modQry f else s) := by
  split
  · exact fun posting => absurd posting (action _)
  · exact posts

section Unposted

variable {req : HttpRequest} {s : Server}

theorem parseCookie_posting {w : Qaction × Bytes} (same : s.posting = w) :
    Prog.Returns (fun s' => s'.posting = w) (parseCookie req s) := by
  rw [parseCookie]
  refine Prog.Returns.bind (readQry_keeps posting_of_conf (by intros; rfl) same)
    fun _ same => .ok ?_
  exact choice_keeps (fun _ => rfl) same

theorem parseConfigPost_posting {w : Qaction × Bytes} (same : s.posting = w) :
    Prog.Returns (fun s' => s'.posting = w) (parseConfigPost req s) := by
  rw [parseConfigPost]
  refine Prog.Returns.bind (readQry_keeps posting_of_conf (by intros; rfl) same) fun _ same => ?_
  refine Prog.Returns.bind (readQry_keeps posting_of_conf (by intros; rfl) same) fun _ same => ?_
  refine Prog.Returns.bind (readQry_keeps posting_of_conf (by intros; rfl) same) fun _ same => ?_
  refine (Prog.Returns.self _).bind fun p _ => .ok ?_
  split
  · exact (noted_keeps posting_of_conf p _).trans same
  · exact (noted_keeps posting_of_conf p _).trans same

theorem Unposted.of_posting {t : Server} (unposted : Unposted s) (same : t.posting = s.posting) :
    Unposted t := by
  obtain ⟨action, input⟩ := Prod.mk.inj same
  exact ⟨input.trans unposted.input, fun posting => unposted.action (action ▸ posting)⟩

/-- A choice of another action. -/
theorem Unposted.choose (unposted : Unposted s) {f : Query → Query} {c : Prop} [Decidable c]
    (input : ∀ q, (f q).input = q.input) (action : ∀ q, ¬ Posting (f q).action) :
    Unposted (if c then s.modQry f else s) := by
  split
  · exact ⟨(input _).trans unposted.input, action _⟩
  · exact unposted

/-- A choice of something else. -/
theorem Unposted.beside (unposted : Unposted s) {f : Query → Query} {c : Prop} [Decidable c]
    (leaves : ∀ s, Server.posting (Server.modQry s f) = s.posting) :
    Unposted (if c then s.modQry f else s) :=
  unposted.of_posting (choice_keeps leaves rfl)

theorem Unposted.readQry (unposted : Unposted s) {site : Site} {size : Nat} {get : Query → Bytes}
    {set : Bytes → Query → Query}
    (leaves : ∀ v s, Server.posting (Server.modQry s (set v)) = s.posting) :
    Prog.Returns (fun r => Unposted r.2) (readQry req site size get set s) :=
  fun r read => unposted.of_posting (readQry_keeps posting_of_conf leaves rfl r read)

theorem Unposted.readLocal (unposted : Unposted s) {site : Site} {size : Nat} :
    Prog.Returns (fun r => Unposted r.2.2) (readLocal req site size s) :=
  fun r read => unposted.of_posting (readLocal_keeps posting_of_conf rfl r read)

/-- To show something is not to post. -/
theorem not_posting_show : ¬ Posting .qaShow := by
  simp [Posting]

theorem Unposted.parseQuery (unposted : Unposted s) :
    Prog.Returns Unposted (parseQuery req s) := by
  rw [Bagunceiro.parseQuery]
  refine Prog.Returns.bind (unposted.readQry (by intros; rfl)) fun _ unposted => ?_
  refine Prog.Returns.bind ((unposted.choose (by intro; rfl) (by simp [Posting])).readQry
    (by intros; rfl)) fun _ unposted => ?_
  refine Prog.Returns.bind ((unposted.choose (by intro; rfl) (by simp [Posting])).readQry
    (by intros; rfl)) fun _ unposted => ?_
  refine Prog.Returns.bind ((unposted.choose (by intro; rfl) (by simp [Posting])).readQry
    (by intros; rfl)) fun _ unposted => ?_
  refine Prog.Returns.bind (Unposted.readLocal (Unposted.beside (unposted.beside fun _ => rfl)
    fun _ => rfl)) fun _ unposted => ?_
  refine Prog.Returns.bind (Unposted.readLocal (unposted.beside fun _ => rfl))
    fun _ unposted => .ok ?_
  split
  · exact ⟨unposted.input, not_posting_show⟩
  · exact unposted.of_posting (today_keeps (fun _ _ => rfl) rfl _)

theorem formText_of_get {p : Param} (got : postInput.get req = .ok p) :
    formText req = if p.code = paramSuccess then cstr p.write ++ [0] else [] := by
  by_cases success : p.code = paramSuccess
  · obtain ⟨v, value, write, -⟩ := Site.get_success got success
    simp [formText, value, write, success, cstr_concat_zero]
  · simp [formText, Site.value_eq got, success]

theorem parseEntryPost_input (empty : s.conf.qry.input = []) :
    Prog.Returns (fun s' => s'.conf.qry.input = formText req) (parseEntryPost req s) := by
  rw [parseEntryPost]
  refine Prog.Returns.bind (Prog.Returns.self _) ?_
  rintro ⟨err, parg, s₁⟩ read
  obtain ⟨p, got, rfl, rfl, rfl⟩ := readLocal_ok read
  have kept : (s.noted p).conf.qry.input = [] := by rw [Server.noted_conf, empty]
  simp only
  rw [formText_of_get got]
  by_cases success : p.code = paramSuccess
  · rw [if_pos success, if_pos success]
    refine Prog.Returns.bind (readQry_keeps posting_of_conf (by intros; rfl) rfl)
      fun r posting => .ok ?_
    have input := (Prod.mk.inj posting).2
    simpa [Server.modQry, empty] using input
  · rw [if_neg success, if_neg success]
    exact .ok kept

theorem Unposted.parsePost (unposted : Unposted s) :
    Prog.Returns (Posts req) (parsePost req s) := by
  have entry {t : Server} (empty : t.conf.qry.input = []) : Prog.Returns (Posts req)
      (if t.conf.qry.action = .qaAddPost ∨ t.conf.qry.action = .qaModifyPost then
        parseEntryPost req t else pure t) := by
    split
    · exact fun s' parsed _ => parseEntryPost_input empty s' parsed
    · rename_i other
      exact .ok fun posting => absurd posting other
  have none_ {t : Server} (unposted : Unposted t) : Posts req t :=
    fun posting => absurd posting unposted.action
  rw [Bagunceiro.parsePost]
  split
  · refine Prog.Returns.bind unposted.readLocal ?_
    rintro ⟨err, tmp, s₁⟩ unposted
    simp only at unposted ⊢
    split
    · split_ifs
      · exact Prog.Returns.bind (.ok unposted.input) fun _ => entry
      · exact Prog.Returns.bind (.ok unposted.input) fun _ => entry
      · refine Prog.Returns.bind (parseConfigPost_posting rfl) fun t posting => entry ?_
        exact (Prod.mk.inj posting).2.trans unposted.input
      · exact entry unposted.input
    · exact .ok (none_ unposted)
  · exact .ok (none_ unposted)

theorem Unposted.doAdminMode (unposted : Unposted s) :
    Prog.Returns (Posts req) (doAdminMode req s) := by
  rw [Bagunceiro.doAdminMode]
  refine Prog.Returns.bind (unposted.readQry (by intros; rfl)) fun _ unposted => ?_
  refine (Prog.Returns.self _).bind fun p _ => (Prog.Returns.self _).bind fun q _ => ?_
  refine Prog.Returns.bind (Unposted.readQry (Unposted.choose (Unposted.choose
    (unposted.choose (by intro; rfl) (by simp [Posting])) (by intro; rfl) (by simp [Posting]))
    (by intro; rfl) (by simp [Posting])) (by intros; rfl)) fun _ unposted => ?_
  exact (unposted.choose (by intro; rfl) (by simp [Posting])).parsePost

theorem Posts.parseLogout (posts : Posts req s) : Prog.Returns (Posts req) (parseLogout req s) := by
  rw [Bagunceiro.parseLogout]
  refine (Prog.Returns.self _).bind fun p _ => (Prog.Returns.self _).bind fun q _ => .ok ?_
  have posts := posts.send (f := ({ · with type := .qryNone, action := .qaLogin }))
    (c := p.code = retNoValue) (by simp [Posting])
  split
  · exact fun posting => absurd posting (by simp [Posting, Server.modQry, Server.modConf])
  · exact posts

end Unposted

/-- **A request that posts an entry posts the text of its form.** -/
theorem ensures_parseRequest_posts (req : HttpRequest) (s : Server) :
    Prog.Ensures handle (fun _ => True) (parseRequest req s) (fun s' _ => Posts req s')
      (fun _ => True) := by
  have fresh : Unposted (resetVariables req s) := ⟨rfl, not_posting_show⟩
  rw [parseRequest]
  refine Prog.Ensures.bind (ensures_written (fun s₁ parsed _ _ =>
    fresh.of_posting (parseCookie_posting rfl s₁ parsed)) fun _ _ => True.intro) fun s₁ =>
      Prog.Ensures.of_fact fun unposted => ?_
  refine Prog.Ensures.bind (ensures_written (fun s₂ parsed _ _ => unposted.parseQuery s₂ parsed)
    fun _ _ => True.intro) fun s₂ => Prog.Ensures.of_fact fun unposted => ?_
  refine Prog.Ensures.bind (ensures_written (fun s₃ parsed _ _ => unposted.doAdminMode s₃ parsed)
    fun _ _ => True.intro) fun s₃ => Prog.Ensures.of_fact fun posts => ?_
  rw [doAdminPassMode]
  refine Prog.Ensures.bind ((ensures_parseSid_keeps posting_of_query rfl).bind fun t =>
    Prog.Ensures.of_fact fun sid => (ensures_parseLogin_keeps posting_of_query sid).bind fun s₄ =>
      Prog.Ensures.of_fact fun login => ensures_written (fun s₅ parsed _ _ =>
        (posts.of_posting login).parseLogout s₅ parsed) fun _ _ => True.intro) fun s₅ =>
    Prog.Ensures.of_fact fun posts => Prog.Ensures.ret fun _ _ => ?_
  have stamp : Posts req (checkTs s₅) := by
    rw [checkTs]
    split
    · exact fun posting => absurd posting not_posting_show
    · exact posts
  have css : (checkCss req (checkTs s₅)).posting = (checkTs s₅).posting :=
    choice_keeps (fun _ => rfl) rfl
  exact stamp.of_posting css

/-! ## Requests -/

section Requests

variable {kind : Record → Prop}

theorem exec_validateSessionId_state (now : Taia) (buf : Bytes) (fs : Fs) :
    (exec (validateSessionId now buf) fs).2 = fs := by
  cases holds : fs.content sessionDb with
  | none => rw [exec_validateSessionId_absent now buf holds]
  | some c => rw [exec_validateSessionId now buf holds]

theorem exec_authConf_state (sha256 : Bytes → Bytes) (past : Nat → UInt8) (input : Bytes) (fs : Fs) :
    (exec (authConf sha256 past input) fs).2 = fs := by
  cases holds : fs.content confDb with
  | none => rw [exec_authConf_absent sha256 past input holds]
  | some c => rw [exec_authConf sha256 past input holds]

/-- Reading a request changes the sessions at most. -/
theorem onlyAdds_parseRequest (req : HttpRequest) (s : Server) :
    OnlyAdds kind (parseRequest req s) := by
  have login (buf : Bytes) : OnlyAdds kind
      (addSessionId req.loginMemory req.loginClk req.loginAt req.rand buf) := by
    rw [addSessionId_eq]
    exact (onlyAdds_cdbbModify _ _ _ fun same => absurd same (by decide)).bind fun err => .ret _
  have sid (s : Server) : OnlyAdds kind (parseSid req s) := by
    rw [parseSid]
    refine (OnlyAdds.written _).bind fun p => (OnlyAdds.written _).bind fun sid => ?_
    split
    · exact (OnlyAdds.of_reads (exec_validateSessionId_state _ _)).bind fun auth => .ret _
    · exact .ret _
  have token (s : Server) : OnlyAdds kind (parseLogin req s) := by
    rw [parseLogin]
    refine (OnlyAdds.written _).bind fun r => ?_
    obtain ⟨err, token, s₁⟩ := r
    simp only
    split
    · refine (OnlyAdds.of_reads (exec_authConf_state _ _ _)).bind fun auth => ?_
      split
      · refine (login _).bind fun added => ?_
        split <;> exact .ret _
      · exact .ret _
    · exact .ret _
  unfold parseRequest doAdminPassMode
  refine (OnlyAdds.written _).bind fun s₁ => (OnlyAdds.written _).bind fun s₂ =>
    (OnlyAdds.written _).bind fun s₃ => OnlyAdds.bind ?_ fun s₄ => .ret _
  exact (sid s₃).bind fun s₄ => (token s₄).bind fun s₅ => .written _

/-- The configuration is in a file of its own. -/
theorem onlyAdds_saveConfig (memory : Nat → Slot) (clk : Nat → Taia) (conf : Blog) :
    OnlyAdds kind (saveConfig memory clk conf) := by
  rw [saveConfig_eq]
  cases takeOver conf with
  | error e => exact (onlyAdds_cdbbStartMod memory confDb).bind fun opened => .fail _
  | ok saved =>
      refine (onlyAdds_cdbbModify memory clk [] fun same => absurd same (by decide)).bind fun err => ?_
      split
      · exact .ret _
      · exact .fail _

theorem onlyAdds_expireAllSessions : OnlyAdds kind expireAllSessions := by
  refine .of_content fun fs => ?_
  rw [exec_expireAllSessions]
  have other : dbFile ≠ sessionDb := by decide
  exact (Fs.content_install_ne _ other _).trans (Fs.content_unlink_ne _ other)

/-- What an action adds is the entry that is posted, and what keeps its index. -/
theorem onlyAdds_runAction (marks : ∀ r : Record, IsMark r.key → kind r) (req : HttpRequest) (k : Taia)
    (s : Server) (add : s.conf.qry.action = .qaAddPost → kind ⟨taiaPack req.entryAt, s.conf.qry.input⟩)
    (modify : s.conf.qry.action = .qaModifyPost → kind ⟨taiaPack k, s.conf.qry.input⟩) :
    OnlyAdds kind (runAction req k s) := by
  have change (batch : List Change) (f : Option Int → Server)
      (adds : ∀ c ∈ batch, c.request.t ≠ .del → kind c.request.record) :
      OnlyAdds kind (cdbbModify req.memory req.clk dbFile batch [] >>= fun err => .ret (f err)) :=
    (onlyAdds_cdbbModify _ _ [] fun _ => adds).bind fun err => .ret _
  rw [runAction]
  split
  · exact .ret _
  · exact .ret _
  · rename_i action
    exact change (addChanges req.leapsecs req.modifiedAt req.entryAt s.conf.qry.input) _
      (adds_addChanges marks req.leapsecs req.modifiedAt req.entryAt s.conf.qry.input
      (add action))
  · exact change (deleteChanges req.leapsecs req.modifiedAt k) _
      (adds_deleteChanges marks req.leapsecs req.modifiedAt k)
  · rw [modifyAction]
    refine (onlyAdds_cdbbOpenRead dbFile).bind fun opened => ?_
    cases opened with
    | none => exact .fail _
    | some r => exact (onlyAdds_cdbbReadNentry r _ _).bind fun _ => .ret _
  · rename_i action
    exact change (modifyChanges req.modifiedAt k s.conf.qry.input) _
      (adds_modifyChanges marks req.modifiedAt k s.conf.qry.input (modify action))
  · exact .ret _
  · exact (onlyAdds_saveConfig req.memory req.clk _).bind fun conf => .ret _
  · exact .ret _
  · exact onlyAdds_expireAllSessions.bind fun err => .ret _

/-- The gate sends to a page, or lets pass. -/
theorem branch_cases (s : Server) : branch s = s.conf.qry.action ∨ branch s = .qaShow := by
  unfold branch accessGate
  dsimp only
  split_ifs <;> first | exact .inl rfl | exact .inr rfl

theorem accessGate_input (s : Server) :
    (accessGate s).conf.qry.input = s.conf.qry.input := by
  unfold accessGate
  dsimp only
  split_ifs <;> rfl

/-- **A request adds the record it asks for, and what keeps its index.** -/
theorem onlyAdds_serve (marks : ∀ r : Record, IsMark r.key → kind r) (req : HttpRequest) (s : Server)
    (entry : ∀ r, req.record = some r → kind r) : OnlyAdds kind (serve req s) := by
  have parsed : Prog.Ensures handle (Stems kind) (parseRequest req s)
      (fun s' t => (Posts req s' ∧ s'.conf.qry.ts = inflateTs (formStamp req) ∧
        (branch s' = formAction req ∨ Elsewhere (branch s'))) ∧ Stems kind t) (Stems kind) := by
    refine .of_run (fun fs s' t stems ran => ?_) fun fs e t stems ran =>
      (onlyAdds_parseRequest req s).of_error stems ran
    obtain ⟨stamp, -, order⟩ := parseRequest_order ran
    exact ⟨⟨(ensures_parseRequest_posts req s).of_ok True.intro ran, stamp, order⟩,
      (onlyAdds_parseRequest req s).of_ok stems ran⟩
  rw [serve]
  refine parsed.bind fun s' => ?_
  rintro t ⟨⟨posts, stamp, order⟩, stems⟩
  have formed {action : Qaction} (posting : Posting action) (is : branch s' = action) :
      formAction req = action ∧ s'.conf.qry.input = formText req := by
    rcases order with same | elsewhere
    · refine ⟨same.symm.trans is, posts ?_⟩
      rcases branch_cases s' with passed | shown
      · rwa [← passed, is]
      · rw [← is, shown] at posting
        exact absurd posting not_posting_show
    · rw [is] at elsewhere
      rcases posting with rfl | rfl <;> rcases elsewhere with is | is | is <;> cases is
  refine onlyAdds_runAction marks req _ _ (fun action => ?_) (fun action => ?_) t stems
  · obtain ⟨form, text⟩ := formed (.inl rfl) action
    rw [accessGate_input, text]
    exact entry _ (by rw [HttpRequest.record, form])
  · obtain ⟨form, text⟩ := formed (.inr rfl) action
    rw [accessGate_input, text, stamp]
    exact entry _ (by rw [HttpRequest.record, form])

end Requests

/-! ## The command line -/

section Command

variable {kind : Record → Prop} (env : CmdEnv) (cmd : Cmd)

theorem onlyAdds_change {queue : Cdbb → Cdbb} (batch : List Change)
    (queued : ∀ a, queue a = queueAll batch [] a)
    (adds : ∀ c ∈ batch, c.request.t ≠ .del → kind c.request.record) :
    OnlyAdds kind (cmd.change env queue) := by
  have whole : cmd.change env queue =
      (cdbbModify env.memory env.clk (cstr cmd.db) batch [] >>= fun err =>
        err.elim (.fail .uninitialised) .ret) := by
    rw [Cmd.change, cdbbModify]
    rw [Prog.bind_assoc]
    refine congrArg _ (funext fun opened => ?_)
    cases opened with
    | none => rfl
    | some a =>
        show cdbbApply env.clk (queue a) = (cdbbApply env.clk _ >>= _) >>= _
        rw [Prog.bind_assoc, queued]
        exact (Prog.bind_ret _).symm
  rw [whole]
  refine (onlyAdds_cdbbModify _ _ [] fun _ => adds).bind fun err => ?_
  cases err with
  | none => exact .fail _
  | some n => exact .ret _

theorem onlyAdds_print (k : Bytes) : OnlyAdds kind (cmd.print env k) := by
  rw [Cmd.print]
  refine (onlyAdds_cdbbOpenRead _).bind fun opened => ?_
  cases opened with
  | none => exact .fail _
  | some r => exact (onlyAdds_cdbbReadNentry r k _).bind fun n => .ret _

/-- **A command adds the record it asks for, and what keeps its index.** -/
theorem onlyAdds_run (marks : ∀ r : Record, IsMark r.key → kind r)
    (entry : ∀ r, cmd.record env = some r → kind r) : OnlyAdds kind (cmd.run env) := by
  have change (batch : List Change) {queue : Cdbb → Cdbb} (queued : ∀ a, queue a = queueAll batch [] a)
      (adds : ∀ c ∈ batch, c.request.t ≠ .del → kind c.request.record) :
      OnlyAdds kind (cmd.change env queue) := onlyAdds_change env cmd batch queued adds
  rw [Cmd.run]
  split
  · exact .ret _
  · split
    · rename_i action
      have asks : cmd.record env = some ⟨taiaPack env.entryAt, cmd.text env⟩ := by
        rw [Cmd.record, action]
      exact change (addChanges env.leapsecs env.modifiedAt env.entryAt (cmd.text env))
        (fun a => addEntryNow_eq _ _ _ a _) (adds_addChanges marks _ _ _ _ (entry _ asks))
    · rename_i action mode
      have asks : cmd.record env = some ⟨taiaPack (cmd.stamp env), cmd.text env⟩ := by
        simp only [Cmd.record, action, mode, if_true]
      exact change (addChanges env.leapsecs env.modifiedAt (cmd.stamp env) (cmd.text env))
        (fun a => addEntry_eq _ _ a _ _) (adds_addChanges marks _ _ _ _ (entry _ asks))
    · rename_i action mode
      have asks : cmd.record env = some ⟨cstr cmd.skey, cmd.value⟩ := by
        simp only [Cmd.record, action, mode, reduceCtorEq, if_false]
      exact change [.add (cstr cmd.skey) cmd.value] (fun a => rfl)
        (List.forall_mem_singleton.2 fun _ => entry _ asks)
    · exact change (deleteChanges env.leapsecs env.modifiedAt (cmd.stamp env))
        (fun a => deleteEntry_eq _ _ a _) (adds_deleteChanges marks _ _ _)
    · exact change [.del (cstr cmd.skey)] (fun a => rfl)
        (List.forall_mem_singleton.2 fun adding => absurd rfl adding)
    · exact onlyAdds_print env cmd _
    · exact onlyAdds_print env cmd _
    · rename_i action mode
      have asks : cmd.record env = some ⟨taiaPack (cmd.stamp env), cmd.value⟩ := by
        simp only [Cmd.record, action, mode, if_true]
      exact change (modifyChanges env.modifiedAt (cmd.stamp env) cmd.value)
        (fun a => modifyEntry_eq _ a _ _) (adds_modifyChanges marks _ _ _ (entry _ asks))
    · rename_i action mode
      have asks : cmd.record env = some ⟨cstr cmd.skey, cmd.string env⟩ := by
        simp only [Cmd.record, action, mode, reduceCtorEq, if_false]
      split
      · exact (onlyAdds_cdbbStartMod _ _).bind fun _ => .fail _
      · exact change [.mod (cstr cmd.skey) (cmd.string env)] (fun a => rfl)
          (List.forall_mem_singleton.2 fun _ => entry _ asks)
    · exact .ret _

theorem onlyAdds_blogger (marks : ∀ r : Record, IsMark r.key → kind r) (options : List CmdOption)
    (entry : ∀ cmd r, Cmd.parse env.sha256 options (Cmd.start env.skey env.stdin) = .ok cmd →
      cmd.record env = some r → kind r) : OnlyAdds kind (blogger env options) := by
  rw [blogger]
  cases parsed : Cmd.parse env.sha256 options (Cmd.start env.skey env.stdin) with
  | error e => exact .fail _
  | ok cmd => exact onlyAdds_run env cmd marks fun r => entry cmd r parsed

end Command

/-! ## Runs -/

/-- What can be run: the server serves a request, in whatever state it is, or a
command is given. -/
inductive Write
  | request (req : HttpRequest) (s : Server)
  | command (env : CmdEnv) (options : List CmdOption)

namespace Write

/-- The files after it has ended, or has been ended. -/
def files (fs : Fs) : Write → Fs
  | .request req s => (exec (serve req s) fs).2
  | .command env options => (exec (blogger env options) fs).2

/-- The text it gives an entry, under the key of the entry. -/
def record : Write → Option Record
  | .request req _ => req.record
  | .command env options =>
      match Cmd.parse env.sha256 options (Cmd.start env.skey env.stdin) with
      | .ok cmd => cmd.record env
      | .error _ => none

theorem stems_files {kind : Record → Prop} (marks : ∀ r : Record, IsMark r.key → kind r) (w : Write)
    (entry : ∀ r, w.record = some r → kind r) {fs : Fs} (stems : Stems kind fs) :
    Stems kind (w.files fs) := by
  cases w with
  | request req s => exact (onlyAdds_serve marks req s entry).state stems
  | command env options =>
      refine (onlyAdds_blogger env marks options fun cmd r parsed is => entry r ?_).state stems
      simp only [record, parsed, is]

end Write

def filesAfter (fs : Fs) (writes : List Write) : Fs := writes.foldl Write.files fs

/-- **In every run from an empty blog, every record that is no mark is what some
request or command gave as the text of an entry.** -/
theorem stems_filesAfter {fs : Fs} (blank : Stems (fun _ => False) fs) (writes : List Write) :
    Stems (fun r => IsMark r.key ∨ ∃ w ∈ writes, w.record = some r) (filesAfter fs writes) := by
  have run {kind : Record → Prop} (marks : ∀ r : Record, IsMark r.key → kind r)
      (ws : List Write) : ∀ {fs : Fs}, Stems kind fs → (∀ w ∈ ws, ∀ r, w.record = some r → kind r) →
      Stems kind (filesAfter fs ws) := by
    induction ws with
    | nil => exact fun stems _ => stems
    | cons w ws ih =>
        intro fs stems entry
        rw [List.forall_mem_cons] at entry
        exact ih (w.stems_files marks entry.1 stems) entry.2
  exact run (fun r => .inl) writes (blank.mono fun _ => False.elim)
    fun w member r is => .inr ⟨w, member, is⟩

end Bagunceiro
