/-
# TwoRuns -- one request, served in two states

Two servers that a later request cannot tell apart (`Server.surviving`), over
files it cannot tell apart (`FilesAlike`), are served the same request: both
serve it, and are again alike, or both stop (`agree_serve`).  What automatic
variables and fresh memory hold may differ between the two.

Parsing keeps the servers equal up to `Server.core`, which leaves out what
neither a page's frame nor the configuration is made of.
-/
import Bagunceiro.Requests

namespace Bagunceiro

open Effect Prog

set_option autoImplicit false

/-! ## What two servers have in common -/

namespace Server

/-- What a request leaves for later ones to show or to store. -/
def surviving (s : Server) : Server where
  conf :=
    { blogInit with
      title := s.conf.title
      tagline := s.conf.tagline
      sbox := s.conf.sbox
      qry :=
        { blogInit.qry with
          title := s.conf.qry.title
          tagline := s.conf.qry.tagline
          pass := s.conf.qry.pass
          find := s.conf.qry.find } }
  gerr := s.gerr

/-- A server without its privileges and without what a request selects anew: the
tag, the month and the style sheet. -/
def core (s : Server) : Server :=
  { s with
    conf :=
      { s.conf with
        auth := false
        authtype := .authNone
        sid := []
        qry :=
          { s.conf.qry with
            tag := []
            mon := blogInit.qry.mon
            css := []
            csstype := .cssDefault } } }

theorem surviving_core (s : Server) : s.core.surviving = s.surviving := rfl

/-- The reset at the top of the loop takes everything else away. -/
theorem core_resetVariables (req : HttpRequest) (s : Server) :
    (resetVariables req s).core = (resetVariables req s.surviving).core := rfl

theorem core_noted (s : Server) (p : Param) : (s.noted p).core = (s.core.noted p).core := by
  unfold noted
  split <;> rfl

variable {s t : Server}

/-- A step that respects the core keeps two servers alike. -/
theorem core_step {f : Server → Server} (respects : ∀ s, (f s).core = (f s.core).core)
    (same : s.core = t.core) : (f s).core = (f t).core := by
  rw [respects s, same, ← respects t]

theorem core_modQry {f : Query → Query} (respects : ∀ s, (modQry s f).core = (modQry s.core f).core)
    (same : s.core = t.core) : (s.modQry f).core = (t.modQry f).core :=
  core_step respects same

theorem core_ite_modQry {c : Prop} [Decidable c] {f : Query → Query}
    (respects : ∀ s, (modQry s f).core = (modQry s.core f).core) (same : s.core = t.core) :
    (if c then s.modQry f else s).core = (if c then t.modQry f else t).core := by
  split
  · exact core_modQry respects same
  · exact same

theorem core_modConf {f : Blog → Blog} (respects : ∀ s, (modConf s f).core = (modConf s.core f).core)
    (same : s.core = t.core) : (s.modConf f).core = (t.modConf f).core :=
  core_step respects same

theorem action_congr (same : s.core = t.core) : s.conf.qry.action = t.conf.qry.action := by
  show s.core.conf.qry.action = t.core.conf.qry.action
  rw [same]

theorem core_noted_congr (same : s.core = t.core) (p : Param) :
    (s.noted p).core = (t.noted p).core :=
  core_step (fun s => core_noted s p) same

end Server

/-! ## The parsers -/

section Parsers

variable (req : HttpRequest) {s t : Server}

theorem readQry_alike (site : Site) (size : Nat) {get : Query → Bytes}
    {set : Bytes → Query → Query}
    (respects : ∀ (s : Server) (w : Bytes),
      (s.modQry (set (w ++ (get s.conf.qry).drop w.length))).core =
        (s.core.modQry (set (w ++ (get s.core.conf.qry).drop w.length))).core)
    (same : s.core = t.core) :
    Alike (fun a b => a.1 = b.1 ∧ a.2.core = b.2.core)
      (readQry req site size get set s) (readQry req site size get set t) := by
  unfold readQry
  cases site.get req with
  | error e => exact True.intro
  | ok p =>
      show Alike _ (store size _ p.write >>= _) (store size _ p.write >>= _)
      unfold store
      split
      · refine ⟨rfl, Server.core_noted_congr ?_ p⟩
        rw [respects s p.write, same, ← respects t p.write]
      · exact True.intro

theorem readLocal_related (site : Site) (size : Nat) (rel : Server → Server → Prop)
    (noted : ∀ p, rel (s.noted p) (t.noted p)) :
    Alike (fun a b => a.1 = b.1 ∧ a.2.1 = b.2.1 ∧ rel a.2.2 b.2.2)
      (readLocal req site size s) (readLocal req site size t) := by
  unfold readLocal
  cases site.get req with
  | error e => exact True.intro
  | ok p =>
      show Alike _ (store size [] p.write >>= _) (store size [] p.write >>= _)
      cases store size [] p.write with
      | error e => exact True.intro
      | ok buffer => exact ⟨rfl, rfl, noted p⟩

theorem readLocal_alike (site : Site) (size : Nat) (same : s.core = t.core) :
    Alike (fun a b => a.1 = b.1 ∧ a.2.1 = b.2.1 ∧ a.2.2.core = b.2.2.core)
      (readLocal req site size s) (readLocal req site size t) :=
  readLocal_related req site size (fun s t => s.core = t.core) (Server.core_noted_congr same)

theorem readTs_alike (site : Site) (same : s.core = t.core) :
    Alike (fun a b => a.1 = b.1 ∧ a.2.core = b.2.core) (readTs req site s) (readTs req site t) :=
  readQry_alike req site fmtTaiaHex (fun _ _ => rfl) same

theorem readCss_alike (site : Site) (same : s.core = t.core) :
    Alike (fun a b => a.1 = b.1 ∧ a.2.core = b.2.core) (readCss req site s) (readCss req site t) :=
  readQry_alike req site sizeHttpArg (fun _ _ => rfl) same

theorem parseCookie_alike (same : s.core = t.core) :
    Alike (fun s t => s.core = t.core) (parseCookie req s) (parseCookie req t) := by
  rw [parseCookie]
  apply Alike.bind (readCss_alike req cookieCss same)
  rintro ⟨err, s₁⟩ ⟨_, t₁⟩ ⟨rfl, same⟩
  exact Server.core_ite_modQry (fun _ => rfl) same

theorem parseQuery_alike (same : s.core = t.core) :
    Alike (fun s t => s.core = t.core) (parseQuery req s) (parseQuery req t) := by
  rw [parseQuery]
  apply Alike.bind (readTs_alike req queryTs same)
  rintro ⟨err, s₁⟩ ⟨_, t₁⟩ ⟨rfl, same⟩
  refine Alike.bind (readQry_alike req queryQry sizeFindStr (fun _ _ => rfl)
    (Server.core_ite_modQry (fun _ => rfl) same)) ?_
  rintro ⟨err, s₂⟩ ⟨_, t₂⟩ ⟨rfl, same⟩
  refine Alike.bind (readQry_alike req queryTag sizeFindStr (fun _ _ => rfl)
    (Server.core_ite_modQry (fun _ => rfl) same)) ?_
  rintro ⟨err, s₃⟩ ⟨_, t₃⟩ ⟨rfl, same⟩
  refine Alike.bind (readCss_alike req queryCss (Server.core_ite_modQry (fun _ => rfl) same)) ?_
  rintro ⟨err, s₄⟩ ⟨_, t₄⟩ ⟨rfl, same⟩
  refine Alike.bind (readLocal_alike req queryFmt _ (Server.core_ite_modQry (fun _ => rfl)
    (Server.core_ite_modQry (fun _ => rfl) same))) ?_
  rintro ⟨err, buf, s₅⟩ ⟨_, _, t₅⟩ ⟨rfl, rfl, same⟩
  refine Alike.bind (readLocal_alike req queryMonth _
    (Server.core_ite_modQry (fun _ => rfl) same)) ?_
  rintro ⟨err, buf, s₆⟩ ⟨_, _, t₆⟩ ⟨rfl, rfl, same⟩
  show Server.core (if err = paramSuccess then _ else _) =
    Server.core (if err = paramSuccess then _ else _)
  split
  · exact Server.core_modQry (fun _ => rfl) same
  · exact Server.core_modQry (fun _ => rfl) same

theorem parseConfigPost_alike (same : s.core = t.core) :
    Alike (fun s t => s.core = t.core) (parseConfigPost req s) (parseConfigPost req t) := by
  rw [parseConfigPost]
  refine Alike.bind (readQry_alike req postTitle sizeHttpArg (fun _ _ => rfl) same) ?_
  rintro ⟨err, s₁⟩ ⟨_, t₁⟩ ⟨rfl, same⟩
  refine Alike.bind (readQry_alike req postTagline sizeTagline (fun _ _ => rfl) same) ?_
  rintro ⟨err, s₂⟩ ⟨_, t₂⟩ ⟨rfl, same⟩
  refine Alike.bind (readQry_alike req postPass sizeHttpArg (fun _ _ => rfl) same) ?_
  rintro ⟨err, s₃⟩ ⟨_, t₃⟩ ⟨rfl, same⟩
  cases postSearchbox.get req with
  | error e => exact True.intro
  | ok p =>
      have sbox := Server.core_noted_congr
        (Server.core_modConf (f := fun conf => { conf with sbox := p.write.headD conf.sbox })
          (fun _ => rfl) same) p
      show Server.core (if p.code = retNotFound then _ else _) =
        Server.core (if p.code = retNotFound then _ else _)
      split
      · exact Server.core_modConf (fun _ => rfl) sbox
      · exact sbox

theorem parseEntryPost_alike (same : s.core = t.core) :
    Alike (fun s t => s.core = t.core) (parseEntryPost req s) (parseEntryPost req t) := by
  rw [parseEntryPost]
  apply Alike.bind (readLocal_alike req postInput _ same)
  rintro ⟨err, parg, s₁⟩ ⟨_, _, t₁⟩ ⟨rfl, rfl, same⟩
  by_cases success : err = paramSuccess
  · simp only [if_pos success]
    refine Alike.bind (readTs_alike req postKey (Server.core_modQry (fun _ => rfl) same)) ?_
    rintro ⟨err, s₂⟩ ⟨_, t₂⟩ ⟨rfl, same⟩
    exact same
  · simp only [if_neg success]
    exact same

theorem parsePost_alike (same : s.core = t.core) :
    Alike (fun s t => s.core = t.core) (parsePost req s) (parsePost req t) := by
  unfold parsePost
  split
  · apply Alike.bind (readLocal_alike req postAction 30 same)
    rintro ⟨err, tmp, s₁⟩ ⟨_, _, t₁⟩ ⟨rfl, rfl, same⟩
    by_cases success : err = paramSuccess
    · simp only [if_pos success]
      have rest {s t : Server} (same : s.core = t.core) :
          Alike (fun s t : Server => s.core = t.core)
            (if s.conf.qry.action = .qaAddPost ∨ s.conf.qry.action = .qaModifyPost then
              parseEntryPost req s else pure s : Except Fault Server)
            (if t.conf.qry.action = .qaAddPost ∨ t.conf.qry.action = .qaModifyPost then
              parseEntryPost req t else pure t) := by
        rw [Server.action_congr same]
        split
        · exact parseEntryPost_alike req same
        · exact same
      have known {s t : Server} (same : s.core = t.core) :
          Alike (fun s t : Server => s.core = t.core) (pure s : Except Fault Server) (pure t) := same
      split_ifs
      · exact Alike.bind (known (Server.core_modQry (fun _ => rfl) same)) fun _ _ => rest
      · exact Alike.bind (known (Server.core_modQry (fun _ => rfl) same)) fun _ _ => rest
      · exact Alike.bind (parseConfigPost_alike req (Server.core_modQry (fun _ => rfl) same))
          fun _ _ => rest
      · exact rest same
    · simp only [if_neg success]
      exact same
  · exact same

theorem doAdminMode_alike (same : s.core = t.core) :
    Alike (fun s t => s.core = t.core) (doAdminMode req s) (doAdminMode req t) := by
  rw [doAdminMode]
  apply Alike.bind (readTs_alike req queryDel same)
  rintro ⟨err, s₁⟩ ⟨_, t₁⟩ ⟨rfl, same⟩
  apply Alike.bind (.refl (queryAdd.get req))
  rintro p _ rfl
  apply Alike.bind (.refl (queryConfig.get req))
  rintro q _ rfl
  refine Alike.bind (readTs_alike req queryMod (Server.core_ite_modQry (fun _ => rfl)
    (Server.core_ite_modQry (fun _ => rfl) (Server.core_ite_modQry (fun _ => rfl) same)))) ?_
  rintro ⟨err, s₂⟩ ⟨_, t₂⟩ ⟨rfl, same⟩
  exact parsePost_alike req (Server.core_ite_modQry (fun _ => rfl) same)

/-! ## The last steps of a round -/

theorem checkTs_core (same : s.core = t.core) : (checkTs s).core = (checkTs t).core := by
  refine Server.core_step (fun s => ?_) same
  unfold checkTs
  split
  · rename_i shown
    rw [if_pos (show s.core.conf.qry.type = .qryTs ∧ ¬ verifyTs s.core.conf.qry.ts from shown)]
    rfl
  · rename_i fine_
    rw [if_neg (show ¬ (s.core.conf.qry.type = .qryTs ∧ ¬ verifyTs s.core.conf.qry.ts) from fine_)]
    rfl

theorem checkCss_core (s : Server) : (checkCss req s).core = s.core := by
  rw [checkCss]
  split <;> rfl

end Parsers

/-- Two servers alike, privileges included. -/
structure Matching (s t : Server) : Prop where
  core : s.core = t.core
  auth : s.conf.auth = t.conf.auth
  authtype : s.conf.authtype = t.conf.authtype

theorem Matching.modQry {s t : Server} (matching : Matching s t) {f : Query → Query}
    (respects : ∀ s : Server, (s.modQry f).core = (s.core.modQry f).core) :
    Matching (s.modQry f) (t.modQry f) :=
  ⟨Server.core_modQry respects matching.core, matching.auth, matching.authtype⟩

theorem Matching.setErr {s t : Server} (matching : Matching s t) (msg : Bytes) (num : Int)
    (type : Notice) : Matching (s.setErr msg num type) (t.setErr msg num type) := by
  refine ⟨?_, matching.auth, matching.authtype⟩
  show (s.core.setErr msg num type).core = (t.core.setErr msg num type).core
  rw [matching.core]

theorem Matching.noted {s t : Server} (matching : Matching s t) (p : Param) :
    Matching (s.noted p) (t.noted p) := by
  unfold Server.noted
  split
  · exact matching.setErr _ _ _
  · exact matching

/-- The same privileges are given to both. -/
theorem Matching.modConf {s t : Server} (matching : Matching s t) {f g : Blog → Blog}
    (left : (s.modConf f).core = s.core) (right : (t.modConf g).core = t.core)
    (auth : (f s.conf).auth = (g t.conf).auth)
    (authtype : (f s.conf).authtype = (g t.conf).authtype) :
    Matching (s.modConf f) (t.modConf g) :=
  ⟨left.trans (matching.core.trans right.symm), auth, authtype⟩

theorem parseLogout_alike (req : HttpRequest) {s t : Server} (matching : Matching s t) :
    Alike Matching (parseLogout req s) (parseLogout req t) := by
  rw [parseLogout]
  apply Alike.bind (.refl (queryLogin.get req))
  rintro p _ rfl
  apply Alike.bind (.refl (queryLogout.get req))
  rintro q _ rfl
  have login : Matching
      (if p.code = retNoValue then s.modQry ({ · with type := .qryNone, action := .qaLogin }) else s)
      (if p.code = retNoValue then t.modQry ({ · with type := .qryNone, action := .qaLogin })
        else t) := by
    split
    · exact matching.modQry fun _ => rfl
    · exact matching
  show Matching (if q.code = retNoValue then _ else _) (if q.code = retNoValue then _ else _)
  split
  · have logout := login.modQry (f := ({ · with action := .qaLogout })) fun _ => rfl
    exact logout.modConf rfl rfl rfl logout.authtype
  · exact login

/-! ## Files -/

/-- Files alike: the configuration and the sessions are the same, and the blog
is there, and readable, in both or in neither. -/
structure FilesAlike (fs t : Fs) : Prop where
  conf : fs.content confDb = t.content confDb
  sessions : fs.content sessionDb = t.content sessionDb
  blog : (fs.content dbFile).map (·.records.isSome) = (t.content dbFile).map (·.records.isSome)

/-- A change of one path, the same in both. -/
theorem FilesAlike.of_content {fs t fs' t' : Fs} (alike : FilesAlike fs t) {f : Path}
    (at_ : fs'.content f = t'.content f)
    (left : ∀ p, p ≠ f → p ≠ tmpName f → fs'.content p = fs.content p)
    (right : ∀ p, p ≠ f → p ≠ tmpName f → t'.content p = t.content p)
    (apart : ∀ p ∈ [confDb, sessionDb, dbFile], p ≠ tmpName f) : FilesAlike fs' t' := by
  have same {α : Type} (g : Option Content → α) {p : Path} (ne : p ≠ tmpName f)
      (before : g (fs.content p) = g (t.content p)) :
      g (fs'.content p) = g (t'.content p) := by
    by_cases here : p = f
    · rw [here, at_]
    · rw [left p here ne, right p here ne, before]
  exact ⟨same id (apart _ (by simp)) alike.conf, same id (apart _ (by simp)) alike.sessions,
    same (·.map (·.records.isSome)) (apart _ (by simp)) alike.blog⟩

/-- The outcome of a posed batch does not depend on memory. -/
theorem modifyOutcome_posed {clk : Nat → Taia} {batch : List Change} {fil : List Filter}
    (posed : ∀ old, Posed batch old) (memory memory' : Nat → Slot) (c : Option Content) :
    modifyOutcome memory clk batch fil c = modifyOutcome memory' clk batch fil c := by
  cases c with
  | none => rfl
  | some c =>
      by_cases room : Room batch fil
      · cases file : c.records with
        | none => rw [modifyOutcome_torn memory clk room file, modifyOutcome_torn memory' clk room file]
        | some old =>
            rw [modifyOutcome_of_records memory clk room file,
              modifyOutcome_of_records memory' clk room file, newRecords_eq memory fil clk (posed old),
              newRecords_eq memory' fil clk (posed old)]
      · rw [modifyOutcome_overrun memory clk room, modifyOutcome_overrun memory' clk room]

/-- The same change of the configuration or of the sessions. -/
theorem agree_cdbbModify {clk : Nat → Taia} {batch : List Change} {fil : List Filter}
    (posed : ∀ old, Posed batch old) (memory memory' : Nat → Slot) {f : Path}
    (kept : f = confDb ∨ f = sessionDb) :
    Agree handle FilesAlike (cdbbModify memory clk f batch fil) (cdbbModify memory' clk f batch fil)
      (fun a b fs t => a = b ∧ FilesAlike fs t) := by
  intro fs t alike
  have same : fs.content f = t.content f := by
    rcases kept with rfl | rfl
    · exact alike.conf
    · exact alike.sessions
  have apart : ∀ p ∈ [confDb, sessionDb, dbFile], p ≠ tmpName f := by
    rcases kept with rfl | rfl <;> decide
  obtain ⟨left, leftOthers⟩ := exec_cdbbModify memory clk f batch fil fs
  obtain ⟨right, rightOthers⟩ := exec_cdbbModify memory' clk f batch fil t
  rw [same, modifyOutcome_posed posed memory memory'] at left
  obtain ⟨result, content⟩ := Prod.mk.inj (left.trans right.symm)
  rw [exec] at result
  rw [result]
  refine (Alike.refl _).mono fun a b equal => ⟨equal, ?_⟩
  exact alike.of_content content leftOthers rightOthers apart

/-- Both counts are there, or neither, and counts they are. -/
structure Counted (a b : Option Int) : Prop where
  isSome : a.isSome = b.isSome
  left : ∀ n ∈ a, 0 ≤ n
  right : ∀ n ∈ b, 0 ≤ n

theorem Counted.none : Counted none none := by
  refine ⟨rfl, ?_, ?_⟩ <;> intro n absent <;> cases absent

theorem Counted.some (m n : Nat) : Counted (some (m : Int)) (some (n : Int)) := by
  constructor
  · rfl
  · intro k is
    cases is
    exact Int.natCast_nonneg m
  · intro k is
    cases is
    exact Int.natCast_nonneg n

/-- On contents alike, two batches that replace a record have outcomes alike. -/
theorem modifyOutcome_alike (clk : Nat → Taia) {batch batch' : List Change} {k v : Bytes}
    (replaces : Change.rep k v ∈ batch) (replaces' : Change.rep k v ∈ batch')
    (room : Room batch []) (room' : Room batch' [])
    (memory memory' : Nat → Slot) {c c' : Option Content}
    (shape : c.map (·.records.isSome) = c'.map (·.records.isSome)) :
    let left := modifyOutcome memory clk batch [] c
    let right := modifyOutcome memory' clk batch' [] c'
    Alike (fun a b => Counted a b ∧
      left.2.map (·.records.isSome) = right.2.map (·.records.isSome)) left.1 right.1 := by
  cases c with
  | none =>
      cases c' with
      | none => exact ⟨.none, rfl⟩
      | some c' => cases shape
  | some c =>
      cases c' with
      | none => cases shape
      | some c' =>
          rw [Option.map_some, Option.map_some, Option.some.injEq] at shape
          cases file : c.records with
          | none =>
              have torn : c'.records = none := by
                rw [file, Option.isSome_none] at shape
                exact Option.isSome_eq_false_iff.1 shape.symm |> Option.isNone_iff_eq_none.1
              rw [modifyOutcome_torn memory clk room file, modifyOutcome_torn memory' clk room' torn]
              exact True.intro
          | some old =>
              obtain ⟨old', file'⟩ : ∃ old', c'.records = some old' := by
                rw [file, Option.isSome_some] at shape
                exact Option.isSome_iff_exists.1 shape.symm
              rw [modifyOutcome_of_records memory clk room file,
                modifyOutcome_of_records memory' clk room' file',
                if_neg (newRecords_ne_nil memory [] clk replaces old),
                if_neg (newRecords_ne_nil memory' [] clk replaces' old')]
              exact ⟨.some _ _, rfl⟩

/-- Two changes of the blog: both are made, or neither. -/
theorem agree_changeBlog (clk : Nat → Taia) {batch batch' : List Change} {k v : Bytes}
    (replaces : Change.rep k v ∈ batch) (replaces' : Change.rep k v ∈ batch')
    (room : Room batch []) (room' : Room batch' []) (memory memory' : Nat → Slot) :
    Agree handle FilesAlike (cdbbModify memory clk dbFile batch [])
      (cdbbModify memory' clk dbFile batch' [])
      (fun a b fs t => Counted a b ∧ FilesAlike fs t) := by
  intro fs t alike
  obtain ⟨left, leftOthers⟩ := exec_cdbbModify memory clk dbFile batch [] fs
  obtain ⟨right, rightOthers⟩ := exec_cdbbModify memory' clk dbFile batch' [] t
  obtain ⟨leftResult, leftContent⟩ := Prod.mk.inj left
  obtain ⟨rightResult, rightContent⟩ := Prod.mk.inj right
  have others {p : Path} (ne : p ≠ dbFile) (neTmp : p ≠ tmpName dbFile)
      (before : fs.content p = t.content p) :
      (exec (cdbbModify memory clk dbFile batch []) fs).2.content p =
        (exec (cdbbModify memory' clk dbFile batch' []) t).2.content p := by
    rw [leftOthers p ne neTmp, rightOthers p ne neTmp, before]
  have outcome := modifyOutcome_alike clk replaces replaces' room room' memory memory'
    alike.blog
  rw [exec] at leftResult rightResult
  rw [leftResult, rightResult]
  refine outcome.mono fun a b shape => ⟨shape.1, ?_⟩
  constructor
  · exact others (by decide) (by decide) alike.conf
  · exact others (by decide) (by decide) alike.sessions
  · rw [exec] at leftContent rightContent
    rw [leftContent, rightContent]
    exact shape.2

end Bagunceiro
