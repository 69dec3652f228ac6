/-
# Titles -- the title behind a session id

The array of the title follows that of the session id in `blog_t`.  A page is headed
by the title of the configuration, but for a form that was accepted just now
(`ensures_handleQuery_title`): `save_config` takes over what is in `conf->qry.title`.
That is the title of the form, over what an earlier form has left there
(`ensures_parseRequest_title`).
-/
import Bagunceiro.Orders

namespace Bagunceiro

open Effect

set_option autoImplicit false

/-- What a configuration form leaves in `conf->qry.title`. -/
def formTitle (req : HttpRequest) (title : Bytes) : Bytes :=
  if postedAction req = some (str "config") then postTitle.onto req title else title

/-- What `save_config` makes of the title: an empty one is not taken over. -/
def savedTitle (posted title : Bytes) : Bytes :=
  if cstr posted ≠ [] then cstr posted ++ 0 :: title.drop ((cstr posted).length + 1) else title

/-! ## The title of the form -/

def Server.formTitle (s : Server) : Bytes := s.conf.qry.title

theorem formTitle_of_query {s t : Server} (qry : t.conf.qry = s.conf.qry)
    (_ : t.conf.now = s.conf.now) : t.formTitle = s.formTitle := congrArg Query.title qry

theorem formTitle_of_conf {s t : Server} (same : t.conf = s.conf) : t.formTitle = s.formTitle :=
  congrArg (·.qry.title) same

section Parsing

variable {req : HttpRequest} {s : Server} {title : Bytes}

theorem parseCookie_formTitle (same : s.formTitle = title) :
    Prog.Returns (fun s' => s'.formTitle = title) (parseCookie req s) := by
  rw [parseCookie]
  refine Prog.Returns.bind (readQry_keeps formTitle_of_conf (by intros; rfl) same)
    fun _ same => .ok ?_
  exact choice_keeps (fun _ => rfl) same

theorem parseQuery_formTitle (same : s.formTitle = title) :
    Prog.Returns (fun s' => s'.formTitle = title) (parseQuery req s) := by
  rw [parseQuery]
  refine Prog.Returns.bind (readQry_keeps formTitle_of_conf (by intros; rfl) same)
    fun _ same => ?_
  refine Prog.Returns.bind (readQry_keeps formTitle_of_conf (by intros; rfl)
    (choice_keeps (fun _ => rfl) same)) fun _ same => ?_
  refine Prog.Returns.bind (readQry_keeps formTitle_of_conf (by intros; rfl)
    (choice_keeps (fun _ => rfl) same)) fun _ same => ?_
  refine Prog.Returns.bind (readQry_keeps formTitle_of_conf (by intros; rfl)
    (choice_keeps (fun _ => rfl) same)) fun _ same => ?_
  refine Prog.Returns.bind (readLocal_keeps formTitle_of_conf
    (choice_keeps (fun _ => rfl) (choice_keeps (fun _ => rfl) same))) fun _ same => ?_
  refine Prog.Returns.bind (readLocal_keeps formTitle_of_conf (choice_keeps (fun _ => rfl) same))
    fun _ same => .ok ?_
  split
  · exact same
  · exact today_keeps (fun _ _ => rfl) same _

/-- Only the first of the parameters of the form is the title. -/
theorem parseConfigPost_formTitle (same : s.formTitle = title) :
    Prog.Returns (fun s' => s'.formTitle = postTitle.onto req title) (parseConfigPost req s) := by
  rw [parseConfigPost]
  have first : Prog.Returns (fun r => r.2.formTitle = postTitle.onto req title)
      (readQry req postTitle sizeHttpArg (·.title) (fun b q => { q with title := b }) s) := by
    rw [readQry]
    refine (Prog.Returns.self _).bind fun p got => (Prog.Returns.self _).bind fun buffer stored =>
      .ok ?_
    obtain ⟨-, rfl⟩ := store_ok stored
    have is : s.conf.qry.title = title := same
    rw [is, Site.onto, got]
    exact noted_keeps formTitle_of_conf p _
  refine first.bind fun _ same => ?_
  refine Prog.Returns.bind (readQry_keeps formTitle_of_conf (by intros; rfl) same) fun _ same => ?_
  refine Prog.Returns.bind (readQry_keeps formTitle_of_conf (by intros; rfl) same) fun _ same => ?_
  refine (Prog.Returns.self _).bind fun p _ => .ok ?_
  split
  · exact (noted_keeps formTitle_of_conf p _).trans same
  · exact (noted_keeps formTitle_of_conf p _).trans same

theorem parseEntryPost_formTitle (same : s.formTitle = title) :
    Prog.Returns (fun s' => s'.formTitle = title) (parseEntryPost req s) := by
  rw [parseEntryPost]
  refine Prog.Returns.bind (readLocal_keeps formTitle_of_conf same) ?_
  rintro ⟨err, parg, s₁⟩ same
  simp only at same ⊢
  split
  · exact Prog.Returns.bind (readQry_keeps formTitle_of_conf (by intros; rfl) same)
      fun _ same => .ok same
  · exact .ok same

theorem parsePost_formTitle (same : s.formTitle = title) :
    Prog.Returns (fun s' => s'.formTitle = formTitle req title) (parsePost req s) := by
  have entry {t : Server} {left : Bytes} (same : t.formTitle = left) :
      Prog.Returns (fun s' => s'.formTitle = left)
        (if t.conf.qry.action = .qaAddPost ∨ t.conf.qry.action = .qaModifyPost then
          parseEntryPost req t else pure t) := by
    split
    · exact parseEntryPost_formTitle same
    · exact .ok same
  rw [parsePost]
  by_cases reads : readsPost req = true
  · have size : req.postData.length < postdataMax ∧ req.postData ≠ [] := by
      simpa [readsPost] using reads
    rw [if_pos size]
    refine Prog.Returns.bind (Prog.Returns.self _) ?_
    rintro ⟨err, tmp, s₁⟩ read
    have same := readLocal_keeps formTitle_of_conf same _ read
    obtain ⟨p, got, rfl, rfl, -⟩ := readLocal_ok read
    simp only at same ⊢
    by_cases success : p.code = paramSuccess
    · obtain ⟨v, value, write, -⟩ := Site.get_success got success
      have posted : postedAction req = some (cstr p.write) := by
        rw [write, cstr_concat_zero]
        exact postedAction_of_value reads value
      rw [formTitle, posted]
      simp only [if_pos success, Option.some.injEq]
      by_cases config : cstr p.write = str "config"
      · have others : str "config" ≠ str "add" ∧ str "config" ≠ str "mod" := by decide
        rw [config, if_neg others.1, if_neg others.2, if_pos rfl, if_pos rfl]
        refine Prog.Returns.bind (parseConfigPost_formTitle ?_) fun _ => entry
        exact same
      · simp only [if_neg config]
        split_ifs
        · exact Prog.Returns.bind (.ok same) fun _ => entry
        · exact Prog.Returns.bind (.ok same) fun _ => entry
        · exact entry same
    · have nothing : postedAction req = none := by
        rw [postedAction, if_pos reads, Site.value_eq got, if_neg success]
        rfl
      rw [if_neg success, formTitle, nothing]
      exact .ok same
  · have size : ¬ (req.postData.length < postdataMax ∧ req.postData ≠ []) := by
      simpa [readsPost] using reads
    rw [if_neg size, formTitle, postedAction, if_neg reads]
    exact .ok same

theorem doAdminMode_formTitle (same : s.formTitle = title) :
    Prog.Returns (fun s' => s'.formTitle = formTitle req title) (doAdminMode req s) := by
  rw [doAdminMode]
  refine Prog.Returns.bind (readQry_keeps formTitle_of_conf (by intros; rfl) same) fun _ same => ?_
  refine (Prog.Returns.self _).bind fun p _ => (Prog.Returns.self _).bind fun q _ => ?_
  refine Prog.Returns.bind (readQry_keeps formTitle_of_conf (by intros; rfl)
    (choice_keeps (fun _ => rfl) (choice_keeps (fun _ => rfl) (choice_keeps (fun _ => rfl) same))))
    fun _ same => ?_
  exact parsePost_formTitle (choice_keeps (fun _ => rfl) same)

theorem parseLogout_formTitle (same : s.formTitle = title) :
    Prog.Returns (fun s' => s'.formTitle = title) (parseLogout req s) := by
  rw [parseLogout]
  refine (Prog.Returns.self _).bind fun p _ => (Prog.Returns.self _).bind fun q _ => .ok ?_
  have login : (if p.code = retNoValue then
      s.modQry ({ · with type := .qryNone, action := .qaLogin }) else s).formTitle = title :=
    choice_keeps (fun _ => rfl) same
  split
  · exact login
  · exact login

end Parsing

/-- **What is left of the titles in forms**: the one of this form is over what was there. -/
theorem ensures_parseRequest_formTitle (req : HttpRequest) (s : Server) :
    Prog.Ensures handle (fun _ => True) (parseRequest req s)
      (fun s' _ => s'.formTitle = formTitle req s.formTitle) (fun _ => True) := by
  have start : (resetVariables req s).formTitle = s.formTitle := rfl
  rw [parseRequest]
  refine Prog.Ensures.bind (ensures_written (fun s₁ parsed _ _ =>
    parseCookie_formTitle start s₁ parsed) fun _ _ => True.intro) fun s₁ =>
      Prog.Ensures.of_fact fun cookie => ?_
  refine Prog.Ensures.bind (ensures_written (fun s₂ parsed _ _ =>
    parseQuery_formTitle cookie s₂ parsed) fun _ _ => True.intro) fun s₂ =>
      Prog.Ensures.of_fact fun query => ?_
  refine Prog.Ensures.bind (ensures_written (fun s₃ parsed _ _ =>
    doAdminMode_formTitle query s₃ parsed) fun _ _ => True.intro) fun s₃ =>
      Prog.Ensures.of_fact fun admin => ?_
  rw [doAdminPassMode]
  refine Prog.Ensures.bind ((ensures_parseSid_keeps formTitle_of_query admin).bind fun t =>
    Prog.Ensures.of_fact fun sid => (ensures_parseLogin_keeps formTitle_of_query sid).bind fun s₄ =>
      Prog.Ensures.of_fact fun login => ensures_written (fun s₅ parsed _ _ =>
        parseLogout_formTitle login s₅ parsed) fun _ _ => True.intro) fun s₅ =>
    Prog.Ensures.of_fact fun same => Prog.Ensures.ret fun _ _ => ?_
  have stamp : (checkTs s₅).formTitle = s₅.formTitle := by
    rw [checkTs]
    split
    · rfl
    · rfl
  have css : (checkCss req (checkTs s₅)).formTitle = (checkTs s₅).formTitle :=
    choice_keeps (fun _ => rfl) rfl
  exact css.trans (stamp.trans same)

/-! ## The title of the configuration -/

theorem takeOver_title (conf : Blog) :
    Prog.Returns (fun saved => saved.title = savedTitle conf.qry.title conf.title)
      (takeOver conf) := by
  have rest {title : Bytes} (saved : title = savedTitle conf.qry.title conf.title) :
      Prog.Returns (fun saved => saved.title = savedTitle conf.qry.title conf.title)
        (store sizeTagline conf.tagline (cstr conf.qry.tagline ++ [0]) >>= fun tagline =>
          pure { conf with title, tagline }) :=
    (Prog.Returns.self _).bind fun _ _ => .ok saved
  rw [takeOver]
  dsimp only
  split
  · rename_i given
    refine (Prog.Returns.self _).bind fun title stored => rest ?_
    obtain ⟨-, rfl⟩ := store_ok stored
    rw [savedTitle, if_pos given, List.length_append, List.append_assoc]
    rfl
  · rename_i empty
    exact rest (if_neg empty).symm

theorem ensures_saveConfig_title (req : HttpRequest) (conf : Blog) :
    Prog.Ensures handle (fun _ => True) (saveConfig req.memory req.clk conf)
      (fun saved _ => saved.title = savedTitle conf.qry.title conf.title) (fun _ => True) := by
  rw [saveConfig]
  refine (Prog.Ensures.any _).bind fun opened => ?_
  cases opened with
  | none => exact Prog.Ensures.fail fun _ _ => True.intro
  | some a =>
      refine Prog.Ensures.bind (ensures_written (fun saved taken _ _ =>
        takeOver_title conf saved taken) fun _ _ => True.intro) fun saved =>
          Prog.Ensures.of_fact fun title => ?_
      exact (Prog.Ensures.any _).bind fun err => Prog.Ensures.ret fun _ _ => title

/-- **The title after an action**: a configuration form that gets past the gate has its
own. -/
theorem ensures_handleQuery_title (req : HttpRequest) (s : Server) :
    Prog.Ensures handle (fun _ => True) (handleQuery req s)
      (fun s' _ => s'.conf.title = if branch s = .qaConfigPost then
        savedTitle s.formTitle s.conf.title else s.conf.title) (fun _ => True) := by
  by_cases config : branch s = .qaConfigPost
  · have form : (accessGate s).formTitle = s.formTitle :=
      accessGate_keeps (fun _ _ _ _ => rfl) (fun _ _ _ => rfl) s
    have title : (accessGate s).conf.title = s.conf.title :=
      @accessGate_keeps _ (·.conf.title) (fun _ _ _ _ => rfl) (fun _ _ _ => rfl) s
    rw [if_pos config, ← form, ← title, handleQuery, runAction]
    rw [branch] at config
    simp only [config]
    rw [configPost]
    exact (ensures_saveConfig_title req _).bind fun conf =>
      Prog.Ensures.of_fact fun saved => Prog.Ensures.ret fun _ _ => saved
  · rw [if_neg config]
    exact ensures_handleQuery_keeps (fun _ _ _ _ => rfl) (fun _ _ _ => rfl) s
      fun saves => absurd saves config

end Bagunceiro
