/-
# Quiet -- what a request must not ask for to pass without a trace

Parameters are written into `blog_t` before anybody knows who sent them, and a
notice stays until the next one.  So a request leaves something when it posts a
configuration form, when it searches for a string, when its session cookie is
longer than an id (the terminator falls into the title), and whenever a notice is
due: for a parameter that is too long, for a password, for the login page, for a
time stamp that is none.

`Quiet` says on the request's strings that nothing of this happens;
`Quiet.ensures_serve` follows the parsers and shows that it is enough.
-/
import Bagunceiro.TwoRuns

namespace Bagunceiro

open Effect Prog

set_option autoImplicit false

/-! ## What a request asks for -/

/-- The value is too long, and a notice says so. -/
def Site.refused (site : Site) (req : HttpRequest) : Bool :=
  match site.get req with
  | .ok p => p.bad
  | .error _ => false

/-- The parameters that are read from every request. -/
def alwaysRead : List Site :=
  [cookieCss, queryTs, queryQry, queryTag, queryCss, queryFmt, queryMonth, queryDel, queryMod,
    cookieSid, postLogin]

/-- Posted data of a size that is looked at. -/
def readsPost (req : HttpRequest) : Bool := req.postData.length < postdataMax ∧ req.postData ≠ []

def postedAction (req : HttpRequest) : Option Bytes :=
  if readsPost req then (postAction.value req).map cstr else none

/-- The form of an entry, with a text. -/
def postsEntry (req : HttpRequest) : Bool :=
  (postedAction req = some (str "add") ∨ postedAction req = some (str "mod")) ∧
    (postInput.value req).isSome

/-- The key that comes with it. -/
def postedKey (req : HttpRequest) : Option Bytes :=
  if postsEntry req then postKey.value req else none

/-- Something else than an entry is to be shown. -/
def asksOther (req : HttpRequest) : Bool :=
  [queryQry, queryTag, queryMonth, queryDel, queryMod].any (fun site => (site.value req).isSome) ||
    [queryAdd, queryConfig, queryLogin].any (·.flag req)

/-- The time stamp of the entry to be shown: a form's key is written over it. -/
def shownStamp (req : HttpRequest) : Option Bytes :=
  if asksOther req then none
  else (queryTs.value req).map (postedKey req).getD

/-- No notice is due, and neither a configuration nor a search comes in, nor a
session id that overruns its array. -/
@[mk_iff] structure Quiet (req : HttpRequest) : Prop where
  accepted : ∀ site ∈ alwaysRead, site.refused req = false
  action : readsPost req = true → postAction.refused req = false
  key : postsEntry req = true → postKey.refused req = false
  config : postedAction req ≠ some (str "config")
  search : queryQry.value req = none
  session : ∀ id ∈ cookieSid.value req, id.length ≤ sizeSessionId
  login : postLogin.value req = none
  form : queryLogin.flag req = true → queryLogout.flag req = true
  stamp : ∀ w ∈ shownStamp req, reduceSize ≤ w.length ∧ verifyTs w = true

instance (req : HttpRequest) : Decidable (Quiet req) := decidable_of_iff _ (quiet_iff req).symm

/-! ## Results of accepted parameters -/

section Sites

variable {site : Site} {req : HttpRequest} {p : Param}

theorem Site.value_eq (got : site.get req = .ok p) :
    site.value req = if p.code = paramSuccess then some p.write.dropLast else none := by
  rw [Site.value, got]

theorem Site.bad_eq (accepted : site.refused req = false) (got : site.get req = .ok p) :
    p.bad = false := by
  rw [Site.refused, got] at accepted
  exact accepted

theorem Server.noted_of_accepted (accepted : site.refused req = false) (got : site.get req = .ok p)
    (s : Server) : s.noted p = s := by
  unfold Server.noted
  rw [if_neg (Bool.eq_false_iff.1 (Site.bad_eq accepted got))]

theorem foundParam_write {val : Option Bytes} {n : Limit}
    (good : (foundParam val n).bad = false) (failed : (foundParam val n).code ≠ paramSuccess) :
    (foundParam val n).write = [] := by
  cases val with
  | none => rfl
  | some v =>
      cases n with
      | noValue => rfl
      | unlimited => exact absurd rfl failed
      | upTo n =>
          unfold foundParam at good failed ⊢
          simp only at good failed ⊢
          split at good
          · cases good
          · rename_i short
            rw [if_neg short] at failed
            exact absurd rfl failed

theorem searchParam_write {search : Bytes} {n : Limit} {queries : List Bytes}
    (found : searchParam search n queries = .ok p) (good : p.bad = false)
    (failed : p.code ≠ paramSuccess) : p.write = [] := by
  induction queries with
  | nil =>
      cases found
      rfl
  | cons query rest ih =>
      unfold searchParam at found
      split at found
      · cases found
      · split at found
        · cases found
          exact foundParam_write good failed
        · exact ih found

/-- Without a value nothing is written. -/
theorem Site.get_failure (accepted : site.refused req = false) (got : site.get req = .ok p)
    (failed : p.code ≠ paramSuccess) : p.write = [] := by
  have good := Site.bad_eq accepted got
  unfold Site.get getHttpParam at got
  split at got
  · cases got
    rfl
  · exact searchParam_write got good failed

end Sites

/-- A parameter of any length is accepted. -/
theorem Site.not_refused_of_unlimited {site : Site} (unlimited : site.n = .unlimited)
    (req : HttpRequest) : site.refused req = false := by
  have found (search : Bytes) (queries : List Bytes) :
      Returns (fun p => p.bad = false) (searchParam search .unlimited queries) := by
    induction queries with
    | nil => exact .ok rfl
    | cons query rest ih =>
        unfold searchParam
        split
        · exact nofun
        · rename_i key vals _
          split
          · refine .ok ?_
            cases vals.head? <;> rfl
          · exact ih
  unfold Site.refused
  cases got : site.get req with
  | error e => rfl
  | ok p =>
      unfold Site.get getHttpParam at got
      rw [unlimited] at got
      split at got
      · cases got
        rfl
      · exact found _ _ p got

/-! ## What the parsers leave -/

/-- Nothing to find later, one of these actions, and such a time stamp if an
entry is to be shown. -/
structure Kept (s₀ s : Server) (actions : List Qaction) (stamp : Bytes → Prop) : Prop where
  surviving : s.surviving = s₀.surviving
  action : s.conf.qry.action ∈ actions
  stamp : s.conf.qry.type = .qryTs → stamp s.conf.qry.ts

section Kept

variable {req : HttpRequest} {site : Site} {p : Param} {s₀ s : Server}
  {actions actions' : List Qaction} {stamp stamp' : Bytes → Prop} {f : Query → Query} {t : Qtype}

/-- Another field of the query. -/
theorem Kept.frame (kept : Kept s₀ s actions stamp)
    (surviving : ∀ s : Server, (s.modQry f).surviving = s.surviving)
    (action : ∀ q, (f q).action = q.action) (type : ∀ q, (f q).type = q.type)
    (ts : ∀ q, (f q).ts = q.ts) : Kept s₀ (s.modQry f) actions stamp := by
  refine ⟨(surviving s).trans kept.surviving, ?_, ?_⟩
  · show (f s.conf.qry).action ∈ actions
    rw [action]
    exact kept.action
  · show (f s.conf.qry).type = .qryTs → stamp (f s.conf.qry).ts
    rw [type, ts]
    exact kept.stamp

theorem Kept.ite_frame (kept : Kept s₀ s actions stamp) {c : Prop} [Decidable c]
    (surviving : ∀ s : Server, (s.modQry f).surviving = s.surviving)
    (action : ∀ q, (f q).action = q.action) (type : ∀ q, (f q).type = q.type)
    (ts : ∀ q, (f q).ts = q.ts) : Kept s₀ (if c then s.modQry f else s) actions stamp := by
  split
  · exact kept.frame surviving action type ts
  · exact kept

/-- Something else than an entry is selected. -/
theorem Kept.select (kept : Kept s₀ s actions stamp)
    (surviving : ∀ s : Server, (s.modQry f).surviving = s.surviving)
    (action : ∀ q, (f q).action ∈ actions') (type : ∀ q, (f q).type = t) (other : t ≠ .qryTs) :
    Kept s₀ (s.modQry f) actions' stamp' :=
  ⟨(surviving s).trans kept.surviving, action _, fun shown => absurd ((type _).symm.trans shown) other⟩

theorem Kept.month (kept : Kept s₀ s actions stamp) (mon : Caltime) :
    Kept s₀ (s.modQry ({ · with mon })) actions stamp :=
  kept.frame (fun _ => rfl) (fun _ => rfl) (fun _ => rfl) fun _ => rfl

theorem Kept.modConf (kept : Kept s₀ s actions stamp) {g : Blog → Blog}
    (surviving : (s.modConf g).surviving = s.surviving) (qry : (g s.conf).qry = s.conf.qry) :
    Kept s₀ (s.modConf g) actions stamp := by
  have same : (s.modConf g).conf.qry = s.conf.qry := qry
  refine ⟨surviving.trans kept.surviving, ?_, ?_⟩
  · rw [same]
    exact kept.action
  · rw [same]
    exact kept.stamp

theorem Kept.mono (kept : Kept s₀ s actions stamp) (fewer : actions ⊆ actions')
    (weaker : ∀ ts, stamp ts → stamp' ts) : Kept s₀ s actions' stamp' :=
  ⟨kept.surviving, fewer kept.action, fun shown => weaker _ (kept.stamp shown)⟩

/-- A parameter that selects something else, or is not there. -/
theorem Kept.choose (kept : Kept s₀ s actions stamp) (got : site.get req = .ok p)
    (surviving : ∀ s : Server, (s.modQry f).surviving = s.surviving)
    (action : ∀ q, (f q).action ∈ actions') (type : ∀ q, (f q).type = t) (other : t ≠ .qryTs)
    (fewer : actions ⊆ actions') :
    Kept s₀ (if p.code = paramSuccess then s.modQry f else s) actions'
      (fun ts => stamp ts ∧ site.value req = none) := by
  split
  · exact kept.select surviving action type other
  · rename_i failed
    refine kept.mono fewer fun ts holds => ⟨holds, ?_⟩
    rw [Site.value_eq got, if_neg failed]

/-- The same for a parameter without a value. -/
theorem Kept.flagged (kept : Kept s₀ s actions stamp) (got : site.get req = .ok p)
    (surviving : ∀ s : Server, (s.modQry f).surviving = s.surviving)
    (action : ∀ q, (f q).action ∈ actions') (type : ∀ q, (f q).type = t) (other : t ≠ .qryTs)
    (fewer : actions ⊆ actions') :
    Kept s₀ (if p.code = retNoValue then s.modQry f else s) actions'
      (fun ts => stamp ts ∧ site.flag req = false) := by
  split
  · exact kept.select surviving action type other
  · rename_i failed
    refine kept.mono fewer fun ts holds => ⟨holds, ?_⟩
    rw [Site.flag_eq got, decide_eq_false failed]

/-! ### Reading -/

theorem readQry_returns (accepted : site.refused req = false) (size : Nat) (get : Query → Bytes)
    (set : Bytes → Query → Query) (s : Server) :
    Returns (fun r => ∃ p, site.get req = .ok p ∧ r.1 = p.code ∧
      r.2 = s.modQry (set (p.write ++ (get s.conf.qry).drop p.write.length)))
      (readQry req site size get set s) := by
  unfold readQry
  refine Returns.bind (.self _) fun p got => Returns.bind (.self _) fun buffer stored => ?_
  refine Returns.ok ⟨p, got, rfl, ?_⟩
  rw [Server.noted_of_accepted accepted got, (store_ok stored).2]

theorem readLocal_returns (accepted : site.refused req = false) (size : Nat) (s : Server) :
    Returns (fun r => ∃ p, site.get req = .ok p ∧ r.1 = p.code ∧ r.2.1 = cstr p.write ∧ r.2.2 = s)
      (readLocal req site size s) := by
  rintro ⟨err, text, s'⟩ read
  obtain ⟨p, got, rfl, rfl, rfl⟩ := readLocal_ok read
  exact ⟨p, got, rfl, rfl, Server.noted_of_accepted accepted got s⟩

/-- A stamp is written over the old one, unless there is none. -/
def Overlaid (value : Option Bytes) (stamp : Bytes → Prop) (ts : Bytes) : Prop :=
  ∃ old, stamp old ∧
    match value with
    | some v => ∃ rest, ts = v ++ 0 :: rest
    | none => ts = old

theorem Overlaid.resolve {value : Option Bytes} {ts : Bytes} (overlaid : Overlaid value stamp ts)
    (absent : value = none) : stamp ts := by
  subst absent
  obtain ⟨old, holds, rfl⟩ := overlaid
  exact holds

theorem overlaid_of_read (accepted : site.refused req = false) (got : site.get req = .ok p) {ts : Bytes}
    (before : stamp ts) : Overlaid (site.value req) stamp (p.write ++ ts.drop p.write.length) := by
  refine ⟨ts, before, ?_⟩
  by_cases success : p.code = paramSuccess
  · obtain ⟨v, value, write, -⟩ := Site.get_success got success
    rw [value, write, List.append_assoc]
    exact ⟨_, rfl⟩
  · rw [Site.value_eq got, if_neg success, Site.get_failure accepted got success]
    rfl

theorem Kept.readTs (kept : Kept s₀ s actions stamp) (accepted : site.refused req = false) :
    Returns (fun r => ∃ p, site.get req = .ok p ∧ r.1 = p.code ∧
      Kept s₀ r.2 actions (Overlaid (site.value req) stamp)) (readTs req site s) := by
  rintro ⟨err, s'⟩ read
  obtain ⟨p, got, rfl, rfl⟩ := readQry_returns accepted _ _ _ s _ read
  refine ⟨p, got, rfl, kept.surviving, kept.action, fun shown => ?_⟩
  exact overlaid_of_read accepted got (kept.stamp shown)

/-- What is written to another buffer changes nothing here. -/
theorem Kept.readQry (kept : Kept s₀ s actions stamp) (accepted : site.refused req = false) (size : Nat)
    {get : Query → Bytes} (set : Bytes → Query → Query)
    (surviving : ∀ w (s : Server), (s.modQry (set w)).surviving = s.surviving)
    (action : ∀ w q, (set w q).action = q.action) (type : ∀ w q, (set w q).type = q.type)
    (ts : ∀ w q, (set w q).ts = q.ts) :
    Returns (fun r => ∃ p, site.get req = .ok p ∧ r.1 = p.code ∧ Kept s₀ r.2 actions stamp)
      (readQry req site size get set s) := by
  rintro ⟨err, s'⟩ read
  obtain ⟨p, got, rfl, rfl⟩ := readQry_returns accepted _ _ _ s _ read
  exact ⟨p, got, rfl, kept.frame (surviving _) (action _) (type _) (ts _)⟩

/-- A parameter without a value leaves its buffer alone. -/
theorem readQry_returns_same (accepted : site.refused req = false) (absent : site.value req = none)
    (size : Nat) (get : Query → Bytes) (set : Bytes → Query → Query)
    (leaves : ∀ q, set (get q) q = q) (s : Server) :
    Returns (fun r => ∃ p, site.get req = .ok p ∧ r.1 = p.code ∧ r.2 = s)
      (readQry req site size get set s) := by
  rintro ⟨err, s'⟩ read
  obtain ⟨p, got, rfl, rfl⟩ := readQry_returns accepted _ _ _ s _ read
  have failed : p.code ≠ paramSuccess := by
    intro success
    rw [Site.value_eq got, if_pos success] at absent
    cases absent
  refine ⟨p, got, rfl, ?_⟩
  rw [Site.get_failure accepted got failed, Server.modQry]
  show { s with conf := { s.conf with qry := set (get s.conf.qry) s.conf.qry } } = s
  rw [leaves]

theorem Kept.readCss (kept : Kept s₀ s actions stamp) (accepted : site.refused req = false) :
    Returns (fun r => ∃ p, site.get req = .ok p ∧ r.1 = p.code ∧ Kept s₀ r.2 actions stamp)
      (readCss req site s) :=
  kept.readQry accepted sizeHttpArg _ (fun _ _ => rfl) (fun _ _ => rfl) (fun _ _ => rfl) fun _ _ => rfl

end Kept

/-! ### Parsing -/

section Parsing

variable {req : HttpRequest} {s₀ s : Server} {actions : List Qaction} {stamp : Bytes → Prop}

theorem Quiet.parseCookie (quiet : Quiet req) (kept : Kept s₀ s actions stamp) :
    Returns (fun s' => Kept s₀ s' actions stamp) (parseCookie req s) := by
  unfold Bagunceiro.parseCookie
  refine (kept.readCss (quiet.accepted cookieCss (by simp [alwaysRead]))).bind ?_
  rintro ⟨err, s₁⟩ ⟨p, got, rfl, kept⟩
  exact .ok (kept.ite_frame (fun _ => rfl) (fun _ => rfl) (fun _ => rfl) fun _ => rfl)

/-- The actions of a query string, and those of a form. -/
def queryActions : List Qaction := [.qaShow, .qaDelete, .qaAdd, .qaModify, .qaConfig]
def parsedActions : List Qaction := .qaAddPost :: .qaModifyPost :: queryActions

/-- A stamp as the query string gives it. -/
def Given (req : HttpRequest) (ts : Bytes) : Prop :=
  ∃ v, queryTs.value req = some v ∧ ∃ rest, ts = v ++ 0 :: rest

/-- An entry is still to be shown, after the parameters for everybody. -/
def Asked (req : HttpRequest) (ts : Bytes) : Prop :=
  ((Given req ts ∧ queryQry.value req = none) ∧ queryTag.value req = none) ∧
    queryMonth.value req = none

/-- The stamp is read into a cleared buffer. -/
theorem Kept.given {p : Param} (kept : Kept s₀ s actions fun _ => False)
    (got : queryTs.get req = .ok p)
    (show_ : .qaShow ∈ actions) :
    let read := s.modQry fun q => { q with ts := p.write ++ s.conf.qry.ts.drop p.write.length }
    Kept s₀ (if p.code = paramSuccess then read.modQry ({ · with type := .qryTs, action := .qaShow })
      else read) actions (Given req) := by
  intro read
  have before : Kept s₀ read actions fun _ => False :=
    ⟨kept.surviving, kept.action, fun shown => kept.stamp shown⟩
  split
  · rename_i success
    obtain ⟨v, value, write, -⟩ := Site.get_success got success
    refine ⟨before.surviving, show_, fun _ => ⟨v, value, ?_⟩⟩
    show ∃ rest, p.write ++ _ = v ++ 0 :: rest
    rw [write, List.append_assoc]
    exact ⟨_, rfl⟩
  · exact before.mono (List.Subset.refl _) fun _ => False.elim

theorem Quiet.parseQuery (quiet : Quiet req) (kept : Kept s₀ s [.qaShow] fun _ => False) :
    Returns (fun s' => Kept s₀ s' [.qaShow] (Asked req)) (parseQuery req s) := by
  have show_ : Qaction.qaShow ∈ [Qaction.qaShow] := List.mem_singleton_self _
  have readTs := quiet.accepted queryTs (by simp [alwaysRead])
  have readQuery := quiet.accepted queryQry (by simp [alwaysRead])
  have readTag := quiet.accepted queryTag (by simp [alwaysRead])
  have readCss := quiet.accepted queryCss (by simp [alwaysRead])
  have readFmt := quiet.accepted queryFmt (by simp [alwaysRead])
  have readMonth := quiet.accepted queryMonth (by simp [alwaysRead])
  unfold Bagunceiro.parseQuery
  refine (readQry_returns readTs _ _ _ s).bind ?_
  rintro ⟨_, _⟩ ⟨p, got, rfl, rfl⟩
  have kept := kept.given got show_
  refine (readQry_returns_same readQuery quiet.search sizeFindStr (·.find)
    (fun b q => { q with find := b }) (fun _ => rfl) _).bind ?_
  rintro ⟨_, _⟩ ⟨p, got, rfl, rfl⟩
  have kept := kept.choose (f := ({ · with type := .qryFind, action := .qaShow })) got
    (fun _ => rfl) (fun _ => show_) (fun _ => rfl) (by decide) (List.Subset.refl _)
  refine (kept.readQry readTag sizeFindStr (fun b q => { q with tag := b }) (fun _ _ => rfl)
    (fun _ _ => rfl) (fun _ _ => rfl) fun _ _ => rfl).bind ?_
  rintro ⟨_, s₂⟩ ⟨p, got, rfl, kept⟩
  have kept := kept.choose (f := ({ · with type := .qryTag, action := .qaShow })) got
    (fun _ => rfl) (fun _ => show_) (fun _ => rfl) (by decide) (List.Subset.refl _)
  refine (kept.readCss readCss).bind ?_
  rintro ⟨_, s₃⟩ ⟨p, got, rfl, kept⟩
  have reset := kept.ite_frame (f := ({ · with csstype := .cssReset }))
    (c := p.code = retNoValue) (fun _ => rfl) (fun _ => rfl) (fun _ => rfl) fun _ => rfl
  have kept := reset.ite_frame (f := ({ · with csstype := .cssSelect }))
    (c := p.code = paramSuccess) (fun _ => rfl) (fun _ => rfl) (fun _ => rfl) fun _ => rfl
  refine (readLocal_returns readFmt _ _).bind ?_
  rintro ⟨_, _, _⟩ ⟨q, -, rfl, rfl, rfl⟩
  have kept := kept.ite_frame (f := ({ · with stype := .sRss }))
    (c := q.code = paramSuccess ∧ cstr q.write = str "rss") (fun _ => rfl) (fun _ => rfl)
    (fun _ => rfl) fun _ => rfl
  refine (readLocal_returns readMonth _ _).bind ?_
  rintro ⟨_, text, s₄⟩ ⟨q, got, rfl, rfl, rfl⟩
  refine .ok ?_
  by_cases success : q.code = paramSuccess
  · rw [if_pos success]
    exact kept.select (fun _ => rfl) (fun _ => show_) (fun _ => rfl) (by decide)
  · rw [if_neg success]
    refine (kept.month _).mono (List.Subset.refl _) fun ts holds => ⟨holds, ?_⟩
    rw [Site.value_eq got, if_neg success]

/-! ### Administrators' parameters -/

theorem postedAction_of_value {v : Bytes} (reads : readsPost req = true)
    (value : postAction.value req = some v) : postedAction req = some (cstr v) := by
  rw [postedAction, if_pos reads, value]
  rfl

/-- A posted text, and the key it may come with. -/
theorem Quiet.parseEntryPost (quiet : Quiet req)
    (posted : postedAction req = some (str "add") ∨ postedAction req = some (str "mod"))
    (kept : Kept s₀ s actions stamp) :
    Returns (fun s' => Kept s₀ s' actions (Overlaid (postedKey req) stamp)) (parseEntryPost req s) := by
  unfold Bagunceiro.parseEntryPost
  refine (readLocal_returns (Site.not_refused_of_unlimited rfl req) _ _).bind ?_
  rintro ⟨_, text, s₁⟩ ⟨p, got, rfl, rfl, rfl⟩
  have value := Site.value_eq got
  by_cases success : p.code = paramSuccess
  · rw [if_pos success] at value
    have entry : postsEntry req = true := by
      unfold postsEntry
      rw [value]
      simpa using posted
    have key : postedKey req = postKey.value req := by rw [postedKey, if_pos entry]
    rw [key]
    simp only [if_pos success]
    have kept := kept.frame (f := fun q => { q with input := q.input ++ cstr p.write ++ [0] })
      (fun _ => rfl) (fun _ => rfl) (fun _ => rfl) fun _ => rfl
    refine (kept.readTs (quiet.key entry)).bind ?_
    rintro ⟨_, s₂⟩ ⟨q, -, -, kept⟩
    exact .ok kept
  · rw [if_neg success] at value
    have key : postedKey req = none := by simp [postedKey, postsEntry, value]
    rw [key]
    simp only [if_neg success]
    exact .ok (kept.mono (List.Subset.refl _) fun ts holds => ⟨ts, holds, rfl⟩)

theorem Quiet.parsePost (quiet : Quiet req) (kept : Kept s₀ s queryActions stamp) :
    Returns (fun s' => Kept s₀ s' parsedActions
      (Overlaid (postedKey req) stamp))
      (parsePost req s) := by
  have wider : queryActions ⊆ parsedActions := by decide
  have unposted (other : postedAction req ≠ some (str "add") ∧ postedAction req ≠ some (str "mod")) :
      Kept s₀ s parsedActions (Overlaid (postedKey req) stamp) := by
    have key : postedKey req = none := by simp [postedKey, postsEntry, other.1, other.2]
    rw [key]
    exact kept.mono wider fun ts holds => ⟨ts, holds, rfl⟩
  unfold Bagunceiro.parsePost
  by_cases reads : readsPost req = true
  · have size : req.postData.length < postdataMax ∧ req.postData ≠ [] := by
      simpa [readsPost] using reads
    rw [if_pos size]
    refine (readLocal_returns (quiet.action reads) 30 s).bind ?_
    rintro ⟨_, tmp, s₁⟩ ⟨p, got, rfl, rfl, same⟩
    obtain rfl : s₁ = s := same
    have value := Site.value_eq got
    by_cases success : p.code = paramSuccess
    · simp only [if_pos success]
      obtain ⟨v, value, write, -⟩ := Site.get_success got success
      have posted : postedAction req = some (cstr p.write) := by
        rw [write, cstr_concat_zero]
        exact postedAction_of_value reads value
      have form (action : Qaction) (entry : action = .qaAddPost ∨ action = .qaModifyPost)
          (asked : postedAction req = some (str "add") ∨ postedAction req = some (str "mod")) :
          Returns (fun s' => Kept s₀ s' parsedActions (Overlaid (postedKey req) stamp))
            (if action = .qaAddPost ∨ action = .qaModifyPost then
              Bagunceiro.parseEntryPost req (s₁.modQry ({ · with action }))
            else pure (s₁.modQry ({ · with action }))) := by
        rw [if_pos entry]
        refine quiet.parseEntryPost asked ⟨kept.surviving, ?_, kept.stamp⟩
        show action ∈ parsedActions
        rcases entry with rfl | rfl <;> decide
      split_ifs with add mod config
      · exact form .qaAddPost (.inl rfl) (.inl (add ▸ posted))
      · exact form .qaModifyPost (.inr rfl) (.inr (mod ▸ posted))
      · exact absurd (config ▸ posted) quiet.config
      · have fromQuery : ¬ (s₁.conf.qry.action = .qaAddPost ∨ s₁.conf.qry.action = .qaModifyPost) := by
          have asked := kept.action
          rintro (is | is) <;> rw [is] at asked <;> exact absurd asked (by decide)
        show Returns _ (if s₁.conf.qry.action = .qaAddPost ∨ s₁.conf.qry.action = .qaModifyPost then
          Bagunceiro.parseEntryPost req s₁ else pure s₁)
        rw [if_neg fromQuery]
        refine .ok (unposted ?_)
        rw [posted]
        simpa using ⟨add, mod⟩
    · simp only [if_neg success]
      rw [if_neg success] at value
      refine .ok (unposted ?_)
      simp [postedAction, value]
  · have size : ¬ (req.postData.length < postdataMax ∧ req.postData ≠ []) := by
      simpa [readsPost] using reads
    rw [if_neg size]
    refine .ok (unposted ?_)
    simp [postedAction, reads]

/-- And after those for administrators. -/
def AskedStill (req : HttpRequest) (ts : Bytes) : Prop :=
  (((Asked req ts ∧ queryDel.value req = none) ∧ queryAdd.flag req = false) ∧
    queryConfig.flag req = false) ∧ queryMod.value req = none

theorem Quiet.doAdminMode (quiet : Quiet req) (kept : Kept s₀ s [.qaShow] (Asked req)) :
    Returns (fun s' => Kept s₀ s' parsedActions (Overlaid (postedKey req) (AskedStill req)))
      (doAdminMode req s) := by
  have readDel := quiet.accepted queryDel (by simp [alwaysRead])
  have readMod := quiet.accepted queryMod (by simp [alwaysRead])
  have fewer : [.qaShow] ⊆ queryActions := by decide
  have delete : .qaDelete ∈ queryActions := by decide
  have add : .qaAdd ∈ queryActions := by decide
  have config : .qaConfig ∈ queryActions := by decide
  have modify : .qaModify ∈ queryActions := by decide
  unfold Bagunceiro.doAdminMode
  refine (kept.readTs readDel).bind ?_
  rintro ⟨_, s₁⟩ ⟨p, got, rfl, kept⟩
  have kept := kept.choose (f := ({ · with action := .qaDelete, type := .qryNone })) got
    (fun _ => rfl) (fun _ => delete) (fun _ => rfl) (by decide) fewer
  have kept := kept.mono (List.Subset.refl _) fun ts holds =>
    (⟨holds.1.resolve holds.2, holds.2⟩ : Asked req ts ∧ queryDel.value req = none)
  refine (Returns.self (queryAdd.get req)).bind fun p got => ?_
  have kept := kept.flagged (f := ({ · with action := .qaAdd, type := .qryNone })) got
    (fun _ => rfl) (fun _ => add) (fun _ => rfl) (by decide) (List.Subset.refl _)
  refine (Returns.self (queryConfig.get req)).bind fun p got => ?_
  have kept := kept.flagged (f := ({ · with action := .qaConfig, type := .qryNone })) got
    (fun _ => rfl) (fun _ => config) (fun _ => rfl) (by decide) (List.Subset.refl _)
  refine (kept.readTs readMod).bind ?_
  rintro ⟨_, s₂⟩ ⟨p, got, rfl, kept⟩
  have kept := kept.choose (f := ({ · with type := .qryNone, action := .qaModify })) got
    (fun _ => rfl) (fun _ => modify) (fun _ => rfl) (by decide) (List.Subset.refl _)
  have kept := kept.mono (List.Subset.refl _) fun ts holds =>
    (⟨holds.1.resolve holds.2, holds.2⟩ : AskedStill req ts)
  exact quiet.parsePost kept

/-- The stamp to be shown is what the buffer starts with. -/
theorem shownStamp_of_asked {ts : Bytes} (asked : Overlaid (postedKey req) (AskedStill req) ts)
    (login : queryLogin.flag req = false) :
    ∃ w, shownStamp req = some w ∧ ∃ rest, ts = w ++ 0 :: rest := by
  obtain ⟨old, ⟨⟨⟨⟨still, del⟩, add⟩, config⟩, mod⟩, written_⟩ := asked
  obtain ⟨⟨⟨⟨v, value, given⟩, qry⟩, tag⟩, month⟩ := still
  have only : asksOther req = false := by
    simp [asksOther, qry, tag, month, del, mod, add, config, login]
  have shown : shownStamp req = some ((postedKey req).getD v) := by
    simp [shownStamp, only, value]
  refine ⟨_, shown, ?_⟩
  cases key : postedKey req with
  | none =>
      rw [key] at written_
      obtain rfl : ts = old := written_
      exact given
  | some k =>
      rw [key] at written_
      exact written_

/-- So it passes the check. -/
theorem Quiet.verifies (quiet : Quiet req) {ts : Bytes}
    (asked : Overlaid (postedKey req) (AskedStill req) ts) (login : queryLogin.flag req = false) :
    verifyTs ts = true := by
  obtain ⟨w, shown, rest, rfl⟩ := shownStamp_of_asked asked login
  obtain ⟨long, digits⟩ := quiet.stamp w shown
  rw [verifyTs, List.take_append_of_le_length long]
  exact digits

end Parsing

/-! ### Authentication -/

section Authentication

variable {req : HttpRequest} {s₀ s : Server} {stamp : Bytes → Prop}

/-- Kept, and no password is to be complained about. -/
structure KeptOut (s₀ s : Server) (actions : List Qaction) (stamp : Bytes → Prop) : Prop
    extends Kept s₀ s actions stamp where
  authtype : s.conf.authtype ≠ .authPost

theorem ensures_returns {α : Type} {e : Except Fault α} {post : α → Prop} (returned : Returns post e) :
    Ensures handle (fun _ => True) (written e) (fun a _ => post a) (fun _ => True) :=
  ensures_written (fun a same _ _ => returned a same) fun _ _ => True.intro

/-- A session id that fits leaves the title alone. -/
theorem storeSid_inside {conf stored : Blog} {new : Bytes} (ok : storeSid conf new = .ok stored)
    (fits : new.length ≤ sizeSessionId + 1) :
    stored = { conf with sid := new ++ conf.sid.drop new.length } := by
  rw [storeSid_ok ok, List.take_of_length_le fits, List.drop_eq_nil_of_le fits,
    Nat.sub_eq_zero_of_le fits]
  rfl

theorem Quiet.sid_fits (quiet : Quiet req) {p : Param} (got : cookieSid.get req = .ok p) :
    p.write.length ≤ sizeSessionId + 1 := by
  by_cases success : p.code = paramSuccess
  · obtain ⟨id, value, write, -⟩ := Site.get_success got success
    have fits := quiet.session id value
    rw [write, List.length_append, List.length_singleton]
    omega
  · rw [Site.get_failure (quiet.accepted cookieSid (by simp [alwaysRead])) got success]
    exact Nat.zero_le _

theorem Quiet.ensures_parseSid (quiet : Quiet req) {actions : List Qaction}
    (kept : Kept s₀ s actions stamp) :
    Ensures handle (fun _ => True) (parseSid req s) (fun s' _ => KeptOut s₀ s' actions stamp)
      (fun _ => True) := by
  unfold parseSid
  have accepted := quiet.accepted cookieSid (by simp [alwaysRead])
  refine (ensures_returns (.self _)).bind fun p => Ensures.of_fact fun got => ?_
  refine (ensures_returns (.self _)).bind fun conf => Ensures.of_fact fun stored => ?_
  rw [Server.noted_of_accepted accepted got]
  have cleared : Kept s₀ (s.modConf fun conf => { conf with
      authtype := .authNone, auth := false, sid := 0 :: conf.sid.drop 1 }) actions stamp :=
    kept.modConf rfl rfl
  generalize asks : s.modConf _ = t at *
  have authtype : t.conf.authtype = .authNone := by rw [← asks]; rfl
  rw [storeSid_inside stored (quiet.sid_fits got)]
  have out : KeptOut s₀ (t.modConf fun _ => { t.conf with
      sid := p.write ++ t.conf.sid.drop p.write.length }) actions stamp :=
    ⟨cleared.modConf rfl rfl, by simp [Server.modConf, authtype]⟩
  split
  · refine (Ensures.any _).bind fun auth => Ensures.ret fun _ _ => ?_
    exact ⟨out.toKept.modConf rfl rfl, fun post => by cases post⟩
  · exact Ensures.ret fun _ _ => out

/-- No password came. -/
theorem Quiet.ensures_parseLogin (quiet : Quiet req) {actions : List Qaction}
    (kept : KeptOut s₀ s actions stamp) :
    Ensures handle (fun _ => True) (parseLogin req s) (fun s' _ => KeptOut s₀ s' actions stamp)
      (fun _ => True) := by
  unfold parseLogin
  have accepted := quiet.accepted postLogin (by simp [alwaysRead])
  apply (ensures_returns (readLocal_returns accepted 10 s)).bind
  rintro ⟨err, text, s₁⟩
  refine Ensures.of_fact fun read => ?_
  obtain ⟨p, got, rfl, -, same⟩ := read
  obtain rfl : s₁ = s := same
  have absent : p.code ≠ paramSuccess := by
    intro success
    have value := Site.value_eq got
    rw [quiet.login, if_pos success] at value
    cases value
  simp only [if_neg absent]
  exact Ensures.ret fun _ _ => kept

/-- The login page is asked for only together with a logout. -/
theorem Quiet.parseLogout (quiet : Quiet req) (kept : KeptOut s₀ s parsedActions stamp) :
    Returns (fun s' => KeptOut s₀ s' (.qaLogout :: parsedActions)
      fun ts => stamp ts ∧ queryLogin.flag req = false) (parseLogout req s) := by
  unfold Bagunceiro.parseLogout
  refine (Returns.self (queryLogin.get req)).bind fun p login => ?_
  refine (Returns.self (queryLogout.get req)).bind fun q logout => ?_
  refine .ok ?_
  have wider : parsedActions ⊆ .qaLogout :: parsedActions := List.subset_cons_self _ _
  have asked := Site.flag_eq login
  by_cases page : p.code = retNoValue
  · have out : q.code = retNoValue := by
      have flag := quiet.form (asked.trans (decide_eq_true page))
      rwa [Site.flag_eq logout, decide_eq_true_eq] at flag
    rw [if_pos page, if_pos out]
    exact ⟨⟨kept.surviving, List.mem_cons_self, nofun⟩, kept.authtype⟩
  · rw [decide_eq_false page] at asked
    rw [if_neg page]
    have kept' : KeptOut s₀ s (.qaLogout :: parsedActions)
        fun ts => stamp ts ∧ queryLogin.flag req = false :=
      ⟨kept.mono wider fun ts holds => ⟨holds, asked⟩, kept.authtype⟩
    split
    · exact ⟨⟨kept'.surviving, List.mem_cons_self, kept'.stamp⟩, kept'.authtype⟩
    · exact kept'

theorem Quiet.ensures_doAdminPassMode (quiet : Quiet req) (kept : Kept s₀ s parsedActions stamp) :
    Ensures handle (fun _ => True) (doAdminPassMode req s)
      (fun s' _ => KeptOut s₀ s' (.qaLogout :: parsedActions)
        fun ts => stamp ts ∧ queryLogin.flag req = false) (fun _ => True) := by
  unfold doAdminPassMode
  refine (quiet.ensures_parseSid kept).bind fun s₁ => Ensures.of_fact fun kept => ?_
  refine (quiet.ensures_parseLogin kept).bind fun s₂ => Ensures.of_fact fun kept => ?_
  exact ensures_returns (quiet.parseLogout kept)

end Authentication

/-! ## Served without a trace -/

theorem kept_resetVariables (req : HttpRequest) (s : Server) :
    Kept s (resetVariables req s) [.qaShow] fun _ => False :=
  ⟨rfl, List.mem_singleton_self _, nofun⟩

theorem Quiet.checkTs_eq {req : HttpRequest} {s₀ s : Server} {actions : List Qaction}
    (quiet : Quiet req) (kept : Kept s₀ s actions fun ts =>
      Overlaid (postedKey req) (AskedStill req) ts ∧ queryLogin.flag req = false) :
    checkTs s = s := by
  have fine_ : ¬ (s.conf.qry.type = .qryTs ∧ ¬ verifyTs s.conf.qry.ts) := by
    rintro ⟨shown, fails⟩
    obtain ⟨asked, login⟩ := kept.stamp shown
    exact fails (quiet.verifies asked login)
  rw [checkTs, if_neg fine_]

/-- Parsed without a trace, and behind the gate without one. -/
structure Traceless (s₀ s : Server) : Prop where
  surviving : s.surviving = s₀.surviving
  action : s.conf.qry.action ≠ .qaLogin
  authtype : s.conf.authtype ≠ .authPost

theorem Quiet.ensures_parseRequest {req : HttpRequest} (quiet : Quiet req) (s : Server) :
    Ensures handle (fun _ => True) (parseRequest req s) (fun s' _ => Traceless s s')
      (fun _ => True) := by
  unfold parseRequest
  refine (ensures_returns (quiet.parseCookie (kept_resetVariables req s))).bind fun s₁ =>
    Ensures.of_fact fun kept => ?_
  refine (ensures_returns (quiet.parseQuery kept)).bind fun s₂ => Ensures.of_fact fun kept => ?_
  refine (ensures_returns (quiet.doAdminMode kept)).bind fun s₃ => Ensures.of_fact fun kept => ?_
  refine (quiet.ensures_doAdminPassMode kept).bind fun s₄ => Ensures.of_fact fun kept => ?_
  refine Ensures.ret fun _ _ => ?_
  rw [quiet.checkTs_eq kept.toKept]
  have action : s₄.conf.qry.action ≠ .qaLogin := by
    intro login
    have member := kept.action
    rw [login] at member
    exact absurd member (by decide)
  have surviving := kept.surviving
  have authtype := kept.authtype
  unfold checkCss
  split
  · exact ⟨surviving, action, authtype⟩
  · exact ⟨surviving, action, authtype⟩

theorem Traceless.accessGate {s₀ s : Server} (traceless : Traceless s₀ s) :
    (accessGate s).surviving = s₀.surviving ∧ branch s ≠ .qaLogin := by
  have refused : ¬ (s.conf.authtype = .authPost ∧ ¬ s.conf.auth) :=
    fun posted => traceless.authtype posted.1
  have gate : Bagunceiro.accessGate s = if isAdminAction s.conf.qry.action ∧ ¬ s.conf.auth then
      s.modQry ({ · with action := .qaShow, type := .qryWeek }) else s := by
    by_cases closed : isAdminAction s.conf.qry.action ∧ ¬ s.conf.auth
    · rw [if_pos closed, Bagunceiro.accessGate]
      simp only [if_pos closed]
      exact if_neg refused
    · rw [if_neg closed, Bagunceiro.accessGate]
      simp only [if_neg closed]
      exact if_neg refused
  unfold branch
  rw [gate]
  split
  · exact ⟨traceless.surviving, fun login => Qaction.noConfusion login⟩
  · exact ⟨traceless.surviving, traceless.action⟩

/-- **A quiet request from nobody leaves nothing**, on disk or in memory. -/
theorem Quiet.ensures_serve {req : HttpRequest} {fs : Fs} (quiet : Quiet req)
    (unauth : Unauthenticated req fs) (own : OwnSessions fs) (s : Server) :
    Ensures handle (· = fs) (serve req s) (fun s' t => s'.surviving = s.surviving ∧ t = fs)
      (fun _ => True) := by
  have parse : Ensures handle (· = fs) (parseRequest req s)
      (fun s' t => (t = fs ∧ s'.conf.auth = false) ∧ Traceless s s') (fun _ => True) := by
    have kept : Ensures handle (· = fs) (parseRequest req s) (fun s' _ => Traceless s s')
        (fun _ => True) := fun t _ => quiet.ensures_parseRequest s t True.intro
    exact ((unauth.ensures_parse own s).and kept).mono (fun _ _ => id) fun _ _ => True.intro
  unfold serve
  refine parse.bind fun s₁ => Ensures.each fun t parsed => ?_
  obtain ⟨⟨rfl, auth⟩, traceless⟩ := parsed
  obtain ⟨surviving, page⟩ := traceless.accessGate
  obtain ⟨s₂, returns, left⟩ := handleQuery_of_not_auth req auth
  rw [if_neg page] at left
  rw [returns]
  exact Ensures.ret fun t' same => ⟨left ▸ surviving, same⟩

end Bagunceiro
