/-
# Orders -- what a request orders, and for which entry

The action and the time stamp of a request are read in several places, each over
what was there.  What they come to depends on the request alone: `queryOrder`
is what the query string leaves, `formOrder` what the form makes of it, and a
parsed request has that action, unless it is sent elsewhere
(`parseRequest_order`).
-/
import Bagunceiro.HandleQuery
import Bagunceiro.Parsing
import Bagunceiro.Quiet

namespace Bagunceiro

open Effect Tokens

set_option autoImplicit false

/-! ## Stamps over stamps -/

/-- The buffer after a parameter was read into it. -/
def Site.onto (site : Site) (req : HttpRequest) (buffer : Bytes) : Bytes :=
  match site.get req with
  | .ok p => p.write ++ buffer.drop p.write.length
  | .error _ => buffer

/-- The stamp of the query string, in a cleared buffer. -/
def queryStamp (req : HttpRequest) : Bytes :=
  queryMod.onto req (queryDel.onto req (queryTs.onto req (zeros fmtTaiaHex)))

/-- The action of the query string. -/
def queryAction (req : HttpRequest) : Qaction :=
  if (queryMod.value req).isSome then .qaModify
  else if queryConfig.flag req then .qaConfig
  else if queryAdd.flag req then .qaAdd
  else if (queryDel.value req).isSome then .qaDelete
  else .qaShow

/-- The action a form names, or the one there was. -/
def actionOf (posted : Option Bytes) (action : Qaction) : Qaction :=
  if posted = some (str "add") then .qaAddPost
  else if posted = some (str "mod") then .qaModifyPost
  else if posted = some (str "config") then .qaConfigPost
  else action

/-- Only the form of an entry has a key, and only when it has a text. -/
def stampOf (req : HttpRequest) (action : Qaction) (ts : Bytes) : Bytes :=
  if (action = .qaAddPost ∨ action = .qaModifyPost) ∧ (postInput.value req).isSome then
    postKey.onto req ts
  else ts

def formAction (req : HttpRequest) : Qaction := actionOf (postedAction req) (queryAction req)

def formStamp (req : HttpRequest) : Bytes := stampOf req (formAction req) (queryStamp req)

/-! ## Reading over what was there -/

section Onto

variable {site : Site} {req : HttpRequest}

theorem Site.onto_of_value {v : Bytes} (value : site.value req = some v) (buffer : Bytes) :
    ∃ rest, site.onto req buffer = v ++ 0 :: rest := by
  obtain ⟨p, got, -, write, -⟩ := Site.get_of_value value
  refine ⟨buffer.drop p.write.length, ?_⟩
  rw [Site.onto, got]
  show p.write ++ buffer.drop p.write.length = _
  rw [write, List.append_assoc]
  rfl

theorem Site.onto_of_absent (absent : site.value req = none) (accepted : site.refused req = false)
    (buffer : Bytes) : site.onto req buffer = buffer := by
  rw [Site.onto]
  cases got : site.get req with
  | error e => rfl
  | ok p =>
      have failed : p.code ≠ paramSuccess := by
        intro success
        rw [Site.value_eq got, if_pos success] at absent
        cases absent
      show p.write ++ buffer.drop p.write.length = buffer
      rw [Site.get_failure accepted got failed]
      rfl

/-- A notice is for a value of more than the length asked for. -/
theorem searchParam_bad {search : Bytes} {n : Nat} {queries : List Bytes} {p : Param}
    (found : searchParam search (.upTo n) queries = .ok p) (bad : p.bad = true) :
    ∃ query ∈ queries, ∃ v vals, pieces (· = (61 : UInt8)) query = search :: v :: vals ∧
      n < v.length := by
  induction queries with
  | nil =>
      cases found
      cases bad
  | cons query rest ih =>
      rw [searchParam] at found
      split at found
      · cases found
      · rename_i key vals cut
        split at found
        · rename_i same
          cases found
          refine ⟨query, List.mem_cons_self, ?_⟩
          cases vals with
          | nil => cases bad
          | cons v vals =>
              refine ⟨v, vals, by rw [cut, same], ?_⟩
              by_contra short
              simp only [List.head?_cons, foundParam, if_neg short, Bool.false_eq_true] at bad
        · obtain ⟨query, member, rest⟩ := ih found
          exact ⟨query, List.mem_cons_of_mem _ member, rest⟩

/-- A query string that is not too long for `del` and `mod` has no value that is:
the name takes what the limit of the string has more. -/
theorem keySite_accepts {search : Bytes} (name : 3 ≤ search.length) (req : HttpRequest) :
    (keySite search (.upTo maxKeyLengthStr)).refused req = false := by
  rw [Site.refused]
  cases got : (keySite search (.upTo maxKeyLengthStr)).get req with
  | error e => rfl
  | ok p =>
      simp only
      by_contra bad
      rw [Bool.not_eq_false] at bad
      rw [Site.get, getHttpParam] at got
      split at got
      · cases got
        cases bad
      · rename_i taken
        obtain ⟨query, member, v, vals, cut, long⟩ := searchParam_bad got bad
        have parts := length_add_le_of_pieces_eq cut
        have inside := length_le_of_mem_pieces member
        have terminated : (cstr (req.array .query)).length < (req.array .query).length := by
          rw [not_or] at taken
          have some_ := taken.1
          change req.array .query ≠ [] at some_
          cases given : req.queryString with
          | none => exact absurd (by rw [HttpRequest.array, given]; rfl) some_
          | some qs =>
              have array : req.array .query = qs ++ [0] := by
                rw [HttpRequest.array, given]
                rfl
              rw [array, cstr_concat_zero, List.length_append]
              exact Nat.lt_succ_of_le (List.takeWhile_prefix _).length_le
        have size : (req.array .query).length ≤ maxKeyLengthStr + 4 := by
          rw [not_or] at taken
          have within := taken.2
          change ¬ decide (maxKeyLengthStr + 4 < (req.array .query).length) = true at within
          rw [decide_eq_true_eq] at within
          omega
        change search.length + v.length ≤ query.length at parts
        change query.length ≤ (cstr (req.array .query)).length at inside
        rw [maxKeyLengthStr] at long size
        omega

end Onto

/-! ## Following the parsers -/

/-- The action and the stamp so far; the stamp fills its buffer. -/
structure Orders (s : Server) (action : Qaction) (ts : Bytes) : Prop where
  order : s.order = (action, ts)
  length : ts.length = fmtTaiaHex

theorem order_of_conf {s t : Server} (same : t.conf = s.conf) : t.order = s.order :=
  congrArg Prod.snd (seen_of_conf same)

section Steps

variable {req : HttpRequest} {s : Server} {action : Qaction} {ts : Bytes}

theorem Orders.of_order {t : Server} (orders : Orders s action ts) (same : t.order = s.order) :
    Orders t action ts := ⟨same.trans orders.order, orders.length⟩

theorem Orders.act (orders : Orders s action ts) (chosen : Qaction) :
    Orders (s.modQry ({ · with action := chosen })) chosen ts :=
  ⟨Prod.ext rfl (Prod.mk.inj orders.order).2, orders.length⟩

/-- What is read into another buffer. -/
theorem Orders.readQry (orders : Orders s action ts) {site : Site} {size : Nat}
    {get : Query → Bytes} {set : Bytes → Query → Query}
    (leaves : ∀ v s, Server.order (Server.modQry s (set v)) = s.order) :
    Prog.Returns (fun r => Orders r.2 action ts) (readQry req site size get set s) :=
  fun r read => ⟨readQry_keeps order_of_conf leaves orders.order r read, orders.length⟩

theorem Orders.readLocal (orders : Orders s action ts) {site : Site} {size : Nat} :
    Prog.Returns (fun r => ∃ p, site.get req = .ok p ∧ r.1 = p.code ∧ r.2.1 = cstr p.write ∧
      Orders r.2.2 action ts) (readLocal req site size s) := by
  rintro ⟨err, text, s'⟩ read
  obtain ⟨p, got, code, text, -⟩ := readLocal_ok read
  exact ⟨p, got, code, text, readLocal_keeps order_of_conf orders.order _ read, orders.length⟩

theorem Orders.readTs (orders : Orders s action ts) {site : Site} :
    Prog.Returns (fun r => ∃ p, site.get req = .ok p ∧ r.1 = p.code ∧
      Orders r.2 action (site.onto req ts)) (readTs req site s) := by
  rw [Bagunceiro.readTs, Bagunceiro.readQry]
  refine (Prog.Returns.self _).bind fun p got => (Prog.Returns.self _).bind fun buffer stored => ?_
  refine .ok ⟨p, got, rfl, ?_⟩
  obtain ⟨act, stamp⟩ := Prod.mk.inj orders.order
  obtain ⟨fits, rfl⟩ := store_ok stored
  have onto : site.onto req ts = p.write ++ ts.drop p.write.length := by rw [Site.onto, got]
  refine ⟨(noted_keeps order_of_conf p _).trans ?_, ?_⟩
  · rw [onto, ← stamp, ← act]
    rfl
  · have length := orders.length
    rw [onto, List.length_append, List.length_drop, length]
    omega

/-- A choice of an action. -/
theorem Orders.choose (orders : Orders s action ts) {f : Query → Query} {chosen : Qaction}
    {c : Prop} [Decidable c] (sets : ∀ q, (f q).action = chosen) (leaves : ∀ q, (f q).ts = q.ts) :
    Orders (if c then s.modQry f else s) (if c then chosen else action) ts := by
  by_cases holds : c
  · rw [if_pos holds, if_pos holds]
    have stamp := (Prod.mk.inj orders.order).2
    exact ⟨Prod.ext (sets _) ((leaves _).trans stamp), orders.length⟩
  · rw [if_neg holds, if_neg holds]
    exact orders

/-- A choice of the action that is chosen already. -/
theorem Orders.again (orders : Orders s action ts) {f : Query → Query} {c : Prop} [Decidable c]
    (sets : ∀ q, (f q).action = action) (leaves : ∀ q, (f q).ts = q.ts) :
    Orders (if c then s.modQry f else s) action ts := by
  have chosen := orders.choose (c := c) sets leaves
  rwa [ite_self] at chosen

/-- A choice of something else. -/
theorem Orders.beside (orders : Orders s action ts) {f : Query → Query} {c : Prop} [Decidable c]
    (leaves : ∀ s, Server.order (Server.modQry s f) = s.order) :
    Orders (if c then s.modQry f else s) action ts :=
  ⟨choice_keeps leaves orders.order, orders.length⟩

/-- The parameters for everybody show something. -/
theorem Orders.parseQuery (orders : Orders s .qaShow ts) :
    Prog.Returns (fun s' => Orders s' .qaShow (queryTs.onto req ts)) (parseQuery req s) := by
  rw [Bagunceiro.parseQuery]
  refine Prog.Returns.bind orders.readTs fun _ read => ?_
  obtain ⟨-, -, -, orders⟩ := read
  refine Prog.Returns.bind (Orders.readQry (orders.again (by intro; rfl) (by intro; rfl))
    (by intros; rfl)) fun _ orders => ?_
  refine Prog.Returns.bind (Orders.readQry (orders.again (by intro; rfl) (by intro; rfl))
    (by intros; rfl)) fun _ orders => ?_
  refine Prog.Returns.bind (Orders.readQry (orders.again (by intro; rfl) (by intro; rfl))
    (by intros; rfl)) fun _ orders => ?_
  refine Prog.Returns.bind (Orders.readLocal (Orders.beside (orders.beside fun _ => rfl)
    fun _ => rfl)) fun _ read => ?_
  obtain ⟨-, -, -, -, orders⟩ := read
  refine Prog.Returns.bind (Orders.readLocal (orders.beside fun _ => rfl)) fun _ read => .ok ?_
  obtain ⟨-, -, -, -, orders⟩ := read
  split
  · exact ⟨Prod.ext rfl (Prod.mk.inj orders.order).2, orders.length⟩
  · exact ⟨today_keeps (fun _ _ => rfl) orders.order _, orders.length⟩

/-- What is chosen when a parameter has a value, as a fact about the request. -/
theorem ite_code_eq {site : Site} {p : Param} (got : site.get req = .ok p) {α : Type} (a b : α) :
    (if p.code = paramSuccess then a else b) = if (site.value req).isSome then a else b := by
  rw [Site.value_eq got]
  by_cases success : p.code = paramSuccess
  · simp [success]
  · simp [success]

theorem ite_flag_eq {site : Site} {p : Param} (got : site.get req = .ok p) {α : Type} (a b : α) :
    (if p.code = retNoValue then a else b) = if site.flag req then a else b := by
  rw [Site.flag_eq got]
  by_cases flagged : p.code = retNoValue
  · simp [flagged]
  · simp [flagged]

/-! ## The form -/

/-- Only a form with a text has a key. -/
theorem Orders.parseEntryPost (orders : Orders s action ts) :
    Prog.Returns (fun s' => Orders s' action
      (if (postInput.value req).isSome then postKey.onto req ts else ts)) (parseEntryPost req s) := by
  rw [Bagunceiro.parseEntryPost]
  refine Prog.Returns.bind orders.readLocal ?_
  rintro ⟨err, parg, s₁⟩ ⟨p, got, rfl, -, orders⟩
  rw [← ite_code_eq got]
  simp only at orders ⊢
  by_cases text : p.code = paramSuccess
  · rw [if_pos text, if_pos text]
    refine Prog.Returns.bind (Orders.readTs (orders.of_order (by rfl))) fun _ read => .ok ?_
    obtain ⟨-, -, -, orders⟩ := read
    exact orders
  · rw [if_neg text, if_neg text]
    exact .ok orders

/-- The form of an entry is read when the action is to post one. -/
theorem Orders.entry (orders : Orders s action ts) :
    Prog.Returns (fun s' => Orders s' action (stampOf req action ts))
      (if s.conf.qry.action = .qaAddPost ∨ s.conf.qry.action = .qaModifyPost then
        Bagunceiro.parseEntryPost req s else pure s) := by
  have same : s.conf.qry.action = action := (Prod.mk.inj orders.order).1
  rw [stampOf]
  rw [same]
  by_cases posts : action = .qaAddPost ∨ action = .qaModifyPost
  · simp only [posts, true_and]
    exact orders.parseEntryPost
  · simp only [posts, false_and, if_false]
    exact .ok orders

theorem Orders.parsePost (orders : Orders s action ts) (fromQuery : action ∈ queryActions) :
    Prog.Returns (fun s' => Orders s' (actionOf (postedAction req) action)
      (stampOf req (actionOf (postedAction req) action) ts)) (parsePost req s) := by
  have unposted {t : Server} (orders : Orders t action ts) (nothing : postedAction req = none) :
      Orders t (actionOf (postedAction req) action)
        (stampOf req (actionOf (postedAction req) action) ts) := by
    have noEntry : ¬ (action = .qaAddPost ∨ action = .qaModifyPost) := by
      rintro (rfl | rfl) <;> exact absurd fromQuery (by decide)
    simpa [nothing, actionOf, stampOf, noEntry] using orders
  rw [Bagunceiro.parsePost]
  by_cases reads : readsPost req = true
  · have size : req.postData.length < postdataMax ∧ req.postData ≠ [] := by
      simpa [readsPost] using reads
    rw [if_pos size]
    refine Prog.Returns.bind orders.readLocal ?_
    rintro ⟨err, tmp, s₁⟩ ⟨p, got, rfl, rfl, orders₁⟩
    simp only at orders₁ ⊢
    by_cases success : p.code = paramSuccess
    · obtain ⟨v, value, write, -⟩ := Site.get_success got success
      have posted : postedAction req = some (cstr p.write) := by
        rw [write, cstr_concat_zero]
        exact postedAction_of_value reads value
      simp only [if_pos success, posted]
      rw [actionOf]
      simp only [Option.some.injEq]
      by_cases add : cstr p.write = str "add"
      · simp only [if_pos add]
        exact (orders₁.act .qaAddPost).entry
      · by_cases mod : cstr p.write = str "mod"
        · simp only [if_neg add, if_pos mod]
          exact (orders₁.act .qaModifyPost).entry
        · by_cases config : cstr p.write = str "config"
          · simp only [if_neg add, if_neg mod, if_pos config]
            refine Prog.Returns.bind (parseConfigPost_seen rfl) fun t seen => ?_
            exact ((orders₁.act .qaConfigPost).of_order (congrArg Prod.snd seen)).entry
          · simp only [if_neg add, if_neg mod, if_neg config]
            exact orders₁.entry
    · have nothing : postedAction req = none := by
        rw [postedAction, if_pos reads, Site.value_eq got, if_neg success]
        rfl
      rw [if_neg success]
      exact .ok (unposted orders₁ nothing)
  · have size : ¬ (req.postData.length < postdataMax ∧ req.postData ≠ []) := by
      simpa [readsPost] using reads
    rw [if_neg size]
    exact .ok (unposted orders (by simp [postedAction, reads]))

theorem queryAction_mem (req : HttpRequest) : queryAction req ∈ queryActions := by
  rw [queryAction]
  split_ifs <;> decide

/-- The administrators' parameters. -/
theorem Orders.doAdminMode (orders : Orders s .qaShow (queryTs.onto req (zeros fmtTaiaHex))) :
    Prog.Returns (fun s' => Orders s' (formAction req) (formStamp req)) (doAdminMode req s) := by
  rw [Bagunceiro.doAdminMode]
  refine Prog.Returns.bind orders.readTs ?_
  rintro ⟨_, s₁⟩ ⟨p, del, rfl, orders⟩
  refine (Prog.Returns.self _).bind fun add gotAdd => ?_
  refine (Prog.Returns.self _).bind fun config gotConfig => ?_
  simp only [ite_code_eq del, ite_flag_eq gotAdd, ite_flag_eq gotConfig] at orders ⊢
  have orders := orders.choose (f := ({ · with action := .qaDelete, type := .qryNone }))
    (c := (queryDel.value req).isSome) (fun _ => rfl) fun _ => rfl
  have orders := orders.choose (f := ({ · with action := .qaAdd, type := .qryNone }))
    (c := queryAdd.flag req) (fun _ => rfl) fun _ => rfl
  have orders := orders.choose (f := ({ · with action := .qaConfig, type := .qryNone }))
    (c := queryConfig.flag req) (fun _ => rfl) fun _ => rfl
  refine Prog.Returns.bind orders.readTs ?_
  rintro ⟨_, s₂⟩ ⟨q, mod, rfl, orders⟩
  simp only [ite_code_eq mod] at orders ⊢
  have orders := orders.choose (f := ({ · with type := .qryNone, action := .qaModify }))
    (c := (queryMod.value req).isSome) (fun _ => rfl) fun _ => rfl
  exact orders.parsePost (queryAction_mem req)

/-- Sent elsewhere: to a page, or away. -/
def Elsewhere (action : Qaction) : Prop :=
  action = .qaShow ∨ action = .qaLogin ∨ action = .qaLogout

theorem Orders.parseLogout (orders : Orders s action ts) :
    Prog.Returns (fun s' => ∃ a, (a = action ∨ Elsewhere a) ∧ Orders s' a ts)
      (parseLogout req s) := by
  rw [Bagunceiro.parseLogout]
  refine (Prog.Returns.self _).bind fun p _ => (Prog.Returns.self _).bind fun q _ => .ok ?_
  have login := orders.choose (f := ({ · with type := .qryNone, action := .qaLogin }))
    (c := p.code = retNoValue) (fun _ => rfl) fun _ => rfl
  split
  · exact ⟨.qaLogout, .inr (.inr (.inr rfl)), (login.act .qaLogout).of_order (by rfl)⟩
  · refine ⟨_, ?_, login⟩
    split
    · exact .inr (.inr (.inl rfl))
    · exact .inl rfl

end Steps

/-! ## A parsed request -/

/-- **What a parsed request orders.**  The stamp is that of the form, between the
digits that are cut off; the action is that of the form, or one that needs no
entry. -/
theorem parseRequest_order {req : HttpRequest} {s s' : Server} {fs fs' : Fs}
    (parsed : exec (parseRequest req s) fs = (.ok s', fs')) :
    s'.conf.qry.ts = inflateTs (formStamp req) ∧ (formStamp req).length = fmtTaiaHex ∧
      (branch s' = formAction req ∨ Elsewhere (branch s')) := by
  obtain ⟨s₁, s₂, s₃, s₄, s₅, steps⟩ := parseRequest_steps parsed
  have start : Orders s₁ .qaShow (zeros fmtTaiaHex) :=
    ⟨congrArg Prod.snd steps.cookie, List.length_replicate⟩
  have admin := (start.parseQuery s₂ steps.query).doAdminMode s₃ steps.admin
  have token := admin.of_order (congrArg Prod.snd steps.token)
  obtain ⟨action, chosen, logout⟩ := token.parseLogout s₅ steps.logout
  have stamp : s'.conf.qry.ts = inflateTs s₅.conf.qry.ts := by
    rw [steps.checked]
    rw [checkCss, checkTs]
    split_ifs <;> rfl
  have sent : branch s' = s₅.conf.qry.action ∨ branch s' = .qaShow := by
    rw [steps.checked]
    unfold branch accessGate checkCss checkTs
    dsimp only
    split_ifs <;> first | exact .inl rfl | exact .inr rfl
  obtain ⟨action', stamp'⟩ := Prod.mk.inj logout.order
  refine ⟨by rw [stamp, stamp'], logout.length, ?_⟩
  rcases sent with same | shown
  · rw [same, action']
    exact chosen
  · exact .inr (.inl shown)

/-- An action that needs an entry is that of the form. -/
theorem formAction_of_branch {req : HttpRequest} {s s' : Server} {fs fs' : Fs} {action : Qaction}
    (parsed : exec (parseRequest req s) fs = (.ok s', fs')) (is : branch s' = action)
    (needed : ¬ Elsewhere action) : formAction req = action := by
  obtain ⟨-, -, same | elsewhere⟩ := parseRequest_order parsed
  · exact same.symm.trans is
  · exact absurd (is ▸ elsewhere) needed

/-- To delete, the stamp is that of `del`: nothing is read over it. -/
theorem formStamp_of_delete {req : HttpRequest} {v : Bytes} (form : formAction req = .qaDelete)
    (value : queryDel.value req = some v) :
    postedAction req ≠ some (str "mod") ∧ ∃ rest, formStamp req = v ++ 0 :: rest := by
  have query : postedAction req ≠ some (str "mod") ∧ queryAction req = .qaDelete := by
    rw [formAction, actionOf] at form
    split_ifs at form with add mod config
    exact ⟨mod, form⟩
  refine ⟨query.1, ?_⟩
  have noMod : queryMod.value req = none := by
    have action := query.2
    rw [queryAction] at action
    split_ifs at action with mod
    simpa using mod
  have stamp : formStamp req = queryDel.onto req (queryTs.onto req (zeros fmtTaiaHex)) := by
    rw [formStamp, form, stampOf, if_neg (by simp)]
    exact Site.onto_of_absent noMod (keySite_accepts (by decide) req) _
  rw [stamp]
  exact Site.onto_of_value value _

/-- To modify, it is that of the form or, without a text, what the query string left. -/
theorem formStamp_of_modify {req : HttpRequest} (form : formAction req = .qaModifyPost) :
    postedAction req = some (str "mod") ∧ formStamp req =
      if (postInput.value req).isSome then postKey.onto req (queryStamp req)
      else queryStamp req := by
  refine ⟨?_, by simp [formStamp, form, stampOf]⟩
  rw [formAction, actionOf] at form
  split_ifs at form with add mod config
  · exact mod
  · have query := queryAction_mem req
    rw [form] at query
    exact absurd query (by decide)

end Bagunceiro
