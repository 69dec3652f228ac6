/-
# Bounds -- where the parameters of a request are written

Every call of `get_http_param` comes with a destination and with a limit for the
text of the request, which is not decoded yet.  What is written is the decoded
text and a terminator, or `bad`.  So a limit as large as its buffer leaves no room
for the terminator, and one that is larger leaves less; `Dest.Takes` says for each
destination which texts it has room for.

The calls follow each other in the order of `parseRequest`, which gets through
exactly when each of them finds its room (`parseQuery_succeeds_iff` and the others).
-/
import Bagunceiro.Quiet

namespace Bagunceiro

open Effect Prog Radix Tokens

set_option autoImplicit false

/-! ## Destinations -/

inductive Dest
  | ts | find | tag | css | title | tagline | pass | sid | sbox | tmptoken | tmp | buf | parg
  /-- the null pointer -/
  | null
  deriving DecidableEq, Repr

/-- The declared size. -/
def Dest.size (req : HttpRequest) : Dest → Nat
  | .ts => fmtTaiaHex
  | .find => sizeFindStr
  | .tag => sizeFindStr
  | .css => sizeHttpArg
  | .title => sizeHttpArg
  | .tagline => sizeTagline
  | .pass => sizeHttpArg
  | .sid => sizeSessionId + 1
  | .sbox => 1
  | .tmptoken => 10
  | .tmp => 30
  | .buf => sizeHttpArg + maxFmtLength + maxFmtLength
  | .parg => req.postData.length
  | .null => 0

/-- What is written behind it ends the run; behind the search box there is padding,
and behind the session id the title. -/
def Dest.Guarded (dest : Dest) : Prop := dest ≠ .sbox ∧ dest ≠ .sid

instance (dest : Dest) : Decidable dest.Guarded := inferInstanceAs (Decidable (_ ∧ _))

structure ParamCall where
  site : Site
  dest : Dest

/-! ## The calls of a request -/

def parseCookieCalls : List ParamCall := [⟨cookieCss, .css⟩]

def parseQueryCalls : List ParamCall :=
  [⟨queryTs, .ts⟩, ⟨queryQry, .find⟩, ⟨queryTag, .tag⟩, ⟨queryCss, .css⟩, ⟨queryFmt, .buf⟩,
    ⟨queryMonth, .buf⟩]

def configCalls : List ParamCall :=
  [⟨postTitle, .title⟩, ⟨postTagline, .tagline⟩, ⟨postPass, .pass⟩, ⟨postSearchbox, .sbox⟩]

def entryCalls (req : HttpRequest) : List ParamCall :=
  ⟨postInput, .parg⟩ :: if (postInput.value req).isSome then [⟨postKey, .ts⟩] else []

/-- What the action that is posted has read. -/
def formCalls (req : HttpRequest) (action : Option Bytes) : List ParamCall :=
  if action = some (str "add") ∨ action = some (str "mod") then entryCalls req
  else if action = some (str "config") then configCalls
  else []

def postCalls (req : HttpRequest) : List ParamCall :=
  if readsPost req then ⟨postAction, .tmp⟩ :: formCalls req (postedAction req) else []

def doAdminModeCalls (req : HttpRequest) : List ParamCall :=
  [⟨queryDel, .ts⟩, ⟨queryAdd, .null⟩, ⟨queryConfig, .null⟩, ⟨queryMod, .ts⟩] ++ postCalls req

def doAdminPassModeCalls : List ParamCall :=
  [⟨cookieSid, .sid⟩, ⟨postLogin, .tmptoken⟩, ⟨queryLogin, .ts⟩, ⟨queryLogout, .ts⟩]

def calls (req : HttpRequest) : List ParamCall :=
  parseCookieCalls ++ parseQueryCalls ++ doAdminModeCalls req ++ doAdminPassModeCalls

/-- They end where a piece of the request has no key. -/
def made (req : HttpRequest) : List ParamCall :=
  (calls req).takeWhile fun call => (call.site.get req).isOk

/-- The number of bytes a call writes. -/
def ParamCall.writes (req : HttpRequest) (call : ParamCall) : Nat :=
  match call.site.get req with
  | .ok p => p.write.length
  | .error _ => 0

/-! ## What a call is given -/

/-- What follows the name in the first piece that starts with it. -/
def textAfter (search : Bytes) (queries : List Bytes) : Option Bytes :=
  (queries.find? fun query => (pieces (· = 61) query).head? = some search).bind
    fun query => (pieces (· = 61) query)[1]?

/-- The text of a parameter as it stands in the request. -/
def Site.given (site : Site) (req : HttpRequest) : Option Bytes :=
  if req.array site.source = [] ∨ site.qmax.any (· < (req.array site.source).length) ∨
      site.n = .noValue then
    none
  else textAfter site.search (pieces (· ∈ site.sep) (cstr (req.array site.source)))

/-- A destination has room for a text.  Where the limit is the size, a text that
uses it up has to get shorter when it is decoded. -/
def Dest.Takes : Dest → Bytes → Prop
  | .ts, v => maxKeyLengthStr < v.length ∨ (scanUrlencoded v).length < fmtTaiaHex
  | .find, v => v.length = sizeFindStr → (37 : UInt8) ∈ v
  | .tag, v => v.length = sizeFindStr → (37 : UInt8) ∈ v
  | .css, v => v.length = sizeHttpArg → (37 : UInt8) ∈ v
  | .title, v => v.length = sizeHttpArg → (37 : UInt8) ∈ v
  | .tagline, v => v.length = sizeTagline → (37 : UInt8) ∈ v
  | .pass, v => v.length = sizeHttpArg → (37 : UInt8) ∈ v
  | .sid, v => v.length = sizeSessionId + 1 → (37 : UInt8) ∈ v
  | .sbox, v => v = [37]
  | .tmptoken, v => 100 < v.length ∨ (scanUrlencoded v).length < 10
  | .tmp, _ => True
  | .buf, _ => True
  | .parg, _ => True
  | .null, _ => True

/-! ## Decoded lengths -/

theorem length_scanUrlencoded_le (s : Bytes) : (scanUrlencoded s).length ≤ s.length := by
  fun_induction scanUrlencoded s with
  | case1 => exact Nat.le_refl _
  | case2 _ _ _ _ _ _ _ ih =>
      rw [List.length_cons, List.length_cons, List.length_cons, List.length_cons]
      omega
  | case3 => exact Nat.zero_le _
  | case4 => exact Nat.zero_le _
  | case5 _ _ _ ih =>
      rw [List.length_cons, List.length_cons]
      exact Nat.succ_le_succ ih

/-- An escape makes it shorter, a bad one too. -/
theorem length_scanUrlencoded_lt {s : Bytes} (escape : (37 : UInt8) ∈ s) :
    (scanUrlencoded s).length < s.length := by
  fun_induction scanUrlencoded s with
  | case1 => cases escape
  | case2 _ _ rest _ _ _ _ _ =>
      have short := length_scanUrlencoded_le rest
      rw [List.length_cons, List.length_cons, List.length_cons, List.length_cons]
      omega
  | case3 => exact Nat.succ_pos _
  | case4 => exact Nat.succ_pos _
  | case5 c cs plain ih =>
      rw [List.mem_cons] at escape
      have short := ih (escape.resolve_left (Ne.symm plain))
      rw [List.length_cons, List.length_cons]
      omega

theorem length_scanUrlencoded_of_plain {s : Bytes} (plain : (37 : UInt8) ∉ s) :
    (scanUrlencoded s).length = s.length := by
  induction s with
  | nil => rfl
  | cons c cs ih =>
      rw [List.mem_cons, not_or] at plain
      unfold scanUrlencoded
      rw [if_neg (Ne.symm plain.1), List.length_cons, List.length_cons, ih plain.2]

/-- Within a limit that is the size, only a text that uses it up can be too long. -/
theorem length_scanUrlencoded_lt_iff {v : Bytes} {n : Nat} (short : v.length ≤ n) :
    (scanUrlencoded v).length < n ↔ (v.length = n → (37 : UInt8) ∈ v) := by
  constructor
  · intro fits full
    by_contra plain
    rw [length_scanUrlencoded_of_plain plain, full] at fits
    exact Nat.lt_irrefl n fits
  · intro escaped
    rcases Nat.lt_or_eq_of_le short with less | full
    · exact Nat.lt_of_le_of_lt (length_scanUrlencoded_le v) less
    · exact full ▸ length_scanUrlencoded_lt (escaped full)

/-! ## The text that decides what is written -/

section Given

variable {site : Site} {req : HttpRequest} {p : Param} {v : Bytes}

theorem searchParam_write_eq {search : Bytes} {n : Limit} {queries : List Bytes}
    (found : searchParam search n queries = .ok p) :
    p.write = ((textAfter search queries).map fun v => (foundParam (some v) n).write).getD [] := by
  induction queries with
  | nil =>
      cases found
      rfl
  | cons query rest ih =>
      unfold searchParam at found
      unfold textAfter at ih ⊢
      cases cut : pieces (· = (61 : UInt8)) query with
      | nil =>
          rw [cut] at found
          cases found
      | cons key vals =>
          rw [cut] at found
          simp only at found
          by_cases is : key = search
          · rw [if_pos is] at found
            cases found
            rw [List.find?_cons_of_pos (by simp [cut, is]), Option.bind_some, cut]
            cases vals with
            | nil => rfl
            | cons v vals => rfl
          · rw [if_neg is] at found
            rw [List.find?_cons_of_neg (by simp [cut, is])]
            exact ih found

/-- What is written comes from the text the parameter is given. -/
theorem Site.write_eq (got : site.get req = .ok p) :
    p.write = ((site.given req).map fun v => (foundParam (some v) site.n).write).getD [] := by
  unfold Site.get getHttpParam at got
  unfold Site.given
  by_cases refused : req.array site.source = [] ∨ site.qmax.any (· < (req.array site.source).length)
  · rw [if_pos refused] at got
    rw [if_pos (refused.imp_right .inl)]
    cases got
    rfl
  · rw [if_neg refused] at got
    have written := searchParam_write_eq got
    by_cases silent : site.n = .noValue
    · rw [if_pos (.inr (.inr silent)), written, silent]
      cases textAfter site.search (pieces (· ∈ site.sep) (cstr (req.array site.source))) with
      | none => rfl
      | some v => rfl
    · rw [not_or] at refused
      rw [if_neg (not_or.2 ⟨refused.1, not_or.2 ⟨refused.2, silent⟩⟩), written]

/-- A limit bounds what is written. -/
theorem Site.write_le {n : Nat} (limit : site.n = .upTo n) (got : site.get req = .ok p) :
    p.write.length ≤ max n 3 + 1 := by
  rw [Site.write_eq got, limit]
  cases site.given req with
  | none => exact Nat.zero_le _
  | some v =>
      simp only [Option.map_some, Option.getD_some, foundParam]
      split
      · exact Nat.succ_le_succ (Nat.le_max_right n 3)
      · have decoded := length_scanUrlencoded_le v
        rw [List.length_append, List.length_singleton]
        omega

/-- It is part of a string that is not too long, behind a key. -/
structure Site.Offers (site : Site) (req : HttpRequest) (v : Bytes) : Prop where
  some_ : v ≠ []
  short : v.length < (req.array site.source).length
  taken : ¬ site.qmax.any (· < (req.array site.source).length)
  wanted : site.n ≠ .noValue

theorem Site.offers_of_given (given : site.given req = some v) : site.Offers req v := by
  unfold Site.given at given
  split at given
  · cases given
  · rename_i taken
    rw [not_or, not_or] at taken
    obtain ⟨query, found, second⟩ := Option.bind_eq_some_iff.1 given
    have inside := length_le_of_mem_pieces (List.mem_of_find?_eq_some found)
    have whole : (cstr (req.array site.source)).length ≤ (req.array site.source).length :=
      (List.takeWhile_prefix _).length_le
    cases cut : pieces (· = (61 : UInt8)) query with
    | nil =>
        rw [cut] at second
        cases second
    | cons key vals =>
        rw [cut, List.getElem?_cons_succ] at second
        have member : v ∈ pieces (· = (61 : UInt8)) query :=
          cut ▸ List.mem_cons_of_mem key (List.mem_of_getElem? second)
        cases vals with
        | nil => cases second
        | cons w vals =>
            cases second
            have less := length_lt_of_pieces_eq cut
            exact ⟨ne_nil_of_mem_pieces member, by omega, taken.2.1, taken.2.2⟩

end Given

/-! ## One call -/

/-- The text a call is given decides whether it keeps inside. -/
def ParamCall.Decided (req : HttpRequest) (call : ParamCall) : Prop :=
  ∀ v ∈ call.site.given req,
    ((foundParam (some v) call.site.n).write.length ≤ call.dest.size req ↔ call.dest.Takes v)

section Sites

variable {req : HttpRequest} {site : Site} {dest : Dest} {n size : Nat} {v : Bytes}

/-- There is room for `bad`, and then for the decoded text if it is short enough. -/
theorem fits_upTo_iff (room : 4 ≤ size) :
    (foundParam (some v) (.upTo n)).write.length ≤ size ↔
      n < v.length ∨ (scanUrlencoded v).length < size := by
  unfold foundParam
  simp only
  by_cases long : n < v.length
  · rw [if_pos long]
    exact ⟨fun _ => .inl long, fun _ => room⟩
  · rw [if_neg long, List.length_append, List.length_singleton]
    exact ⟨.inr, fun fits => fits.resolve_left long⟩

theorem decided_noValue (silent : site.n = .noValue) (dest : Dest) :
    ParamCall.Decided req ⟨site, dest⟩ :=
  fun _ given => absurd silent (Site.offers_of_given given).wanted

/-- The limit leaves room for the terminator. -/
theorem decided_below (limit : site.n = .upTo n) (below : n < dest.size req)
    (room : 4 ≤ dest.size req) (takes : ∀ v, dest.Takes v) : ParamCall.Decided req ⟨site, dest⟩ := by
  intro v _
  simp only [limit]
  rw [fits_upTo_iff room]
  refine iff_of_true ?_ (takes v)
  have decoded := length_scanUrlencoded_le v
  omega

/-- The limit is the size. -/
theorem decided_full (limit : site.n = .upTo n) (full : dest.size req = n) (room : 4 ≤ n)
    (takes : ∀ v, dest.Takes v ↔ (v.length = n → (37 : UInt8) ∈ v)) :
    ParamCall.Decided req ⟨site, dest⟩ := by
  intro v _
  simp only [limit, full]
  rw [fits_upTo_iff room, takes]
  constructor
  · intro fits filled
    have short : ¬ n < v.length := by omega
    exact (length_scanUrlencoded_lt_iff (by omega)).1 (fits.resolve_left short) filled
  · intro escaped
    by_cases long : n < v.length
    · exact .inl long
    · exact .inr ((length_scanUrlencoded_lt_iff (by omega)).2 escaped)

/-- The limit is more than the size. -/
theorem decided_above (limit : site.n = .upTo n) (room : 4 ≤ dest.size req)
    (takes : ∀ v, dest.Takes v ↔ (n < v.length ∨ (scanUrlencoded v).length < dest.size req)) :
    ParamCall.Decided req ⟨site, dest⟩ := by
  intro v _
  simp only [limit]
  rw [fits_upTo_iff room, takes]

theorem decided_ts (limit : site.n = .upTo maxKeyLengthStr) : ParamCall.Decided req ⟨site, .ts⟩ :=
  decided_above limit (by decide : 4 ≤ fmtTaiaHex) fun _ => Iff.rfl

/-- A style sheet out of the query string is much shorter than its buffer. -/
theorem decided_queryCss : ParamCall.Decided req ⟨queryCss, .css⟩ := by
  intro v given
  have offers := Site.offers_of_given given
  have inside : (req.array .query).length ≤ maxKeyLengthStr + 4 :=
    Nat.le_of_not_lt fun more => offers.taken (decide_eq_true more)
  have short : v.length < maxKeyLengthStr + 4 := Nat.lt_of_lt_of_le offers.short inside
  have below : v.length < sizeHttpArg := short.trans (by decide)
  have decoded := length_scanUrlencoded_le v
  show (foundParam (some v) (.upTo maxKeyLengthStr)).write.length ≤ sizeHttpArg ↔
    (v.length = sizeHttpArg → (37 : UInt8) ∈ v)
  rw [fits_upTo_iff (by decide)]
  exact iff_of_true (.inr (by omega)) fun filled => absurd filled (by omega)

/-- One byte is the terminator of nothing, which a single `%` is decoded to. -/
theorem decided_searchbox : ParamCall.Decided req ⟨postSearchbox, .sbox⟩ := by
  intro v given
  show (foundParam (some v) (.upTo 1)).write.length ≤ 1 ↔ v = [37]
  unfold foundParam
  cases v with
  | nil => exact absurd rfl (Site.offers_of_given given).some_
  | cons c rest =>
      cases rest with
      | nil =>
          simp only [List.length_singleton, if_neg (Nat.lt_irrefl 1), List.length_append,
            List.cons.injEq, and_true]
          by_cases escape : c = 37
          · subst escape
            decide
          · have plain : (37 : UInt8) ∉ [c] := by simpa using Ne.symm escape
            rw [length_scanUrlencoded_of_plain plain]
            simpa using escape
      | cons d rest =>
          have long : 1 < (c :: d :: rest).length := by simp
          simp only [if_pos long]
          exact iff_of_false (by decide) (by simp)

/-- Text of any length is shorter than the posted data it comes with. -/
theorem decided_input : ParamCall.Decided req ⟨postInput, .parg⟩ := by
  intro v given
  have short : v.length < req.postData.length := (Site.offers_of_given given).short
  have decoded := length_scanUrlencoded_le v
  refine iff_of_true ?_ True.intro
  show (scanUrlencoded v ++ [0]).length ≤ req.postData.length
  rw [List.length_append, List.length_singleton]
  omega

end Sites

/-! ## Every call -/

section Calls

variable {req : HttpRequest} {call : ParamCall}

theorem decided_parseQuery : ∀ call ∈ parseQueryCalls, call.Decided req := by
  refine List.forall_mem_cons.2 ⟨decided_ts rfl, ?_⟩
  refine List.forall_mem_cons.2 ⟨decided_full rfl rfl (by decide) fun _ => Iff.rfl, ?_⟩
  refine List.forall_mem_cons.2 ⟨decided_full rfl rfl (by decide) fun _ => Iff.rfl, ?_⟩
  refine List.forall_mem_cons.2 ⟨decided_queryCss, ?_⟩
  refine List.forall_mem_cons.2
    ⟨decided_below rfl (by decide : maxFmtLength < 74) (by decide : 4 ≤ 74) fun _ => True.intro, ?_⟩
  exact List.forall_mem_singleton.2
    (decided_below rfl (by decide : fmtCaldate < 74) (by decide : 4 ≤ 74) fun _ => True.intro)

theorem decided_configPost : ∀ call ∈ configCalls, call.Decided req := by
  refine List.forall_mem_cons.2 ⟨decided_full rfl rfl (by decide) fun _ => Iff.rfl, ?_⟩
  refine List.forall_mem_cons.2 ⟨decided_full rfl rfl (by decide) fun _ => Iff.rfl, ?_⟩
  refine List.forall_mem_cons.2 ⟨decided_full rfl rfl (by decide) fun _ => Iff.rfl, ?_⟩
  exact List.forall_mem_singleton.2 decided_searchbox

theorem decided_entryPost : ∀ call ∈ entryCalls req, call.Decided req := by
  refine List.forall_mem_cons.2 ⟨decided_input, ?_⟩
  split
  · exact List.forall_mem_singleton.2 (decided_ts rfl)
  · exact List.forall_mem_nil _

theorem decided_post : ∀ call ∈ postCalls req, call.Decided req := by
  unfold postCalls formCalls
  split
  · refine List.forall_mem_cons.2
      ⟨decided_below rfl (by decide : 7 < 30) (by decide : 4 ≤ 30) fun _ => True.intro, ?_⟩
    split_ifs
    · exact decided_entryPost
    · exact decided_configPost
    · exact List.forall_mem_nil _
  · exact List.forall_mem_nil _

theorem decided_doAdminMode : ∀ call ∈ doAdminModeCalls req, call.Decided req := by
  unfold doAdminModeCalls
  refine List.forall_mem_append.2 ⟨?_, decided_post⟩
  refine List.forall_mem_cons.2 ⟨decided_ts rfl, ?_⟩
  refine List.forall_mem_cons.2 ⟨decided_noValue rfl _, ?_⟩
  refine List.forall_mem_cons.2 ⟨decided_noValue rfl _, ?_⟩
  exact List.forall_mem_singleton.2 (decided_ts rfl)

theorem decided_doAdminPassMode : ∀ call ∈ doAdminPassModeCalls, call.Decided req := by
  refine List.forall_mem_cons.2 ⟨decided_full rfl rfl (by decide) fun _ => Iff.rfl, ?_⟩
  refine List.forall_mem_cons.2 ⟨decided_above rfl (by decide : 4 ≤ 10) fun _ => Iff.rfl, ?_⟩
  refine List.forall_mem_cons.2 ⟨decided_noValue rfl _, ?_⟩
  exact List.forall_mem_singleton.2 (decided_noValue rfl _)

theorem decided_calls : ∀ call ∈ calls req, call.Decided req := by
  unfold calls
  refine List.forall_mem_append.2 ⟨?_, decided_doAdminPassMode⟩
  refine List.forall_mem_append.2 ⟨?_, decided_doAdminMode⟩
  refine List.forall_mem_append.2 ⟨?_, decided_parseQuery⟩
  exact List.forall_mem_singleton.2 (decided_full rfl rfl (by decide) fun _ => Iff.rfl)

theorem ParamCall.writes_le_iff (member : call ∈ made req) :
    call.writes req ≤ call.dest.size req ↔ ∀ v ∈ call.site.given req, call.dest.Takes v := by
  have decided := decided_calls call ((List.takeWhile_prefix _).subset member)
  have returns := List.mem_takeWhile_imp member
  unfold ParamCall.writes
  cases got : call.site.get req with
  | error e =>
      rw [got] at returns
      cases returns
  | ok p =>
      simp only
      rw [Site.write_eq got]
      cases given : call.site.given req with
      | none => simp
      | some v =>
          rw [Option.map_some, Option.getD_some, decided v given]
          simp

/-- **A call writes inside of its destination unless it is given a text that is
as long as its limit allows and not as the destination takes it.** -/
theorem writes_inside_iff (req : HttpRequest) :
    (∀ call ∈ made req, call.writes req ≤ call.dest.size req) ↔
      ∀ call ∈ made req, ∀ v ∈ call.site.given req, call.dest.Takes v :=
  forall₂_congr fun _ member => ParamCall.writes_le_iff member

/-- A time stamp of one byte more than its buffer holds. -/
def longStamp : HttpRequest :=
  { HttpRequest.blank with queryString := some (str "ts=" ++ List.replicate fmtTaiaHex 97) }

theorem time_stamp_overflows :
    ¬ ∀ call ∈ made longStamp, call.writes longStamp ≤ call.dest.size longStamp := by
  have overflow : (made longStamp).any fun call =>
      call.dest.size longStamp < call.writes longStamp := by
    decide +kernel
  intro inside
  obtain ⟨call, member, more⟩ := List.any_eq_true.1 overflow
  exact absurd (inside call member) (Nat.not_le.2 (of_decide_eq_true more))

end Calls

/-! ## The calls and the parsers -/

/-- A call returns, inside of its destination if that is guarded. -/
def ParamCall.Passes (req : HttpRequest) (call : ParamCall) : Prop :=
  ∃ p, call.site.get req = .ok p ∧ (call.dest.Guarded → p.write.length ≤ call.dest.size req)

section Parsers

variable {req : HttpRequest} {site : Site} {dest : Dest} {s : Server}

theorem succeeds_store_iff {size : Nat} {buffer new : Bytes} :
    Succeeds (store size buffer new) ↔ new.length ≤ size := by
  unfold store
  split
  · rename_i fits
    exact iff_of_true (.ok _) fits
  · rename_i more
    exact iff_of_false (fun ⟨_, stored⟩ => nomatch stored) more

theorem passes_iff (checked : dest.Guarded) : ParamCall.Passes req ⟨site, dest⟩ ↔
    ∃ p, site.get req = .ok p ∧ p.write.length ≤ dest.size req :=
  exists_congr fun _ => and_congr_right fun _ => ⟨fun fits => fits checked, fun fits _ => fits⟩

/-- A parameter is read, and stored in what its destination held. -/
theorem stored_succeeds_iff {β : Type} (checked : dest.Guarded) (buffer : Bytes)
    (result : Param → Bytes → β) :
    Succeeds (do
      let p ← site.get req
      let stored ← store (dest.size req) buffer p.write
      return result p stored) ↔ ParamCall.Passes req ⟨site, dest⟩ := by
  rw [passes_iff checked]
  cases got : site.get req with
  | error e =>
      refine iff_of_false (fun ⟨_, read⟩ => nomatch read) ?_
      rintro ⟨_, ⟨⟩, -⟩
  | ok p =>
      refine (Succeeds.bind_iff succeeds_store_iff fun _ _ =>
        iff_of_true (.ok _) True.intro).trans ?_
      simp

theorem readQry_succeeds_iff (checked : dest.Guarded) (get : Query → Bytes)
    (set : Bytes → Query → Query) :
    Succeeds (readQry req site (dest.size req) get set s) ↔ ParamCall.Passes req ⟨site, dest⟩ :=
  stored_succeeds_iff checked (get s.conf.qry) fun p buffer => (p.code, (s.modQry (set buffer)).noted p)

theorem readLocal_succeeds_iff (checked : dest.Guarded) :
    Succeeds (readLocal req site (dest.size req) s) ↔ ParamCall.Passes req ⟨site, dest⟩ :=
  stored_succeeds_iff checked [] fun p buffer => (p.code, cstr buffer, s.noted p)

/-- Where no value is wanted, nothing is written. -/
theorem get_succeeds_iff (silent : site.n = .noValue ∨ ¬ dest.Guarded) :
    Succeeds (site.get req) ↔ ParamCall.Passes req ⟨site, dest⟩ := by
  refine exists_congr fun p => ⟨fun got => ⟨got, fun checked => ?_⟩, And.left⟩
  have given : site.given req = none := by
    unfold Site.given
    rw [if_pos (.inr (.inr (silent.resolve_right (not_not_intro checked))))]
  rw [Site.write_eq got, given]
  exact Nat.zero_le _

theorem parseCookie_succeeds_iff :
    Succeeds (parseCookie req s) ↔ ∀ call ∈ parseCookieCalls, call.Passes req := by
  refine (Succeeds.bind_iff (readQry_succeeds_iff (by decide : Dest.css.Guarded) _ _) fun _ _ =>
    iff_of_true (.ok _) True.intro).trans ?_
  simp [parseCookieCalls]

theorem parseQuery_succeeds_iff :
    Succeeds (parseQuery req s) ↔ ∀ call ∈ parseQueryCalls, call.Passes req := by
  unfold parseQueryCalls
  simp only [List.forall_mem_cons]
  refine Succeeds.bind_iff (readQry_succeeds_iff (by decide : Dest.ts.Guarded) _ _) fun _ _ => ?_
  refine Succeeds.bind_iff (readQry_succeeds_iff (by decide : Dest.find.Guarded) _ _) fun _ _ => ?_
  refine Succeeds.bind_iff (readQry_succeeds_iff (by decide : Dest.tag.Guarded) _ _) fun _ _ => ?_
  refine Succeeds.bind_iff (readQry_succeeds_iff (by decide : Dest.css.Guarded) _ _) fun _ _ => ?_
  refine Succeeds.bind_iff (readLocal_succeeds_iff (by decide : Dest.buf.Guarded)) fun _ _ => ?_
  refine Succeeds.bind_iff (readLocal_succeeds_iff (by decide : Dest.buf.Guarded)) fun _ _ => ?_
  exact iff_of_true (.ok _) (List.forall_mem_nil _)

theorem parseConfigPost_succeeds_iff :
    Succeeds (parseConfigPost req s) ↔ ∀ call ∈ configCalls, call.Passes req := by
  unfold configCalls
  simp only [List.forall_mem_cons]
  refine Succeeds.bind_iff (readQry_succeeds_iff (by decide : Dest.title.Guarded) _ _) fun _ _ => ?_
  refine Succeeds.bind_iff (readQry_succeeds_iff (by decide : Dest.tagline.Guarded) _ _)
    fun _ _ => ?_
  refine Succeeds.bind_iff (readQry_succeeds_iff (by decide : Dest.pass.Guarded) _ _) fun _ _ => ?_
  refine Succeeds.bind_iff (get_succeeds_iff (.inr (by decide))) fun _ _ => ?_
  exact iff_of_true (.ok _) (List.forall_mem_nil _)

theorem parseEntryPost_succeeds_iff :
    Succeeds (parseEntryPost req s) ↔ ∀ call ∈ entryCalls req, call.Passes req := by
  unfold entryCalls
  rw [List.forall_mem_cons]
  apply Succeeds.bind_iff (readLocal_succeeds_iff (by decide : Dest.parg.Guarded))
  rintro ⟨err, parg, s'⟩ read
  obtain ⟨p, got, rfl, rfl, rfl⟩ := readLocal_ok read
  have value := Site.value_eq got
  by_cases success : p.code = paramSuccess
  · rw [if_pos success] at value
    simp only [if_pos success]
    rw [value, Option.isSome_some, if_pos rfl, List.forall_mem_cons]
    refine Succeeds.bind_iff (readQry_succeeds_iff (by decide : Dest.ts.Guarded) _ _) fun _ _ => ?_
    exact iff_of_true (.ok _) (List.forall_mem_nil _)
  · rw [if_neg success] at value
    simp only [if_neg success]
    rw [value]
    exact iff_of_true (.ok _) (List.forall_mem_nil _)

theorem readQry_action {size : Nat} {get : Query → Bytes} {set : Bytes → Query → Query}
    (same : ∀ b q, (set b q).action = q.action) :
    Returns (fun r => r.2.conf.qry.action = s.conf.qry.action)
      (readQry req site size get set s) := by
  unfold readQry
  refine Returns.bind (.self _) fun p _ => Returns.bind (.self _) fun buffer _ => .ok ?_
  rw [Server.noted_conf]
  exact same _ _

theorem readTs_action :
    Returns (fun r => r.2.conf.qry.action = s.conf.qry.action) (readTs req site s) :=
  readQry_action fun _ _ => rfl

theorem parseConfigPost_action :
    Returns (fun s' => s'.conf.qry.action = s.conf.qry.action) (parseConfigPost req s) := by
  unfold parseConfigPost
  refine Returns.bind (readQry_action fun _ _ => rfl) fun r₁ title => ?_
  refine Returns.bind (readQry_action fun _ _ => rfl) fun r₂ tagline => ?_
  refine Returns.bind (readQry_action fun _ _ => rfl) fun r₃ pass => ?_
  refine Returns.bind (.self _) fun p _ => .ok ?_
  have noted (conf : Blog → Blog) (same : (conf r₃.2.conf).qry = r₃.2.conf.qry) :
      ((r₃.2.modConf conf).noted p).conf.qry.action = s.conf.qry.action := by
    rw [Server.noted_conf]
    show (conf r₃.2.conf).qry.action = _
    rw [same, pass, tagline, title]
  split
  · exact noted _ rfl
  · exact noted _ rfl

/-- The query string selects none of the actions that go with a form. -/
def Server.Unposted (s : Server) : Prop := s.conf.qry.action ∈ queryActions

theorem Server.Unposted.not_form (unposted : s.Unposted) :
    ¬ (s.conf.qry.action = .qaAddPost ∨ s.conf.qry.action = .qaModifyPost) := by
  unfold Server.Unposted at unposted
  rintro (is | is)
  · exact absurd (is ▸ unposted) (by decide)
  · exact absurd (is ▸ unposted) (by decide)

theorem Server.Unposted.of_eq {s' : Server} (unposted : s.Unposted)
    (same : s'.conf.qry.action = s.conf.qry.action) : s'.Unposted := by
  unfold Server.Unposted
  rw [same]
  exact unposted

theorem Server.Unposted.select (unposted : s.Unposted) {c : Prop} [Decidable c] {f : Query → Query}
    (selected : ∀ q, (f q).action ∈ queryActions) : (if c then s.modQry f else s).Unposted := by
  split
  · exact selected _
  · exact unposted

theorem Server.Unposted.modQry (unposted : s.Unposted) {f : Query → Query}
    (same : ∀ q, (f q).action = q.action) : (s.modQry f).Unposted :=
  unposted.of_eq (same _)

theorem Server.Unposted.frame (unposted : s.Unposted) {c : Prop} [Decidable c] {f : Query → Query}
    (same : ∀ q, (f q).action = q.action) : (if c then s.modQry f else s).Unposted := by
  split
  · exact unposted.modQry same
  · exact unposted

theorem parsePost_succeeds_iff (unposted : s.Unposted) :
    Succeeds (parsePost req s) ↔ ∀ call ∈ postCalls req, call.Passes req := by
  unfold postCalls parsePost
  by_cases size : req.postData.length < postdataMax ∧ req.postData ≠ []
  · have reads : readsPost req = true := decide_eq_true size
    rw [if_pos size, if_pos reads, List.forall_mem_cons]
    apply Succeeds.bind_iff (readLocal_succeeds_iff (by decide : Dest.tmp.Guarded))
    rintro ⟨err, tmp, s'⟩ read
    obtain ⟨p, got, rfl, rfl, rfl⟩ := readLocal_ok read
    have value := Site.value_eq got
    by_cases success : p.code = paramSuccess
    · simp only [if_pos success]
      obtain ⟨v, value, write, -⟩ := Site.get_success got success
      have posted : postedAction req = some (cstr p.write) := by
        rw [write, cstr_concat_zero]
        exact postedAction_of_value reads value
      have form (action : Qaction) (entry : action = .qaAddPost ∨ action = .qaModifyPost) :
          Succeeds (if action = .qaAddPost ∨ action = .qaModifyPost then
              parseEntryPost req ((s.noted p).modQry ({ · with action }))
            else pure ((s.noted p).modQry ({ · with action }))) ↔
            ∀ call ∈ entryCalls req, call.Passes req := by
        rw [if_pos entry]
        exact parseEntryPost_succeeds_iff
      rw [posted]
      unfold formCalls
      simp only [Option.some.injEq]
      by_cases add : cstr p.write = str "add"
      · rw [if_pos add, if_pos (.inl add)]
        exact form .qaAddPost (.inl rfl)
      rw [if_neg add]
      by_cases mod : cstr p.write = str "mod"
      · rw [if_pos mod, if_pos (.inr mod)]
        exact form .qaModifyPost (.inr rfl)
      rw [if_neg mod, if_neg (not_or.2 ⟨add, mod⟩)]
      by_cases config : cstr p.write = str "config"
      · rw [if_pos config, if_pos config]
        refine (Succeeds.bind_iff parseConfigPost_succeeds_iff fun s' parsed => ?_).trans
          (and_iff_left True.intro)
        have action : s'.conf.qry.action = .qaConfigPost := parseConfigPost_action s' parsed
        rw [action, if_neg (by decide)]
        exact iff_of_true (.ok _) True.intro
      · rw [if_neg config, if_neg config]
        have fromQuery :
            ¬ ((s.noted p).conf.qry.action = .qaAddPost ∨ (s.noted p).conf.qry.action = .qaModifyPost) := by
          rw [Server.noted_conf]
          exact unposted.not_form
        show Succeeds (if (s.noted p).conf.qry.action = .qaAddPost ∨
            (s.noted p).conf.qry.action = .qaModifyPost then
          parseEntryPost req (s.noted p) else pure (s.noted p)) ↔ _
        rw [if_neg fromQuery]
        exact iff_of_true (.ok _) (List.forall_mem_nil _)
    · simp only [if_neg success]
      rw [if_neg success] at value
      apply iff_of_true (.ok _)
      rw [postedAction, if_pos reads, value]
      exact List.forall_mem_nil _
  · have reads : ¬ readsPost req = true := fun reads => size (of_decide_eq_true reads)
    rw [if_neg size, if_neg reads]
    exact iff_of_true (.ok _) (List.forall_mem_nil _)

theorem doAdminMode_succeeds_iff (unposted : s.Unposted) :
    Succeeds (doAdminMode req s) ↔ ∀ call ∈ doAdminModeCalls req, call.Passes req := by
  have delete : .qaDelete ∈ queryActions := by decide
  have add : .qaAdd ∈ queryActions := by decide
  have config : .qaConfig ∈ queryActions := by decide
  have modify : .qaModify ∈ queryActions := by decide
  unfold doAdminModeCalls
  simp only [List.cons_append, List.nil_append, List.forall_mem_cons]
  refine Succeeds.bind_iff (readQry_succeeds_iff (by decide : Dest.ts.Guarded) _ _) fun r read => ?_
  have unposted := (unposted.of_eq (readTs_action r read)).select
    (c := r.1 = paramSuccess) (f := ({ · with action := .qaDelete, type := .qryNone })) fun _ => delete
  refine Succeeds.bind_iff (get_succeeds_iff (.inl rfl)) fun p _ => ?_
  have unposted := unposted.select
    (c := p.code = retNoValue) (f := ({ · with action := .qaAdd, type := .qryNone })) fun _ => add
  refine Succeeds.bind_iff (get_succeeds_iff (.inl rfl)) fun p' _ => ?_
  have unposted := unposted.select
    (c := p'.code = retNoValue) (f := ({ · with action := .qaConfig, type := .qryNone })) fun _ => config
  refine Succeeds.bind_iff (readQry_succeeds_iff (by decide : Dest.ts.Guarded) _ _) fun r' read' => ?_
  have unposted := (unposted.of_eq (readTs_action r' read')).select
    (c := r'.1 = paramSuccess) (f := ({ · with type := .qryNone, action := .qaModify })) fun _ => modify
  exact parsePost_succeeds_iff unposted

/-! ## A whole request -/

theorem unposted_parseCookie (unposted : s.Unposted) :
    Returns Server.Unposted (parseCookie req s) := by
  unfold parseCookie
  refine Returns.bind (readQry_action fun _ _ => rfl) fun r same => .ok ?_
  exact (unposted.of_eq same).frame fun _ => rfl

theorem unposted_parseQuery (unposted : s.Unposted) :
    Returns Server.Unposted (parseQuery req s) := by
  have show_ : .qaShow ∈ queryActions := by decide
  unfold parseQuery
  refine Returns.bind (readQry_action fun _ _ => rfl) ?_
  rintro ⟨err, s₁⟩ same
  have unposted := (unposted.of_eq same).select
    (c := err = paramSuccess) (f := ({ · with type := .qryTs, action := .qaShow })) fun _ => show_
  refine Returns.bind (readQry_action fun _ _ => rfl) ?_
  rintro ⟨err, s₂⟩ same
  have unposted := (unposted.of_eq same).select
    (c := err = paramSuccess) (f := ({ · with type := .qryFind, action := .qaShow })) fun _ => show_
  refine Returns.bind (readQry_action fun _ _ => rfl) ?_
  rintro ⟨err, s₃⟩ same
  have unposted := (unposted.of_eq same).select
    (c := err = paramSuccess) (f := ({ · with type := .qryTag, action := .qaShow })) fun _ => show_
  refine Returns.bind (readQry_action fun _ _ => rfl) ?_
  rintro ⟨err, s₄⟩ same
  have unposted := (unposted.of_eq same).frame
    (c := err = retNoValue) (f := ({ · with csstype := .cssReset })) fun _ => rfl
  have unposted := unposted.frame
    (c := err = paramSuccess) (f := ({ · with csstype := .cssSelect })) fun _ => rfl
  refine Returns.bind (.self _) ?_
  rintro ⟨err, buf, s₅⟩ read
  obtain ⟨p, -, -, -, rss⟩ := readLocal_ok read
  have unposted := (unposted.of_eq (congrArg (·.qry.action) (rss ▸ Server.noted_conf _ p))).frame
    (c := err = paramSuccess ∧ buf = str "rss") (f := ({ · with stype := .sRss })) fun _ => rfl
  refine Returns.bind (.self _) ?_
  rintro ⟨err, buf, s₆⟩ read
  obtain ⟨p, -, -, -, month⟩ := readLocal_ok read
  have unposted := unposted.of_eq (congrArg (·.qry.action) (month ▸ Server.noted_conf _ p))
  refine .ok ?_
  split
  · exact show_
  · exact unposted.modQry fun _ => rfl

/-- A step that only computes. -/
theorem exec_written_ok {α : Type} {e : Except Fault α} {a : α} {fs t : Fs}
    (ran : exec (written e) fs = (.ok a, t)) : e = .ok a ∧ t = fs := by
  cases e with
  | ok b =>
      cases ran
      exact ⟨rfl, rfl⟩
  | error e => cases ran

theorem parseLogout_succeeds_iff : Succeeds (parseLogout req s) ↔
    ParamCall.Passes req ⟨queryLogin, .ts⟩ ∧ ParamCall.Passes req ⟨queryLogout, .ts⟩ := by
  unfold parseLogout
  refine Succeeds.bind_iff (get_succeeds_iff (.inl rfl)) fun _ _ => ?_
  refine (Succeeds.bind_iff (get_succeeds_iff (.inl rfl)) fun _ _ => ?_).trans (and_iff_left True.intro)
  exact iff_of_true (.ok _) True.intro

/-- A session id goes no further than into the title. -/
theorem storeSid_succeeds {p : Param} (got : cookieSid.get req = .ok p) (conf : Blog) :
    Succeeds (storeSid conf p.write) := by
  have limit : cookieSid.n = .upTo (sizeSessionId + 1) := rfl
  refine ⟨_, if_pos ((Site.write_le limit got).trans ?_)⟩
  decide

theorem passes_of_doAdminPassMode {fs : Fs}
    (ends : (exec (doAdminPassMode req s) fs).1.isOk = true) :
    ∀ call ∈ doAdminPassModeCalls, call.Passes req := by
  unfold exec doAdminPassMode at ends
  obtain ⟨s₁, fs₁, sid, ends⟩ := exists_of_run_bind_ok handle ends
  obtain ⟨s₂, fs₂, login, ends⟩ := exists_of_run_bind_ok handle ends
  obtain ⟨s₃, fs₃, logout⟩ := exists_of_run_ok handle ends
  refine List.forall_mem_cons.2 ⟨?sid, List.forall_mem_cons.2 ⟨?login, ?logout⟩⟩
  case sid =>
    unfold parseSid at sid
    obtain ⟨p, _, got, -⟩ := exists_of_run_bind_ok handle (congrArg (·.1.isOk) sid)
    exact ⟨p, (exec_written_ok got).1, fun guarded => absurd rfl guarded.2⟩
  case login =>
    unfold parseLogin at login
    obtain ⟨r, _, read, -⟩ := exists_of_run_bind_ok handle (congrArg (·.1.isOk) login)
    exact (readLocal_succeeds_iff (by decide : Dest.tmptoken.Guarded)).1 ⟨r, (exec_written_ok read).1⟩
  case logout =>
    have both := parseLogout_succeeds_iff.1 ⟨s₃, (exec_written_ok logout).1⟩
    exact List.forall_mem_cons.2 ⟨both.1, List.forall_mem_singleton.2 both.2⟩

theorem passes_of_parseRequest {fs : Fs} (ends : (exec (parseRequest req s) fs).1.isOk = true) :
    ∀ call ∈ calls req, call.Passes req := by
  unfold exec parseRequest at ends
  have unposted : (resetVariables req s).Unposted := by
    have show_ : .qaShow ∈ queryActions := by decide
    exact show_
  obtain ⟨s₁, fs₁, cookie, ends⟩ := exists_of_run_bind_ok handle ends
  have cookie := (exec_written_ok cookie).1
  have unposted := unposted_parseCookie unposted s₁ cookie
  obtain ⟨s₂, fs₂, query, ends⟩ := exists_of_run_bind_ok handle ends
  have query := (exec_written_ok query).1
  have unposted := unposted_parseQuery unposted s₂ query
  obtain ⟨s₃, fs₃, admin, ends⟩ := exists_of_run_bind_ok handle ends
  have admin := (exec_written_ok admin).1
  obtain ⟨s₄, fs₄, pass, -⟩ := exists_of_run_bind_ok handle ends
  unfold calls
  refine List.forall_mem_append.2 ⟨?_, passes_of_doAdminPassMode (congrArg (·.1.isOk) pass)⟩
  refine List.forall_mem_append.2 ⟨?_, (doAdminMode_succeeds_iff unposted).1 ⟨s₃, admin⟩⟩
  refine List.forall_mem_append.2 ⟨?_, parseQuery_succeeds_iff.1 ⟨s₂, query⟩⟩
  exact parseCookie_succeeds_iff.1 ⟨s₁, cookie⟩

/-- **A request that is parsed to its end makes all of its calls, and all of them
but those for the search box and the session id stay inside of their
destinations.** -/
theorem inside_of_parseRequest {fs : Fs} (ends : (exec (parseRequest req s) fs).1.isOk = true) :
    made req = calls req ∧
      ∀ call ∈ calls req, call.dest.Guarded → call.writes req ≤ call.dest.size req := by
  have passes := passes_of_parseRequest ends
  constructor
  · refine List.takeWhile_eq_self_iff.2 fun call member => ?_
    obtain ⟨p, got, -⟩ := passes call member
    rw [got]
    rfl
  · intro call member checked
    obtain ⟨p, got, fits⟩ := passes call member
    unfold ParamCall.writes
    rw [got]
    exact fits checked

end Parsers

end Bagunceiro
