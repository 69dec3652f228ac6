/-
# Mainblog -- from a request to the query it asks for (`z_mainblog.c`)

A request is three strings, and what the code finds outside while it serves it:
clock readings, random numbers, leftover memory, the files that exist.  The
parameters are written into `blog_t` one after the other, by the call sites
listed first, each with its limits; a write past the end of its destination is
`Fault.overflow`.  Two of them have a place the overrun goes to: behind `sbox`
there is padding, and behind `sid` the title (`storeSid`).

The build is `admin.cgi` with passwords and FastCGI.
-/
import Bagunceiro.Conf
import Bagunceiro.HttpParam
import Bagunceiro.Time

namespace Bagunceiro

open Effect

set_option autoImplicit false

/-! ## Requests -/

/-- What serving a request finds outside the program. -/
structure Env where
  /-- `conf.now` -/
  now : Taia
  leapsecs : List UInt64
  /-- the file a style sheet parameter names exists -/
  access : Bytes → Bool
  sha256 : Bytes → Bytes
  /-- behind the stored password -/
  past : Nat → UInt8
  /-- the clock of `validate_session_id` -/
  validateAt : Taia
  /-- `add_session_id`: its clock, its random numbers, its batch -/
  loginAt : Taia
  rand : Nat → Nat
  loginMemory : Nat → Slot
  loginClk : Nat → Taia
  /-- `errno` -/
  errno : Int
  /-- the buffer of `scan_time_hex` -/
  left : Bytes
  /-- the batch of the action: its memory and clocks -/
  memory : Nat → Slot
  clk : Nat → Taia
  entryAt : Taia
  modifiedAt : Taia

structure HttpRequest extends Env where
  queryString : Option Bytes
  cookie : Option Bytes
  postData : Bytes

/-- The label of the start of 1970. -/
def epoch : UInt64 := 0x4000000000000000

/-- A request that carries nothing, at the start of 1970, with every automatic
variable zero.  The hash is what a test needs one to be. -/
def HttpRequest.blank : HttpRequest where
  now := ⟨epoch, 0, 0⟩
  leapsecs := []
  access _ := true
  sha256 s := s
  past _ := 0
  validateAt := ⟨epoch, 0, 0⟩
  loginAt := ⟨epoch, 0, 0⟩
  rand _ := 0
  loginMemory _ := ⟨0, 0, fun _ => 0⟩
  loginClk _ := ⟨epoch, 0, 0⟩
  errno := 0
  left := zeros taiaPackSize
  memory _ := ⟨0, 0, fun _ => 0⟩
  clk _ := ⟨epoch, 0, 0⟩
  entryAt := ⟨epoch, 0, 0⟩
  modifiedAt := ⟨epoch, 0, 0⟩
  queryString := none
  cookie := none
  postData := []

/-- `blog_t` and the notice, which outlive a request. -/
structure Server where
  conf : Blog
  gerr : Errors
  deriving DecidableEq, Repr

namespace Server

/-- `set_err` -/
def setErr (s : Server) (msg : Bytes) (num : Int) (type : Notice) : Server :=
  { s with gerr := ⟨msg, num, type⟩ }

def modConf (s : Server) (f : Blog → Blog) : Server := { s with conf := f s.conf }

def modQry (s : Server) (f : Query → Query) : Server :=
  { s with conf := { s.conf with qry := f s.conf.qry } }

end Server

/-! ## Call sites of `get_http_param` -/

inductive Source
  | cookie | query | post
  deriving DecidableEq, Repr

/-- An array: the strings of the environment come with their terminator. -/
def HttpRequest.array (req : HttpRequest) : Source → Bytes
  | .cookie => (req.cookie.map (· ++ [0])).getD []
  | .query => (req.queryString.map (· ++ [0])).getD []
  | .post => req.postData

structure Site where
  source : Source
  qmax : Option Nat
  search : Bytes
  n : Limit
  sep : Bytes

def Site.get (site : Site) (req : HttpRequest) : Except Fault Param :=
  getHttpParam (req.array site.source) site.qmax site.search site.n site.sep

/-- `POSTDATA_MAX` -/
def postdataMax : Nat := 1024 * 64
/-- `QUERY_MAX` -/
def queryMax : Nat := 128
/-- `COOKIE_MAX` -/
def cookieMax : Nat := 128
/-- `MAX_KEY_LENGTH_STR` -/
def maxKeyLengthStr : Nat := 50
/-- `MAX_FMT_LENGTH` -/
def maxFmtLength : Nat := 5
/-- `FMT_CALDATE` -/
def fmtCaldate : Nat := 15

def cookieSite (search : Bytes) (n : Nat) : Site := ⟨.cookie, some cookieMax, search, .upTo n, str "; "⟩
def querySite (search : Bytes) (n : Nat) : Site := ⟨.query, some queryMax, search, .upTo n, str "&"⟩
/-- The sites that take a query string only up to a few bytes more than a key. -/
def keySite (search : Bytes) (n : Limit) : Site :=
  ⟨.query, some (maxKeyLengthStr + 4), search, n, str "&"⟩
def postSite (search : Bytes) (n : Limit) : Site := ⟨.post, none, search, n, str "&"⟩

def cookieCss : Site := cookieSite (str "css") sizeHttpArg
def queryTs : Site := querySite (str "ts") maxKeyLengthStr
def queryQry : Site := querySite (str "qry") sizeFindStr
def queryTag : Site := querySite (str "tag") sizeFindStr
def queryCss : Site := keySite (str "css") (.upTo maxKeyLengthStr)
def queryFmt : Site := ⟨.query, some (maxFmtLength + 4), str "fmt", .upTo maxFmtLength, str "&"⟩
def queryMonth : Site := querySite (str "mn") fmtCaldate
def queryDel : Site := keySite (str "del") (.upTo maxKeyLengthStr)
def queryAdd : Site := keySite (str "add") .noValue
def queryConfig : Site := keySite (str "config") .noValue
def queryMod : Site := keySite (str "mod") (.upTo maxKeyLengthStr)
def postAction : Site := postSite (str "action") (.upTo 7)
def postTitle : Site := postSite (str "title") (.upTo sizeHttpArg)
def postTagline : Site := postSite (str "tagline") (.upTo sizeTagline)
def postPass : Site := postSite (str "pass") (.upTo sizeHttpArg)
def postSearchbox : Site := postSite (str "sbox") (.upTo 1)
def postInput : Site := postSite (str "input") .unlimited
def postKey : Site := postSite (str "key") (.upTo maxKeyLengthStr)
def cookieSid : Site := cookieSite (str "sid") (sizeSessionId + 1)
def postLogin : Site := postSite (str "login") (.upTo 100)
def queryLogin : Site := keySite (str "login") .noValue
def queryLogout : Site := keySite (str "logout") .noValue

/-! ## Reading parameters -/

/-- The notice a refused parameter leaves. -/
def Server.noted (s : Server) (p : Param) : Server :=
  if p.bad then s.setErr (str "Invalid input") 0 .nError else s

/-- A parameter that goes to a buffer of the query. -/
def readQry (req : HttpRequest) (site : Site) (size : Nat) (get : Query → Bytes)
    (set : Bytes → Query → Query) (s : Server) : Except Fault (Int × Server) := do
  let p ← site.get req
  let buffer ← store size (get s.conf.qry) p.write
  return (p.code, (s.modQry (set buffer)).noted p)

/-- A parameter that goes to an automatic buffer: its string. -/
def readLocal (req : HttpRequest) (site : Site) (size : Nat) (s : Server) :
    Except Fault (Int × Bytes × Server) := do
  let p ← site.get req
  let buffer ← store size [] p.write
  return (p.code, cstr buffer, s.noted p)

def readTs (req : HttpRequest) (site : Site) : Server → Except Fault (Int × Server) :=
  readQry req site fmtTaiaHex (·.ts) fun b q => { q with ts := b }

def readCss (req : HttpRequest) (site : Site) : Server → Except Fault (Int × Server) :=
  readQry req site sizeHttpArg (·.css) fun b q => { q with css := b }

/-! ## The parsers -/

def parseCookie (req : HttpRequest) (s : Server) : Except Fault Server := do
  let (err, s) ← readCss req cookieCss s
  return if err = paramSuccess then s.modQry ({ · with csstype := .cssCookie }) else s

def parseQuery (req : HttpRequest) (s : Server) : Except Fault Server := do
  let (err, s) ← readTs req queryTs s
  let s := if err = paramSuccess then s.modQry ({ · with type := .qryTs, action := .qaShow }) else s
  let (err, s) ← readQry req queryQry sizeFindStr (·.find) (fun b q => { q with find := b }) s
  let s := if err = paramSuccess then s.modQry ({ · with type := .qryFind, action := .qaShow }) else s
  let (err, s) ← readQry req queryTag sizeFindStr (·.tag) (fun b q => { q with tag := b }) s
  let s := if err = paramSuccess then s.modQry ({ · with type := .qryTag, action := .qaShow }) else s
  let (err, s) ← readCss req queryCss s
  let s := if err = retNoValue then s.modQry ({ · with csstype := .cssReset }) else s
  let s := if err = paramSuccess then s.modQry ({ · with csstype := .cssSelect }) else s
  let (err, buf, s) ← readLocal req queryFmt (sizeHttpArg + maxFmtLength + maxFmtLength) s
  let s := if err = paramSuccess ∧ buf = str "rss" then s.modQry ({ · with stype := .sRss }) else s
  let (err, buf, s) ← readLocal req queryMonth (sizeHttpArg + maxFmtLength + maxFmtLength) s
  return if err = paramSuccess then
      s.modQry fun q =>
        { q with
          type := .qryMonth
          action := .qaShow
          mon := { q.mon with date := caldateScan (buf ++ str "-01") q.mon.date } }
    else s.modQry ({ · with mon := caltimeUtc req.leapsecs req.now.sec })

/-- The parameters of a configuration form.  `sbox` is one byte; what is written
behind it falls into the padding of the structure. -/
def parseConfigPost (req : HttpRequest) (s : Server) : Except Fault Server := do
  let (_, s) ← readQry req postTitle sizeHttpArg (·.title) (fun b q => { q with title := b }) s
  let (_, s) ← readQry req postTagline sizeTagline (·.tagline) (fun b q => { q with tagline := b }) s
  let (_, s) ← readQry req postPass sizeHttpArg (·.pass) (fun b q => { q with pass := b }) s
  let p ← postSearchbox.get req
  let s := (s.modConf fun conf => { conf with sbox := p.write.headD conf.sbox }).noted p
  return if p.code = retNotFound then s.modConf ({ · with sbox := 110 }) else s

/-- The parameters of an entry form. -/
def parseEntryPost (req : HttpRequest) (s : Server) : Except Fault Server := do
  let (err, parg, s) ← readLocal req postInput req.postData.length s
  if err = paramSuccess then
    let s := s.modQry fun q => { q with input := q.input ++ parg ++ [0] }
    let (_, s) ← readTs req postKey s
    return s
  else
    return s

/-- The part of `do_admin_mode` that reads the posted data. -/
def parsePost (req : HttpRequest) (s : Server) : Except Fault Server := do
  if req.postData.length < postdataMax ∧ req.postData ≠ [] then
    let (err, tmp, s) ← readLocal req postAction 30 s
    if err = paramSuccess then
      let s ←
        if tmp = str "add" then pure (s.modQry ({ · with action := .qaAddPost }))
        else if tmp = str "mod" then pure (s.modQry ({ · with action := .qaModifyPost }))
        else if tmp = str "config" then
          parseConfigPost req (s.modQry ({ · with action := .qaConfigPost }))
        else pure s
      if s.conf.qry.action = .qaAddPost ∨ s.conf.qry.action = .qaModifyPost then
        parseEntryPost req s
      else
        return s
    else
      return s
  else
    return s

def doAdminMode (req : HttpRequest) (s : Server) : Except Fault Server := do
  let (err, s) ← readTs req queryDel s
  let s := if err = paramSuccess then s.modQry ({ · with action := .qaDelete, type := .qryNone }) else s
  let p ← queryAdd.get req
  let s := if p.code = retNoValue then s.modQry ({ · with action := .qaAdd, type := .qryNone }) else s
  let p ← queryConfig.get req
  let s :=
    if p.code = retNoValue then s.modQry ({ · with action := .qaConfig, type := .qryNone }) else s
  let (err, s) ← readTs req queryMod s
  let s := if err = paramSuccess then s.modQry ({ · with type := .qryNone, action := .qaModify }) else s
  parsePost req s

/-- Writing to `sid`, behind which `title` stands: the terminator of a text that
fills `sid` ends up there. -/
def storeSid (conf : Blog) (new : Bytes) : Except Fault Blog :=
  if new.length ≤ sizeSessionId + 1 + sizeHttpArg then
    .ok
      { conf with
        sid := new.take (sizeSessionId + 1) ++ conf.sid.drop new.length
        title := new.drop (sizeSessionId + 1) ++ conf.title.drop (new.length - (sizeSessionId + 1)) }
  else .error .overflow

/-- `do_admin_pass_mode`, the session cookie. -/
def parseSid (req : HttpRequest) (s : Server) : M Server := do
  let s := s.modConf fun conf =>
    { conf with authtype := .authNone, auth := false, sid := 0 :: conf.sid.drop 1 }
  let p ← written (cookieSid.get req)
  let conf ← written (storeSid s.conf p.write)
  let s := (s.modConf fun _ => conf).noted p
  if p.code = paramSuccess then
    let auth ← validateSessionId req.validateAt s.conf.sid
    return s.modConf ({ · with auth, authtype := .authSid })
  else
    return s

/-- `do_admin_pass_mode`, the posted password. -/
def parseLogin (req : HttpRequest) (s : Server) : M Server := do
  let (err, tmptoken, s) ← written (readLocal req postLogin 10 s)
  if err = paramSuccess then
    let auth ← authConf req.sha256 req.past tmptoken
    let s := s.modConf ({ · with auth })
    let s ←
      if auth then do
        let (err, sid) ← addSessionId req.loginMemory req.loginClk req.loginAt req.rand s.conf.sid
        let s := s.modConf ({ · with sid })
        pure (if err < 0 then s.setErr (str ("Could not add session id, check if the db/ directory " ++
          "is writable by the webserver")) 0 .nError else s)
      else pure s
    return s.modConf ({ · with authtype := .authPost })
  else
    return s

/-- `do_admin_pass_mode`, the two parameters of the query string. -/
def parseLogout (req : HttpRequest) (s : Server) : Except Fault Server := do
  let p ← queryLogin.get req
  let s := if p.code = retNoValue then s.modQry ({ · with type := .qryNone, action := .qaLogin }) else s
  let p ← queryLogout.get req
  return if p.code = retNoValue then
      (s.modQry ({ · with action := .qaLogout })).modConf ({ · with auth := false })
    else s

def doAdminPassMode (req : HttpRequest) (s : Server) : M Server := do
  let s ← parseSid req s
  let s ← parseLogin req s
  written (parseLogout req s)

/-! ## The request loop up to `handle_query` -/

/-- The variables `main` resets for every request. -/
def resetVariables (req : HttpRequest) (s : Server) : Server :=
  (s.modQry fun q =>
    { q with
      action := .qaShow
      type := .qryWeek
      start := 0
      doff := 8
      stype := .sHtml
      csstype := .cssDefault
      input := []
      ts := zeros fmtTaiaHex }).modConf ({ · with now := req.now })

def checkTs (s : Server) : Server :=
  if s.conf.qry.type = .qryTs ∧ ¬ verifyTs s.conf.qry.ts then
    (s.modQry ({ · with action := .qaShow, type := .qryWeek })).setErr
      (str "Not a valid timestamp") 0 .nError
  else s

def checkCss (req : HttpRequest) (s : Server) : Server :=
  if s.conf.qry.csstype ≠ .cssDefault ∧ s.conf.qry.csstype ≠ .cssReset ∧
      ¬ req.access (cstr s.conf.qry.css) then
    s.modQry ({ · with csstype := .cssError })
  else s

/-- One round of the loop, up to `handle_query`. -/
def parseRequest (req : HttpRequest) (s : Server) : M Server := do
  let s := resetVariables req s
  let s ← written (parseCookie req s)
  let s ← written (parseQuery req s)
  let s ← written (doAdminMode req s)
  let s ← doAdminPassMode req s
  let s := checkCss req (checkTs s)
  return s.modQry fun q => { q with ts := inflateTs q.ts }

end Bagunceiro
