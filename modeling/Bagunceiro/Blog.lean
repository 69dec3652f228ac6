/-
# Blog -- what the blog keeps between and during requests (`z_blog.h`, `z_features.h`)

`blog_t` with its query, and the notice `gerr`.  A `char` buffer is the bytes it
holds; its declared size is checked where it is written.
-/
import Bagunceiro.Libowfat.Caldate
import Bagunceiro.Libowfat.Taia

namespace Bagunceiro

set_option autoImplicit false

def sizeHttpArg : Nat := 64
def sizeTagline : Nat := sizeHttpArg * 3
def sizeFindStr : Nat := 24
def sizeSessionId : Nat := 32
/-- Session validity in seconds. -/
def sessionVtime : UInt64 := 43200
/-- `FMT_TAIA_HEX` -/
def fmtTaiaHex : Nat := taiaPackSize * 2 + 1

def dbFile : Bytes := str "db/db.inc"
def confDb : Bytes := str "db/conf.inc"
def sessionDb : Bytes := str "db/session.inc"

/-- `enum qaction` of the `ADMIN_MODE_PASS` build. -/
inductive Qaction
  | qaShow | qaLogin | qaLogout | qaDelete | qaAdd | qaAddPost | qaModify | qaModifyPost
  | qaConfig | qaConfigPost
  deriving DecidableEq, Repr

/-- The number C gives an enumerator: its place in the list. -/
def Qaction.number : Qaction → Nat
  | .qaShow => 0
  | .qaLogin => 1
  | .qaLogout => 2
  | .qaDelete => 3
  | .qaAdd => 4
  | .qaAddPost => 5
  | .qaModify => 6
  | .qaModifyPost => 7
  | .qaConfig => 8
  | .qaConfigPost => 9

/-- `IS_ADMIN_ACTION`: actions above 1 need administration privileges. -/
def isAdminAction (x : Qaction) : Bool := 1 < x.number

/-- `enum qtype` -/
inductive Qtype
  | qryTs | qryWeek | qryMonth | qryNone | qryFind | qryTag
  deriving DecidableEq, Repr

/-- `enum stype` -/
inductive Stype
  | sHtml | sRss
  deriving DecidableEq, Repr

/-- `enum csstype` -/
inductive Csstype
  | cssDefault | cssError | cssReset | cssSelect | cssCookie
  deriving DecidableEq, Repr

/-- `enum authtype` -/
inductive Authtype
  | authNone | authPost | authSid
  deriving DecidableEq, Repr

/-- `query_t` -/
structure Query where
  action : Qaction
  type : Qtype
  ts : Bytes
  start : Nat
  doff : Nat
  mon : Caltime
  find : Bytes
  tag : Bytes
  input : Bytes
  pass : Bytes
  title : Bytes
  tagline : Bytes
  stype : Stype
  css : Bytes
  csstype : Csstype
  deriving DecidableEq, Repr

/-- `blog_t`, without the fields that only the page's links are made of. -/
structure Blog where
  auth : Bool
  authtype : Authtype
  sid : Bytes
  title : Bytes
  tagline : Bytes
  sbox : UInt8
  qry : Query
  now : Taia
  deriving DecidableEq, Repr

/-- A buffer of zero bytes. -/
def zeros (size : Nat) : Bytes := List.replicate size 0

/-- The one time initialization of `main`; what it does not mention is zero. -/
def blogInit : Blog where
  auth := false
  authtype := .authNone
  sid := zeros (sizeSessionId + 1)
  title := zeros sizeHttpArg
  tagline := zeros sizeTagline
  sbox := 110
  qry :=
    { action := .qaShow
      type := .qryTs
      ts := zeros fmtTaiaHex
      start := 0
      doff := 0
      mon := ⟨⟨0, 0, 0⟩, 0, 0, 0, 0⟩
      find := zeros sizeFindStr
      tag := zeros sizeFindStr
      input := []
      pass := zeros sizeHttpArg
      title := zeros sizeHttpArg
      tagline := zeros sizeTagline
      stype := .sHtml
      css := zeros sizeHttpArg
      csstype := .cssDefault }
  now := ⟨0, 0, 0⟩

/-- `enum notice` -/
inductive Notice
  | nError | nNote | nNone | nAction
  deriving DecidableEq, Repr

/-- `struct errors` -/
structure Errors where
  note : Bytes
  error : Int
  type : Notice
  deriving DecidableEq, Repr

end Bagunceiro
