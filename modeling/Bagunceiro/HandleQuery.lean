/-
# HandleQuery -- what a parsed request does (`z_blog.c`, `z_format.c`)

`handle_query` closes the gate for administrators' actions, and then carries the
action out.  The functions that only read the blog's database to fill a page are
left out, and so are the pages: a page is made from what `blog_t` and the notice
hold when it is printed, which is what a request leaves in them.
-/
import Bagunceiro.Entry
import Bagunceiro.Mainblog

namespace Bagunceiro

open Effect

set_option autoImplicit false

/-! ## The gate -/

def accessGate (s : Server) : Server :=
  let s :=
    if isAdminAction s.conf.qry.action ∧ ¬ s.conf.auth then
      s.modQry ({ · with action := .qaShow, type := .qryWeek })
    else s
  if s.conf.authtype = .authPost ∧ ¬ s.conf.auth then
    s.setErr (str "Wrong password") 0 .nError
  else s

/-! ## Actions -/

/-- A change to the blog: `cdbb_start_mod`, what the caller queues, `cdbb_apply`. -/
def changeDb (req : HttpRequest) (queue : Cdbb → Cdbb) : M (Option Int) := do
  match ← cdbbStartMod req.memory dbFile with
  | none => return none
  | some a => return some (← cdbbApply req.clk (queue a))

/-- The notice after a change. -/
def noticeChange (s : Server) (done : Bytes) : Option Int → Server
  | none => s.setErr (str "Could not open database files") 0 .nError
  | some _ => s.setErr done 0 .nNote

def addPost (req : HttpRequest) (s : Server) : M Server := do
  let err ← changeDb req fun a =>
    addEntryNow req.leapsecs req.modifiedAt req.entryAt a s.conf.qry.input
  return (noticeChange s (str "Entry added") err).modQry ({ · with action := .qaShow })

def modifyPost (req : HttpRequest) (k : Taia) (s : Server) : M Server := do
  let err ← changeDb req fun a => modifyEntry req.modifiedAt a k s.conf.qry.input
  return (noticeChange s (str "Entry modified") err).modQry ({ · with action := .qaShow })

def deleteAction (req : HttpRequest) (k : Taia) (s : Server) : M Server := do
  let err ← changeDb req fun a => deleteEntry req.leapsecs req.modifiedAt a k
  return if err.any (· < 0) then s.setErr (cstr s.conf.qry.ts) req.errno .nError
    else noticeChange s (str "Entry deleted") err

/-- The entry is looked up and printed into the form. -/
def modifyAction (k : Taia) (s : Server) : M Server := do
  match ← cdbbOpenRead dbFile with
  | none => .fail .uninitialised
  | some r =>
      let _ ← showEntry r k ⟨[], []⟩
      return s.setErr (str "Modify an entry") 0 .nAction

def configPost (req : HttpRequest) (s : Server) : M Server := do
  let s := s.setErr (str "Configuration saved") 0 .nNone
  let conf ← saveConfig req.memory req.clk s.conf
  return ({ s with conf }).modQry ({ · with action := .qaShow })

def logoutAction (s : Server) : M Server := do
  let err ← expireAllSessions
  return if err < 0 then s.setErr (str "Could not expire sessions") 0 .nError else s

/-- The `switch` of `handle_query`, with the notices of the `print_` functions. -/
def runAction (req : HttpRequest) (k : Taia) (s : Server) : M Server :=
  match s.conf.qry.action with
  | .qaShow => return s
  | .qaAdd => return s.setErr (str "Add a new entry") 0 .nAction
  | .qaAddPost => addPost req s
  | .qaDelete => deleteAction req k s
  | .qaModify => modifyAction k s
  | .qaModifyPost => modifyPost req k s
  | .qaConfig => return s.setErr (str "Configuration") 0 .nAction
  | .qaConfigPost => configPost req s
  | .qaLogin => return s.setErr (str "Login") 0 .nAction
  | .qaLogout => logoutAction s

def handleQuery (req : HttpRequest) (s : Server) : M Server :=
  let k := scanTimeHex req.left s.conf.qry.ts
  runAction req k (accessGate s)

/-- The branch of the `switch` that a parsed request gets to. -/
def branch (s : Server) : Qaction := (accessGate s).conf.qry.action

/-! ## The loop -/

/-- One round of the request loop. -/
def serve (req : HttpRequest) (s : Server) : M Server := do
  let s ← parseRequest req s
  handleQuery req s

/-- `main`, up to the loop. -/
def startServer : M Server := do
  let s : Server := ⟨blogInit, ⟨[], 0, .nNone⟩⟩
  let (err, conf) ← loadConfig s.conf
  let s := { s with conf }
  return if err < 0 then s.setErr (str "Could not load config") 0 .nError else s

/-! ## Who gets past the gate -/

/-- Without privileges the gate leaves the two public actions. -/
theorem branch_of_not_auth {s : Server} (auth : s.conf.auth = false) :
    branch s = .qaShow ∨ branch s = .qaLogin := by
  have action : branch s =
      if isAdminAction s.conf.qry.action then .qaShow else s.conf.qry.action := by
    rw [branch, accessGate]
    simp only [auth, Bool.false_eq_true, not_false_eq_true, and_true]
    split_ifs <;> rfl
  rw [action]
  cases s.conf.qry.action <;> decide

/-- **Without privileges nothing is called**, and only the notice changes. -/
theorem handleQuery_of_not_auth (req : HttpRequest) {s : Server} (auth : s.conf.auth = false) :
    ∃ s', handleQuery req s = .ret s' ∧
      s' = if branch s = .qaLogin then (accessGate s).setErr (str "Login") 0 .nAction
        else accessGate s := by
  have action : (accessGate s).conf.qry.action = branch s := rfl
  refine ⟨_, ?_, rfl⟩
  show runAction req _ (accessGate s) = _
  rw [runAction]
  rw [action]
  rcases branch_of_not_auth auth with show_ | login
  · rw [show_]
    rfl
  · rw [login]
    rfl

end Bagunceiro
