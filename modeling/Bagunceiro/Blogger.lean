/-
# Blogger -- changes from the command line (`z_blogger.c`)

`main` goes through the options, which collect a key and a value, and then does
one thing.  A value is made of the arguments of `-v`, each with its terminator,
and of what `-i` reads, which comes without one; what is made of it depends on
the mode and on the action (`Cmd.run`).
-/
import Bagunceiro.Conf
import Bagunceiro.Entry

namespace Bagunceiro

open Effect

set_option autoImplicit false

/-! ## Options -/

/-- `enum mode` -/
inductive CmdMode
  | taia | plain
  deriving DecidableEq, Repr

/-- `enum action` -/
inductive CmdAction
  | add | del | mod | show | addNow | help
  deriving DecidableEq, Repr

/-- What `getopt` finds, with its argument. -/
inductive CmdOption
  | b (path : Bytes)
  | k (key : Bytes)
  | v (value : Bytes)
  | c | t | a | n | d | m | s | i
  /-- `-h`, and what is not known -/
  | other
  deriving DecidableEq, Repr

/-- The variables of `main`, and what can still be read from the input. -/
structure Cmd where
  db : Bytes
  skey : Bytes
  value : Bytes
  mode : CmdMode
  action : CmdAction
  useSha : Bool
  stdin : Bytes
  deriving DecidableEq, Repr

/-- `main`'s variables before the first option; nothing has set `skey`. -/
def Cmd.start (skey stdin : Bytes) : Cmd where
  db := dbFile ++ zeros (32 - dbFile.length)
  skey := skey
  value := []
  mode := .plain
  action := .help
  useSha := false
  stdin := stdin

section

variable (sha256 : Bytes → Bytes)

/-- One round of the loop over the options. -/
def Cmd.option (cmd : Cmd) : CmdOption → Except Fault Cmd
  | .b path => do return { cmd with db := ← store 32 cmd.db (cstr path ++ [0]) }
  | .k key => do return { cmd with skey := ← store 100 cmd.skey (cstr key ++ [0]) }
  | .c => .ok { cmd with useSha := true }
  | .v value => .ok { cmd with
      value := cmd.value ++ (if cmd.useSha then sha256 (cstr value) else cstr value) ++ [0] }
  | .i => .ok { cmd with value := cmd.value ++ cmd.stdin, stdin := [] }
  | .t => .ok { cmd with mode := .taia }
  | .a => .ok { cmd with action := .add }
  | .n => .ok { cmd with action := .addNow }
  | .d => .ok { cmd with action := .del }
  | .m => .ok { cmd with action := .mod }
  | .s => .ok { cmd with action := .show }
  | .other => .ok { cmd with action := .help }

/-- All rounds. -/
def Cmd.parse (options : List CmdOption) (cmd : Cmd) : Except Fault Cmd :=
  options.foldlM (Cmd.option sha256) cmd

/-- The other options have nothing to do with the value. -/
theorem Cmd.option_keeps {cmd next : Cmd} {o : CmdOption} (done : Cmd.option sha256 cmd o = .ok next)
    (noValue : ∀ v, o ≠ .v v) (noInput : o ≠ .i) :
    next.value = cmd.value ∧ next.stdin = cmd.stdin := by
  cases o with
  | v value => exact absurd rfl (noValue value)
  | i => exact absurd rfl noInput
  | b path =>
      cases stored : store 32 cmd.db (cstr path ++ [0]) with
      | error e => simp [Cmd.option, stored, bind, Except.bind] at done
      | ok db =>
          simp [Cmd.option, stored, bind, Except.bind, pure, Except.pure] at done
          subst done
          exact ⟨rfl, rfl⟩
  | k key =>
      cases stored : store 100 cmd.skey (cstr key ++ [0]) with
      | error e => simp [Cmd.option, stored, bind, Except.bind] at done
      | ok skey =>
          simp [Cmd.option, stored, bind, Except.bind, pure, Except.pure] at done
          subst done
          exact ⟨rfl, rfl⟩
  | _ =>
      cases done
      exact ⟨rfl, rfl⟩

/-- Bytes of a kind that is in every terminator: those a value has are what `-v`
gives it, always one, or what `-i` reads. -/
theorem Cmd.parse_value {P : UInt8 → Prop} (zero : P 0) {options : List CmdOption} :
    ∀ {cmd cmd' : Cmd}, Cmd.parse sha256 options cmd = .ok cmd' →
      ((∃ c ∈ cmd'.value, P c) ↔ (∃ c ∈ cmd.value, P c) ∨ (∃ v, CmdOption.v v ∈ options) ∨
        CmdOption.i ∈ options ∧ ∃ c ∈ cmd.stdin, P c) := by
  induction options with
  | nil =>
      rintro cmd cmd' ⟨⟩
      simp
  | cons o options ih =>
      intro cmd cmd' parsed
      cases first : Cmd.option sha256 cmd o with
      | error e =>
          rw [Cmd.parse, List.foldlM_cons, first] at parsed
          cases parsed
      | ok next =>
          rw [Cmd.parse, List.foldlM_cons, first] at parsed
          rw [ih parsed]
          by_cases value : ∃ v, o = .v v
          · obtain ⟨v, rfl⟩ := value
            cases first
            exact iff_of_true (.inl ⟨0, by simp, zero⟩) (.inr (.inl ⟨v, List.mem_cons_self⟩))
          · rw [not_exists] at value
            by_cases input : o = .i
            · subst input
              cases first
              simp [or_and_right, exists_or, or_assoc, or_comm]
            · obtain ⟨sameValue, sameInput⟩ := Cmd.option_keeps sha256 first value input
              simp [sameValue, sameInput, Ne.symm input, fun v => Ne.symm (value v)]

end

/-! ## What is done -/

/-- What `main` finds outside the program. -/
structure CmdEnv where
  leapsecs : List UInt64
  sha256 : Bytes → Bytes
  /-- the buffers of `main` and of `scan_time_hex` before they are used -/
  skey : Bytes
  left : Bytes
  /-- what follows the value in memory, up to a zero -/
  behind : Bytes
  stdin : Bytes
  memory : Nat → Slot
  clk : Nat → Taia
  entryAt : Taia
  modifiedAt : Taia

section

variable (env : CmdEnv) (cmd : Cmd)

/-- The key as a time stamp. -/
def Cmd.stamp : Taia := scanTimeHex env.left cmd.skey

/-- The value as a string, with its terminator: without one of its own it goes on
behind the array. -/
def Cmd.string : Bytes := cstr (cmd.value ++ env.behind) ++ [0]

/-- `entry.e` -/
def Cmd.text : Bytes := if cmd.mode = .taia ∧ cmd.value ≠ [] then cmd.string env else []

/-- The record under the key: its key and value, where an action stores one. -/
def Cmd.record : Option Record :=
  match cmd.action with
  | .addNow => some ⟨taiaPack env.entryAt, cmd.text env⟩
  | .add =>
      if cmd.mode = .taia then some ⟨taiaPack (cmd.stamp env), cmd.text env⟩
      else some ⟨cstr cmd.skey, cmd.value⟩
  | .mod =>
      if cmd.mode = .taia then some ⟨taiaPack (cmd.stamp env), cmd.value⟩
      else some ⟨cstr cmd.skey, cmd.string env⟩
  | _ => none

/-- `cdbb_start_mod`, what is queued, and `cdbb_apply`; nothing is checked. -/
def Cmd.change (queue : Cdbb → Cdbb) : M Int := do
  match ← cdbbStartMod env.memory (cstr cmd.db) with
  | none => .fail .uninitialised
  | some a => cdbbApply env.clk (queue a)

/-- The entry or the value of a key, printed. -/
def Cmd.print (k : Bytes) : M Int := do
  match ← cdbbOpenRead (cstr cmd.db) with
  | none => .fail .uninitialised
  | some r => return (← cdbbReadNentry r k ⟨cmd.text env, []⟩).1

/-- `main` behind the loop. -/
def Cmd.run : M Int :=
  if cmd.mode = .taia ∧ (cstr cmd.skey).length ≠ 32 ∧ cmd.action ≠ .addNow then return 2
  else
    match cmd.action, cmd.mode with
    | .addNow, _ => cmd.change env fun a =>
        addEntryNow env.leapsecs env.modifiedAt env.entryAt a (cmd.text env)
    | .add, .taia => cmd.change env fun a =>
        addEntry env.leapsecs env.modifiedAt a (cmd.stamp env) (cmd.text env)
    | .add, .plain => cmd.change env fun a => cdbbAdd a (cstr cmd.skey) cmd.value
    | .del, .taia => cmd.change env fun a =>
        deleteEntry env.leapsecs env.modifiedAt a (cmd.stamp env)
    | .del, .plain => cmd.change env fun a => cdbbDel a (cstr cmd.skey)
    | .show, .taia => cmd.print env (taiaPack (cmd.stamp env))
    | .show, .plain => cmd.print env (cstr cmd.skey)
    | .mod, .taia => cmd.change env fun a =>
        modifyEntry env.modifiedAt a (cmd.stamp env) cmd.value
    -- `strlen(value.p)`, where `value.p` may be null
    | .mod, .plain =>
        if cmd.value = [] then
          cdbbStartMod env.memory (cstr cmd.db) >>= fun _ => .fail .nullKey
        else cmd.change env fun a => cdbbMod a (cstr cmd.skey) (cmd.string env)
    | .help, _ => return 0

/-- `main` -/
def blogger (options : List CmdOption) : M Int := do
  let cmd ← written (Cmd.parse env.sha256 options (Cmd.start env.skey env.stdin))
  cmd.run env

end

end Bagunceiro
