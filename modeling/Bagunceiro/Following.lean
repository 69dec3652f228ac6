/-
# Following -- what becomes of an entry

An entry is written with the form, read under its permalink, and changed with the
links beside it; in between, anybody may visit the blog.  What is written stays on
its page until somebody who is let in changes it, and what is deleted is not shown
again: the ledger says so (`Ledger.Leaves`, `gone_after`), and the files keep the
ledger.
-/
import Bagunceiro.Controls
import Bagunceiro.FrontPage

namespace Bagunceiro

open Effect

set_option autoImplicit false

/-! ## Who asks -/

section Asking

variable {req : HttpRequest} {op : BlogOp}

/-- What the pages offer neither logs in nor out: the cookie decides. -/
theorem admits_of_asks (asks : Asks req op) (b : Ledger) (accepted : Bool) :
    b.admits ⟨req, accepted⟩ = b.knows req := by
  have neither : queryLogout.flag req = false ∧ postLogin.value req = none := by
    cases asks with
    | add encodes some_ noNul form =>
        refine ⟨(absent_of_no_query form.query queryLogout rfl).flag_eq, ?_⟩
        exact (Site.absent_sent (form.get (by simp) _ _)
          (by simp [Control.add, Control.plain, Control.input, str, postSite])).value_eq
    | modify key encodes some_ noNul form =>
        refine ⟨(absent_of_no_query form.query queryLogout rfl).flag_eq, ?_⟩
        exact (Site.absent_sent (form.get (by simp) _ _)
          (by simp [Control.mod, Control.formKey, Control.key, Control.plain, Control.input, str,
            postSite])).value_eq
    | @delete t key link =>
        have length : (Control.del t).text.length = 20 := length_key _ _ _ t
        have name : (Control.del t).name = str "del" := rfl
        refine ⟨(link.absent rfl rfl (by rw [length]; decide) (by rw [name]; decide)).flag_eq, ?_⟩
        have refused : postLogin.get req = .ok { code := retInvalid, write := [], bad := false } :=
          if_pos (.inl link.posted)
        rw [Site.value_eq refused]
        rfl
  rw [Ledger.admits, neither.1, neither.2]
  rfl

/-- **Whoever the ledger knows gets what he asks for.** -/
theorem change_of_asks (asks : Asks req op) {b : Ledger} (knows : b.knows req = true)
    (accepted : Bool) : b.change ⟨req, accepted⟩ = some op := by
  rw [Ledger.change, admits_of_asks asks, if_pos knows]
  exact orders_of_asks asks

end Asking

/-! ## What stays -/

namespace Ledger

variable {b : Ledger} {x : Taia × Bytes} {v : Visit}

end Ledger

/-! ## What is gone -/

section Gone

variable {leapsecs : List UInt64} {o : Opening} {visits later : List Visit} {v : Visit} {t : Taia}

/-- **A deleted entry does not come back**: entries that are added later have later
stamps. -/
theorem gone_after (regular : Regular leapsecs o (visits ++ v :: later))
    (live : ∃ x ∈ (o.after visits).entries, x.1 = t)
    (change : (o.after visits).change v = some (.delete t)) :
    ∀ x ∈ (o.after (visits ++ v :: later)).entries, x.1 ≠ t := by
  induction later using List.reverseRecOn with
  | nil =>
      rw [Opening.after_concat, Ledger.visit, change]
      intro x member
      simpa using (List.mem_filter.1 member).2
  | append_singleton later u ih =>
      have whole : visits ++ v :: (later ++ [u]) = (visits ++ v :: later) ++ [u] := by simp
      rw [whole] at regular ⊢
      have ih := ih regular.of_append
      rw [Opening.after_concat, Ledger.visit]
      cases done : (o.after (visits ++ v :: later)).change u with
      | none => exact ih
      | some op =>
          simp only [Option.elim_some]
          cases op with
          | add now text =>
              obtain ⟨y, there, rfl⟩ := live
              obtain ⟨here, rfl⟩ := adds_of_orders (orders_of_change done)
              have order := regular.stamps_lt ((stamps_of_mem_entries there).append _) here
              intro x member
              rcases List.mem_append.1 member with old | new
              · exact ih x old
              · obtain rfl := List.mem_singleton.1 new
                intro same
                rw [← same] at order
                exact Nat.lt_irrefl _ order
          | modify k text =>
              intro x member
              obtain ⟨y, inside, rfl⟩ := List.mem_map.1 member
              rw [BlogOp.rewrite_fst]
              exact ih y inside
          | delete k => exact fun x member => ih x (List.mem_filter.1 member).1

end Gone

/-! ## The page of an entry -/

section Stamp

variable {req : HttpRequest} {s s' : Server} {fs t : Fs}

end Stamp

section Pages

variable {leapsecs : List UInt64} {o : Opening} {fs t : Fs} {s s' : Server} {visits : List Visit}
  {req : HttpRequest} {k : Taia}

end Pages

/-- Every entry of the days is one of the journal. -/
def FromJournal (j : Journal) (res : Result) : Prop :=
  ∀ day ∈ res, ∀ n ∈ day.es, ∃ x ∈ j, n = shown x

section Days

variable {leapsecs : List UInt64} {j : Journal} {recs : List Record} {fs : Fs} {r : Inode}

theorem fromJournal_page {t : Taia} {d : Day} (page : j.page leapsecs t = some d) :
    ∀ n ∈ d.es, ∃ x ∈ j, n = shown x := by
  rw [Journal.page] at page
  split at page
  · cases page
  · cases page
    intro n inside
    obtain ⟨x, onDay, rfl⟩ := List.mem_map.1 inside
    rw [Journal.onDay, List.mem_reverse, List.mem_filter] at onDay
    exact ⟨x, onDay.1, rfl⟩

/-- A window adds days of the journal. -/
theorem Stored.fetchEntriesDays (stored : Stored leapsecs j recs) (named : fs.dir dbFile = some r)
    (file : fs.records r = some recs) (conf : Blog) {res : Result} (sofar : FromJournal j res) :
    ∃ num more, exec (fetchEntriesDays leapsecs conf res) fs = (.ok (num, res ++ more), fs) ∧
      FromJournal j (res ++ more) := by
  refine ⟨_, _, exec_fetchEntriesDays named conf res, ?_⟩
  intro day member
  rcases List.mem_append.1 member with before | here
  · exact sofar day before
  · obtain ⟨t, -, shown_⟩ := List.mem_filterMap.1 here
    rw [stored.shownDay_eq file] at shown_
    exact fromJournal_page shown_

/-- So does any number of them. -/
theorem Stored.fetchWeek (stored : Stored leapsecs j recs) (named : fs.dir dbFile = some r)
    (file : fs.records r = some recs) (i : Nat) (err : Int) (conf : Blog) {res : Result}
    (sofar : FromJournal j res) :
    ∃ a, exec (fetchWeek leapsecs i err conf res) fs = (.ok a, fs) ∧ FromJournal j a.2.2 := by
  induction i generalizing err conf res with
  | zero =>
      obtain ⟨num, more, ran, from_⟩ := stored.fetchEntriesDays named file conf sofar
      rw [exec, Bagunceiro.fetchWeek]
      rw [Prog.run_bind_ok handle ran]
      simp only
      split <;> exact ⟨_, rfl, from_⟩
  | succ i ih =>
      obtain ⟨num, more, ran, from_⟩ := stored.fetchEntriesDays named file conf sofar
      rw [exec, Bagunceiro.fetchWeek]
      rw [Prog.run_bind_ok handle ran]
      simp only
      split
      · exact ⟨_, rfl, from_⟩
      · exact ih _ _ from_

/-- **A page shows entries of the journal only**, but for a search and the page of one
entry. -/
theorem Stored.fetchPage (stored : Stored leapsecs j recs) (named : fs.dir dbFile = some r)
    (file : fs.records r = some recs) (left : Bytes) (memory : Nat → Beyond) (action : Qaction)
    {conf : Blog}
    (days : action = .qaShow → conf.qry.type ∈ [Qtype.qryWeek, Qtype.qryMonth, Qtype.qryNone]) :
    ∃ page, exec (fetchPage leapsecs left memory action conf) fs = (.ok page, fs) ∧
      ∀ res ∈ page, FromJournal j res := by
  have nothing : FromJournal j [] := fun day member => absurd member List.not_mem_nil
  have form : ∃ page, exec (.ret none : M (Option Result)) fs = (.ok page, fs) ∧
      ∀ res ∈ page, FromJournal j res := ⟨none, rfl, fun res member => by cases member⟩
  have window (conf : Blog) : ∃ page, exec (Bagunceiro.fetchEntriesDays leapsecs conf [] >>=
      fun fetched => .ret (some fetched.2)) fs = (.ok page, fs) ∧
        ∀ res ∈ page, FromJournal j res := by
    obtain ⟨num, more, ran, from_⟩ := stored.fetchEntriesDays named file conf nothing
    refine ⟨_, Prog.run_bind_ok handle ran, fun res member => ?_⟩
    cases member
    exact from_
  cases action with
  | qaShow =>
      obtain week | month | none_ : conf.qry.type = .qryWeek ∨ conf.qry.type = .qryMonth ∨
          conf.qry.type = .qryNone := by simpa using days rfl
      · obtain ⟨a, ran, from_⟩ := stored.fetchWeek named file 100 0 conf nothing
        rw [exec, Bagunceiro.fetchPage, fetchShown, week]
        simp only
        rw [Prog.run_bind_ok handle ran]
        refine ⟨_, rfl, fun res member => ?_⟩
        cases member
        exact from_
      · obtain ⟨num, more, ran, from_⟩ :=
          stored.fetchEntriesDays named file (monthWindow leapsecs conf) nothing
        rw [exec, Bagunceiro.fetchPage, fetchShown, month]
        simp only [fetchEntriesMonth]
        rw [Prog.bind_assoc, Prog.run_bind_ok handle ran]
        refine ⟨_, rfl, fun res member => ?_⟩
        cases member
        exact from_
      · rw [Bagunceiro.fetchPage, fetchShown, none_]
        exact form
  | qaAddPost => exact window conf
  | qaDelete => exact window conf
  | qaModifyPost => exact window conf
  | qaConfigPost => exact window conf
  | qaLogout => exact window conf
  | qaAdd => exact form
  | qaModify => exact form
  | qaConfig => exact form
  | qaLogin => exact form

end Days

/-- **What is deleted is not shown again**, to nobody and by no page but those of a
search: its own page is empty, and the pages of days are without it. -/
theorem deleted_never_shown (leapsecs : List UInt64) (o : Opening) (fs₀ fs u : Fs)
    (s₀ s s' : Server) (visits later : List Visit) (v : Visit) (req : HttpRequest) (t : Taia)
    (memory : Nat → Beyond) (opens : Opens leapsecs o fs₀)
    (visited : Visited fs₀ (visits ++ v :: later) s₀ fs)
    (regular : Regular leapsecs o (visits ++ v :: later ++ [⟨req, acceptsLogin req fs⟩]))
    (ran : exec (serve req s) fs = (.ok s', u)) (asks : Asks v.req (.delete t))
    (live : ∃ x ∈ (o.after visits).entries, x.1 = t)
    (knows : (o.after visits).knows v.req = true)
    (noSearch : s'.conf.qry.type ≠ .qryFind ∧ s'.conf.qry.type ≠ .qryTag) :
    ∃ page, exec (servePage memory req s) fs = (.ok (s', page), u) ∧
      ∀ res ∈ page, ∀ day ∈ res, ∀ n ∈ day.es, n.k = taiaPack t → n.e = [] := by
  have change : (o.after visits).change v = some (.delete t) :=
    change_of_asks asks knows v.accepted
  have gone : ∀ x ∈ (o.after (visits ++ v :: later ++ [⟨req, acceptsLogin req fs⟩])).entries,
      x.1 ≠ t := by
    have regular := regular
    rw [List.append_assoc, List.cons_append] at regular ⊢
    exact gone_after regular live change
  have keeps := visited.keeps opens regular.of_append
  have kept := keeps.serve regular ran
  obtain ⟨recs, holds, stored⟩ := kept.blog
  obtain ⟨r, named, node⟩ := Fs.dir_of_content holds
  by_cases entry : (o.after (visits ++ v :: later)).branch ⟨req, acceptsLogin req fs⟩ = .qaShow ∧
      s'.conf.qry.type = .qryTs
  · obtain ⟨shows, byStamp⟩ := entry
    have page := kept.entryPage memory regular ran byStamp
    refine ⟨_, keeps.servePage regular ran (by rw [shows]; exact page), fun res found => ?_⟩
    cases found
    intro day inside n member key
    obtain rfl := List.mem_singleton.1 inside
    obtain rfl := List.mem_singleton.1 member
    have same : req.key = t := taiaPack_injective key
    have none_ : (o.after (visits ++ v :: later ++ [⟨req, acceptsLogin req fs⟩])).entries.filter
        (·.1 = req.key) = [] :=
      List.filter_eq_nil_iff.2 fun x there => by simpa [same] using gone x there
    rw [none_]
    rfl
  · have days : (o.after (visits ++ v :: later)).branch ⟨req, acceptsLogin req fs⟩ = .qaShow →
        s'.conf.qry.type ∈ [Qtype.qryWeek, Qtype.qryMonth, Qtype.qryNone] := by
      intro shows
      have noStamp : s'.conf.qry.type ≠ .qryTs := fun byStamp => entry ⟨shows, byStamp⟩
      cases type : s'.conf.qry.type <;> simp_all
    obtain ⟨page, fetched, from_⟩ := stored.fetchPage named (Fs.records_of_finished u node) req.left
      memory _ days
    refine ⟨page, keeps.servePage regular ran fetched, fun res found day inside n member key => ?_⟩
    obtain ⟨x, there, rfl⟩ := from_ res found day inside n member
    exact absurd (taiaPack_injective key) (gone x there)

/-- Who has posted the password deletes what he has posted with it. -/
def deletesHello : HttpRequest :=
  { HttpRequest.later 60 with
    cookie := some (str "sid=" ++ sessionId fun _ => 0)
    queryString := some (Control.del postsHello.entryAt).text }

def followsHello : HttpRequest :=
  { HttpRequest.later 120 with queryString := some (Control.ts postsHello.entryAt).text }

theorem deleted_never_shown_hello : ∃ (s s' : Server) (fs t : Fs) (page : Option Result),
    exec (servePage nothingBehind followsHello s) fs = (.ok (s', page), t) ∧
      ∀ res ∈ page, ∀ day ∈ res, ∀ n ∈ day.es, n.k = taiaPack postsHello.entryAt → n.e = [] := by
  obtain ⟨s, fs, visited, page⟩ := visited_postsHello [deletesHello, followsHello]
    (fun s => s.conf.qry.type = .qryTs) (by decide +kernel) (by decide +kernel)
  obtain ⟨s₀, s₁, fs₁, before, -, accepted, ran⟩ := @Visited.served_last _ _ [_, _] _ _ visited
  have plain : ∀ v ∈ [(⟨postsHello, true⟩ : Visit), ⟨deletesHello, false⟩, ⟨followsHello, false⟩],
      v.req.Plain := by
    simp only [List.forall_mem_cons]
    exact ⟨plain_postsHello,
      ⟨rfl, rfl, rfl, fun _ => rfl, by decide, ⟨by decide, by decide⟩, by decide +kernel⟩,
      ⟨rfl, rfl, rfl, fun _ => rfl, by decide, ⟨by decide, by decide⟩, by decide +kernel⟩, by simp⟩
  have regular : Regular [] newBlog [⟨postsHello, true⟩, ⟨deletesHello, false⟩,
      ⟨followsHello, false⟩] :=
    regular_of_plain plain (by simp; decide) (by simp) (by decide) (stamps_of_rising (by decide))
  have live : ∃ x ∈ (newBlog.after [⟨postsHello, true⟩]).entries, x.1 = postsHello.entryAt := by
    decide +kernel
  obtain ⟨found, page_, without⟩ := deleted_never_shown [] newBlog installed fs₁ fs s₀ s₁ s
    [⟨postsHello, true⟩] [] ⟨deletesHello, false⟩ followsHello postsHello.entryAt nothingBehind
    opens_installed before (accepted ▸ regular) ran (.delete ⟨⟨by decide, by decide⟩, rfl⟩ ⟨rfl, rfl⟩)
    live (by decide +kernel) (by simp [of_decide_eq_true page])
  exact ⟨s₁, s, fs₁, fs, found, page_, without⟩

end Bagunceiro
