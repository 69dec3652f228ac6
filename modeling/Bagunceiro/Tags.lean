/-
# Tags -- which string a search for a tag looks for

`parse_query` puts the tag into `qry.tag`, and `handle_query` calls for a search
that ignores case.  The search they share reads `qry.find`, in which the string
of an earlier request is left when this one has none.  So the entries listed for
a tag are those that contain the other string, and they contain the tag as far as
the records happen to (`fetchEntryTag_lists_iff`).
-/
import Bagunceiro.HandleQuery
import Bagunceiro.Parsing
import Bagunceiro.Quiet
import Bagunceiro.Search

namespace Bagunceiro

open Effect

set_option autoImplicit false

/-! ## The two strings of a request -/

/-- The parameter is not there, or has no value. -/
def Site.absent (site : Site) (req : HttpRequest) : Prop :=
  site.value req = none ∧ site.refused req = false

instance (site : Site) (req : HttpRequest) : Decidable (site.absent req) :=
  inferInstanceAs (Decidable (_ ∧ _))

/-- `qry.find` and `qry.tag`. -/
def Server.strings (s : Server) : Bytes × Bytes := (s.conf.qry.find, s.conf.qry.tag)

theorem strings_of_conf {s t : Server} (same : t.conf = s.conf) : t.strings = s.strings := by
  rw [Server.strings, same]
  rfl

theorem strings_of_view {s t : Server} (same : t.view = s.view) : t.strings = s.strings := by
  simp only [Server.view, Prod.mk.injEq] at same
  obtain ⟨-, -, find, tag⟩ := same
  rw [Server.strings, find, tag]
  rfl

section Queries

variable {req : HttpRequest} {s : Server} {w : Bytes × Bytes}

/-- What is absent is not written. -/
theorem readFind_strings (absent : queryQry.absent req) (same : s.strings = w) :
    Prog.Returns (fun r => r.2.strings = w)
      (readQry req queryQry sizeFindStr (·.find) (fun b q => { q with find := b }) s) := by
  rintro ⟨err, s'⟩ read
  obtain ⟨p, got, -, rfl⟩ := readQry_returns absent.2 _ _ _ s _ read
  have failed : p.code ≠ paramSuccess := by
    intro success
    have value := Site.value_eq got
    rw [absent.1, if_pos success] at value
    cases value
  rw [Site.get_failure absent.2 got failed]
  exact same

/-- The tag is written to the front of its buffer. -/
theorem readTag_strings {v : Bytes} (tag : queryTag.value req = some v) (same : s.strings = w) :
    Prog.Returns (fun r => ∃ rest, r.2.strings = (w.1, v ++ 0 :: rest))
      (readQry req queryTag sizeFindStr (·.tag) (fun b q => { q with tag := b }) s) := by
  obtain ⟨p, got, -, write, good⟩ := Site.get_of_value tag
  have accepted : queryTag.refused req = false := by
    rw [Site.refused, got]
    exact good
  rintro ⟨err, s'⟩ read
  obtain ⟨q, got', -, rfl⟩ := readQry_returns accepted _ _ _ s _ read
  rw [got] at got'
  cases got'
  refine ⟨s.conf.qry.tag.drop (v ++ [0]).length, ?_⟩
  rw [← same, write, List.append_assoc]
  rfl

theorem parseQuery_strings {v : Bytes} (tag : queryTag.value req = some v)
    (absent : queryQry.absent req) (same : s.strings = w) :
    Prog.Returns (fun s' => ∃ rest, s'.strings = (w.1, v ++ 0 :: rest)) (parseQuery req s) := by
  rw [parseQuery]
  refine Prog.Returns.bind (readQry_keeps strings_of_conf (fun _ _ => rfl) same) fun _ same => ?_
  refine Prog.Returns.bind (readFind_strings absent (choice_keeps (fun _ => rfl) same))
    fun _ same => ?_
  refine Prog.Returns.bind (readTag_strings tag (choice_keeps (fun _ => rfl) same))
    fun _ written => ?_
  obtain ⟨rest, same⟩ := written
  refine Prog.Returns.bind (readQry_keeps strings_of_conf (fun _ _ => rfl)
    (choice_keeps (fun _ => rfl) same)) fun _ same => ?_
  refine Prog.Returns.bind (readLocal_keeps strings_of_conf
    (choice_keeps (fun _ => rfl) (choice_keeps (fun _ => rfl) same))) fun _ same => ?_
  refine Prog.Returns.bind (readLocal_keeps strings_of_conf (choice_keeps (fun _ => rfl) same))
    fun _ same => .ok ⟨rest, ?_⟩
  split
  · exact same
  · exact today_keeps (fun _ _ => rfl) same _

end Queries

/-- **A tag alone leaves the other string.** -/
theorem parseRequest_strings {req : HttpRequest} {s s' : Server} {fs fs' : Fs} {v : Bytes}
    (parsed : exec (parseRequest req s) fs = (.ok s', fs')) (tag : queryTag.value req = some v)
    (absent : queryQry.absent req) :
    ∃ rest, (accessGate s').strings = (s.conf.qry.find, v ++ 0 :: rest) := by
  obtain ⟨s₁, s₂, cookie, query, same⟩ := parseRequest_view parsed
  obtain ⟨rest, strings⟩ := parseQuery_strings tag absent (strings_of_view cookie) s₂ query
  have gate : (accessGate s').strings = s'.strings := by
    unfold accessGate
    dsimp only
    split_ifs <;> rfl
  exact ⟨rest, gate.trans ((strings_of_view same).trans strings)⟩

/-! ## The search -/

section Shows

variable (leapsecs : List UInt64) (memory : Nat → Beyond)

/-- The `switch` of `handle_query` over what is shown, as far as it searches. -/
def fetchFound (s : Server) : M (Option Result) :=
  match s.conf.qry.action, s.conf.qry.type with
  | .qaShow, .qryFind => do
      let (_, res) ← fetchEntryQuery leapsecs memory s.conf []
      return some res
  | .qaShow, .qryTag => do
      let (_, res) ← fetchEntryTag leapsecs memory s.conf []
      return some res
  | _, _ => return none

theorem exec_fetchFound {s : Server} (action : s.conf.qry.action = .qaShow)
    (type : s.conf.qry.type = .qryTag) {fs : Fs} {recs : List Record}
    (holds : fs.content dbFile = some (.finished recs)) :
    exec (fetchFound leapsecs memory s) fs =
      (.ok (some (addAll leapsecs (hits memory (cstr s.conf.qry.find) true 0 recs.tail) [])), fs) := by
  rw [fetchFound]
  rw [action, type]
  exact Prog.run_bind_ok handle (exec_fetchEntryFind leapsecs memory s.conf true holds [])

end Shows

/-- **What a search for a tag lists.**  Entries with the tag only, exactly when
every record that contains the string left from before contains the tag. -/
theorem fetchEntryTag_lists_iff (leapsecs : List UInt64) (memory : Nat → Beyond)
    (req : HttpRequest) (s s' : Server) (fs fs' : Fs) (g : Bytes)
    (parsed : exec (parseRequest req s) fs = (.ok s', fs'))
    (tag : (queryTag.value req).map cstr = some g) (absent : queryQry.absent req)
    (action : (accessGate s').conf.qry.action = .qaShow)
    (type : (accessGate s').conf.qry.type = .qryTag) (db : Fs) (recs : List Record)
    (holds : db.content dbFile = some (.finished recs)) :
    cstr (accessGate s').conf.qry.tag = g ∧
      ∃ res, exec (fetchFound leapsecs memory (accessGate s')) db = (.ok (some res), db) ∧
        ((∀ day ∈ res, ∀ n ∈ day.es, Contains true (cstr n.e) g) ↔
          ∀ i r, recs.tail[i]? = some r →
            Contains true (textAt (memory i).value r) (cstr s.conf.qry.find) →
              Contains true (cstr r.value) g) := by
  obtain ⟨v, value, rfl⟩ := Option.map_eq_some_iff.1 tag
  obtain ⟨rest, strings⟩ := parseRequest_strings parsed value absent
  obtain ⟨find, tagged⟩ := Prod.mk.inj strings
  refine ⟨?_, _, exec_fetchFound leapsecs memory action type holds, ?_⟩
  · rw [tagged, cstr_append_zero]
  · rw [forall_listed_iff, find]

/-- The first request of a server, for a tag. -/
def asksForGo : HttpRequest := { HttpRequest.blank with queryString := some (str "tag=go") }

theorem asksForGo_tag : queryTag.value asksForGo = some (str "go") := by decide +kernel

theorem asksForGo_absent : queryQry.absent asksForGo := by decide +kernel

/-- It leaves an empty string to look for. -/
theorem asksForGo_parsed : ∃ s' fs',
    exec (parseRequest asksForGo freshServer) Fs.empty = (.ok s', fs') ∧
      (accessGate s').conf.qry.action = .qaShow ∧ (accessGate s').conf.qry.type = .qryTag ∧
      cstr (accessGate s').conf.qry.find = [] := by
  have shown : ((exec (parseRequest asksForGo freshServer) Fs.empty).1.toOption.map fun s' =>
      ((accessGate s').conf.qry.action, (accessGate s').conf.qry.type)) =
        some (.qaShow, .qryTag) := by
    decide +kernel
  obtain ⟨s', fs', parsed⟩ := Prog.exists_of_run_ok handle
    (show (exec (parseRequest asksForGo freshServer) Fs.empty).1.isOk = true by decide +kernel)
  have ran : exec (parseRequest asksForGo freshServer) Fs.empty = (.ok s', fs') := parsed
  rw [ran] at shown
  obtain ⟨action, type⟩ := Prod.mk.inj (Option.some.inj shown)
  obtain ⟨rest, strings⟩ := parseRequest_strings ran asksForGo_tag asksForGo_absent
  refine ⟨s', fs', ran, action, type, ?_⟩
  rw [(Prod.mk.inj strings).1]
  decide +kernel

/-- An entry behind the first record of a file. -/
def secondEntry (v : Bytes) : List Record :=
  [⟨dbLastModified, taiaPack ⟨4611686019700100000, 0, 0⟩⟩,
    ⟨taiaPack ⟨4611686019700100000, 0, 0⟩, v ++ [0]⟩]

/-- Nothing is left from before, and the entry has the tag. -/
theorem fetchEntryTag_lists_iff_sample : ∃ s' fs' res,
    exec (parseRequest asksForGo freshServer) Fs.empty = (.ok s', fs') ∧
      exec (fetchFound [] nothingBehind (accessGate s'))
        (Fs.empty.install dbFile (.finished (secondEntry (str "Go north")))) =
          (.ok (some res), Fs.empty.install dbFile (.finished (secondEntry (str "Go north")))) ∧
      ∀ day ∈ res, ∀ n ∈ day.es, Contains true (cstr n.e) (str "go") := by
  obtain ⟨s', fs', parsed, action, type, -⟩ := asksForGo_parsed
  obtain ⟨-, res, found, lists⟩ := fetchEntryTag_lists_iff [] nothingBehind asksForGo
    freshServer s' Fs.empty fs' (str "go") parsed (by rw [asksForGo_tag]; rfl) asksForGo_absent
    action type
    (Fs.empty.install dbFile (.finished (secondEntry (str "Go north"))))
    (secondEntry (str "Go north")) (Fs.content_install_self _ _ _)
  refine ⟨s', fs', res, parsed, found, lists.2 fun i r there _ => ?_⟩
  have member : r ∈ [(⟨taiaPack ⟨4611686019700100000, 0, 0⟩, str "Go north" ++ [0]⟩ : Record)] :=
    List.mem_of_getElem? there
  rw [List.mem_singleton.1 member]
  show (str "go").map toupper <:+: (cstr (str "Go north" ++ [0])).map toupper
  decide

/-- A fresh server lists every entry for a tag. -/
theorem tag_lists_others : ¬ ∀ (leapsecs : List UInt64) (memory : Nat → Beyond)
    (req : HttpRequest) (s s' : Server) (fs fs' : Fs) (g : Bytes) (db : Fs) (recs : List Record)
    (res : Result), exec (parseRequest req s) fs = (.ok s', fs') →
    (queryTag.value req).map cstr = some g → queryQry.absent req →
    (accessGate s').conf.qry.action = .qaShow → (accessGate s').conf.qry.type = .qryTag →
    db.content dbFile = some (.finished recs) →
    exec (fetchFound leapsecs memory (accessGate s')) db = (.ok (some res), db) →
    ∀ day ∈ res, ∀ n ∈ day.es, Contains true (cstr n.e) g := by
  intro claim
  obtain ⟨s', fs', parsed, action, type, find⟩ := asksForGo_parsed
  have stored := Fs.content_install_self Fs.empty dbFile (.finished (secondEntry (str "Turn back")))
  have found := exec_fetchFound [] nothingBehind action type stored
  have lists := claim [] _ asksForGo freshServer s' Fs.empty fs' (str "go") _ _ _ parsed
    (by rw [asksForGo_tag]; rfl) asksForGo_absent action type stored found
  rw [find, forall_listed_iff] at lists
  have contains : Contains true (textAt [] ⟨taiaPack ⟨4611686019700100000, 0, 0⟩,
      str "Turn back" ++ [0]⟩) [] := List.nil_infix
  have both : (str "go").map toupper <:+: (cstr (str "Turn back" ++ [0])).map toupper :=
    lists 0 _ rfl contains
  exact absurd both (by decide)

end Bagunceiro
