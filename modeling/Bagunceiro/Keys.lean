/-
# Keys -- the entry that a request deletes or modifies

Of the stamp a request gives, sixteen characters are put between the digits of
every entry's key, and the whole is scanned as a dump.  Only the stamp of an entry
to be shown is verified before: with another character than a digit the scan ends
early, and the end of the key is what its buffer held (`scanTimeHex_of_bad`).  An
entry with such a key is deleted like any other.  `key_of_string_iff` says when the
string of the request alone is the key.
-/
import Bagunceiro.BlogStore
import Bagunceiro.Gate
import Bagunceiro.Orders

namespace Bagunceiro

open Effect Radix

set_option autoImplicit false

/-! ## A window as a key -/

/-- The key that a string stands for. -/
def entryKey (v : Bytes) : Taia := scanTimeHex (zeros fmtTaiaHex) (inflateTs v)

/-- The first sixteen characters are lower-case hexadecimal digits. -/
def IsWindow (v : Bytes) : Prop := reduceSize ≤ v.length ∧ verifyTs v = true

instance (v : Bytes) : Decidable (IsWindow v) := inferInstanceAs (Decidable (_ ∧ _))

/-- The values of the first sixteen characters. -/
def windowDigits (v : Bytes) : List (Option Nat) := (v.take reduceSize).map fromHex

/-- The stamp whose dump has the dump of these bytes as its window. -/
def windowStamp (bytes : Bytes) : Taia := taiaUnpack ([64, 0, 0, 0] ++ bytes ++ [0, 0, 0, 0])

theorem windowStamp_injective {bytes bytes' : Bytes} (size : bytes.length = 8)
    (size' : bytes'.length = 8) (same : windowStamp bytes = windowStamp bytes') :
    bytes = bytes' := by
  have packed := congrArg taiaPack same
  unfold windowStamp at packed
  rw [taiaPack_taiaUnpack (by simp [size, taiaPackSize]),
    taiaPack_taiaUnpack (by simp [size', taiaPackSize])] at packed
  exact List.append_cancel_left (List.append_cancel_right packed)

/-- What is scanned, for a buffer of sixteen characters or more. -/
theorem inflateTs_eq_take {ts : Bytes} (long : reduceSize ≤ ts.length) :
    inflateTs ts = str "40000000" ++ ts.take reduceSize ++
      (List.replicate 9 48 ++ ts.drop fmtTaiaHex) := by
  have size : (ts.take reduceSize).length = 16 := List.length_take_of_le long
  have cut : inflateTs (ts.take reduceSize ++ ts.drop reduceSize) = _ := inflateTs_eq size
  rw [List.take_append_drop] at cut
  rw [cut, List.append_assoc]
  rfl

/-- Sixteen digits are a key, whatever the buffer held. -/
theorem scanTimeHex_of_digits {ts bytes : Bytes} (long : reduceSize ≤ ts.length)
    (size : bytes.length = 8) (digits : (hexdump bytes).map fromHex = windowDigits ts)
    (left : Bytes) : scanTimeHex left (inflateTs ts) = windowStamp bytes := by
  have dump : (inflateTs ts).map fromHex =
      (hexdump ([64, 0, 0, 0] ++ bytes ++ [0, 0, 0, 0]) ++ 48 :: ts.drop fmtTaiaHex).map fromHex := by
    have front : hexdump [64, 0, 0, 0] = str "40000000" := by decide
    have back : hexdump [0, 0, 0, 0] = List.replicate 8 48 := by decide
    rw [inflateTs_eq_take long, hexdump_append, hexdump_append, front, back]
    simp only [List.map_append, digits, windowDigits, List.append_assoc]
    rfl
  rw [scanTimeHex, windowStamp]
  rw [scanHexdump_congr dump, scanHexdump_hexdump, taiaUnpack_append (by simp [size, taiaPackSize])]

/-- Without them the key ends in what the buffer held. -/
theorem scanTimeHex_of_bad {ts : Bytes} (long : reduceSize ≤ ts.length)
    (bad : ∃ c ∈ ts.take reduceSize, fromHex c = none) (left : Bytes) :
    (scanTimeHex left (inflateTs ts)).atto =
      UInt32.ofNat (ofBytesBE ((left.drop 12).take 4)) := by
  have early : ∃ c ∈ (inflateTs ts).take (2 * 12), fromHex c = none := by
    obtain ⟨c, member, none_⟩ := bad
    refine ⟨c, ?_, none_⟩
    have size : (str "40000000" ++ ts.take reduceSize).length = 2 * 12 := by
      rw [List.length_append, List.length_take_of_le long]
      rfl
    rw [inflateTs_eq_take long, List.take_left' size]
    exact List.mem_append_right _ member
  rw [scanTimeHex, taiaUnpack]
  rw [scanHexdump_drop early]

/-- Digits are the dump of eight bytes. -/
theorem exists_windowBytes {ts : Bytes} (all : ∀ c ∈ ts.take reduceSize, (fromHex c).isSome = true)
    (long : reduceSize ≤ ts.length) :
    ∃ bytes, bytes.length = 8 ∧ (hexdump bytes).map fromHex = windowDigits ts :=
  exists_hexdump (List.length_take_of_le long) all

theorem IsWindow.digits {v : Bytes} (window : IsWindow v) :
    ∀ c ∈ v.take reduceSize, (fromHex c).isSome = true := by
  intro c member
  have lower := window.2
  rw [verifyTs, List.all_eq_true] at lower
  exact fromHex_isSome_of_isLowerHex (lower c member)

/-- **When a stamp is the key of a string**: when it has the string's digits. -/
theorem scanTimeHex_eq_entryKey_iff {ts v : Bytes} (long : reduceSize ≤ ts.length)
    (window : IsWindow v) :
    (∀ left : Bytes, left.length = fmtTaiaHex → scanTimeHex left (inflateTs ts) = entryKey v) ↔
      windowDigits ts = windowDigits v := by
  obtain ⟨bytes, size, digits⟩ := exists_windowBytes window.digits window.1
  have key : entryKey v = windowStamp bytes := scanTimeHex_of_digits window.1 size digits _
  constructor
  · intro always
    have all : ∀ c ∈ ts.take reduceSize, (fromHex c).isSome = true := by
      by_contra some_
      simp only [not_forall, Bool.not_eq_true, Option.isSome_eq_false_iff,
        Option.isNone_iff_eq_none] at some_
      obtain ⟨c, member, none_⟩ := some_
      have ends := scanTimeHex_of_bad long ⟨c, member, none_⟩
      have zero := congrArg Taia.atto (always (zeros fmtTaiaHex) (by decide))
      have one := congrArg Taia.atto (always (List.replicate fmtTaiaHex 1) (by decide))
      rw [ends] at zero one
      exact absurd (zero.trans one.symm) (by decide)
    obtain ⟨bytes', size', digits'⟩ := exists_windowBytes all long
    have same := always (zeros fmtTaiaHex) (by decide)
    rw [scanTimeHex_of_digits long size' digits', key] at same
    rw [← digits, ← digits', windowStamp_injective size' size same]
  · intro same left _
    rw [key]
    exact scanTimeHex_of_digits long size (digits.trans same.symm) left

/-- The key is always of the time when entries are written. -/
theorem dated_scanTimeHex {ts left : Bytes} (long : reduceSize ≤ ts.length)
    (buffer : left.length = fmtTaiaHex) : Dated (scanTimeHex left (inflateTs ts)) := by
  have front : str "40000000" = hexdump [64, 0, 0, 0] := by decide
  have scanned : scanHexdump (inflateTs ts) left = [64, 0, 0, 0] ++
      scanHexdump (ts.take reduceSize ++ (List.replicate 9 48 ++ ts.drop fmtTaiaHex))
        (left.drop 4) := by
    rw [inflateTs_eq_take long, front, List.append_assoc]
    exact scanHexdump_hexdump _ _ _
  have size := le_length_scanHexdump
    (ts.take reduceSize ++ (List.replicate 9 48 ++ ts.drop fmtTaiaHex)) (left.drop 4)
  generalize scanHexdump (ts.take reduceSize ++ (List.replicate 9 48 ++ ts.drop fmtTaiaHex))
    (left.drop 4) = rest at scanned size
  have four : (rest.take 4).length = 4 := by
    rw [List.length_drop, buffer] at size
    exact List.length_take_of_le (Nat.le_trans (by decide) size)
  have small := ofBytesBE_lt (rest.take 4)
  have seconds : (scanTimeHex left (inflateTs ts)).sec.toNat =
      2 ^ 62 + ofBytesBE (rest.take 4) := by
    have bytes : ([64, 0, 0, 0] ++ rest).take 8 = [64, 0, 0, 0] ++ rest.take 4 := rfl
    have high : ofBytesBE [64, 0, 0, 0] = 2 ^ 30 := rfl
    rw [scanTimeHex, scanned, taiaUnpack, bytes, ofBytesBE_append, high, four,
      UInt64.toNat_ofNat']
    rw [four] at small
    omega
  rw [four] at small
  constructor
  · omega
  · omega

/-! ## The string of a request -/

/-- The string that names the entry to be deleted or modified. -/
def keyString (req : HttpRequest) (s : Server) : Option Bytes :=
  match branch s with
  | .qaDelete => queryDel.value req
  | .qaModifyPost => postKey.value req
  | _ => none

/-- **When the stamp of a request has the digits of its string.**  The form of an
entry without a text has a key that nobody reads. -/
theorem windowDigits_formStamp_iff {req : HttpRequest} {s s' : Server} {fs fs' : Fs}
    (parsed : exec (parseRequest req s) fs = (.ok s', fs')) {v : Bytes}
    (string : keyString req s' = some v) (window : IsWindow v) :
    windowDigits (formStamp req) = windowDigits v ↔
      (postedAction req = some (str "mod") → (postInput.value req).isSome ∨
        windowDigits (queryStamp req) = windowDigits v) := by
  have front (rest : Bytes) : windowDigits (v ++ 0 :: rest) = windowDigits v := by
    rw [windowDigits, List.take_append_of_le_length window.1]
    rfl
  rw [keyString] at string
  split at string
  · rename_i delete
    have form := formAction_of_branch parsed delete (by simp [Elsewhere])
    obtain ⟨notPosted, rest, stamp⟩ := formStamp_of_delete form string
    rw [stamp, front rest]
    exact iff_of_true rfl fun posted => absurd posted notPosted
  · rename_i modify
    have form := formAction_of_branch parsed modify (by simp [Elsewhere])
    obtain ⟨posted, stamp⟩ := formStamp_of_modify form
    rw [stamp]
    by_cases text : (postInput.value req).isSome
    · obtain ⟨rest, key⟩ := Site.onto_of_value string (queryStamp req)
      rw [if_pos text, key, front rest]
      exact iff_of_true rfl fun _ => .inl text
    · rw [if_neg text]
      simp only [posted, text, false_or, forall_const, Bool.false_eq_true]
  · cases string

/-! ## The change -/

/-- The change of an action, served as any other one. -/
theorem exec_changeDb {req : HttpRequest} (e : BlogEvent) (memory : e.memory = req.memory)
    (clk : e.clk = req.clk) {fs : Fs} {recs : List Record}
    (holds : fs.content dbFile = some (.finished recs)) :
    ∃ n fs', exec (changeDb req (e.queue req.leapsecs)) fs = (.ok (some n), fs') ∧
      fs'.content dbFile = some (.finished (e.after req.leapsecs recs)) := by
  obtain ⟨r, named, node⟩ := Fs.dir_of_content holds
  obtain ⟨fs', ran, content, -⟩ := exec_cdbbApply_started e.memory e.clk
    (e.room_changes req.leapsecs) named (Fs.records_of_finished fs node)
  rw [if_neg (newRecords_ne_nil e.memory [] e.clk (e.modifiedChange_mem req.leapsecs) recs)] at content
  refine ⟨((e.after req.leapsecs recs).length : Int), fs', ?_, content⟩
  rw [exec, changeDb]
  rw [← memory, ← clk, Prog.run_bind_ok handle (exec_cdbbStartMod e.memory dbFile fs), named]
  simp only [Option.map_some, e.queue_eq]
  rw [Prog.run_bind_ok handle ran]
  rfl

/-- The blog of one entry. -/
theorem exists_stored (leapsecs : List UInt64) {k : Taia} (dated : Dated k) (v : Bytes) :
    ∃ recs, Stored leapsecs [(k, v)] recs := by
  have empty : Stored leapsecs [] [] := by
    constructor
    · exact fun _ _ => rfl
    · exact fun _ => rfl
    · exact fun _ member => by cases member
    · exact List.Pairwise.nil
  exact ⟨_, empty.add (fun _ => k) (e := ⟨.add k v, fun _ => ⟨0, 0, fun _ => 0⟩, fun _ => k, k⟩) rfl
    dated fun _ member => by cases member⟩

/-- Serving the parsed request leaves the entries of any blog. -/
def LeavesEntries (req : HttpRequest) (s : Server) : Prop :=
  ∀ (db db' : Fs) (recs : List Record) (s' : Server),
    db.content dbFile = some (.finished recs) → exec (handleQuery req s) db = (.ok s', db') →
    ∃ recs', db'.content dbFile = some (.finished recs') ∧
      ∀ t, findAll (some recs') (taiaPack t) = findAll (some recs) (taiaPack t)

/-- An entry that is deleted or modified is not what it was. -/
theorem not_leavesEntries_of_served {req : HttpRequest} {s : Server} {k : Taia} (dated : Dated k)
    (e : BlogEvent) (v : Bytes) (memory : e.memory = req.memory) (clk : e.clk = req.clk)
    (op : e.op = .delete k ∨ ∃ w, w ≠ v ∧ e.op = .modify k w)
    (serves : ∀ {db db' : Fs} {n : Option Int},
      exec (changeDb req (e.queue req.leapsecs)) db = (.ok n, db') →
      ∃ s', exec (handleQuery req s) db = (.ok s', db')) : ¬ LeavesEntries req s := by
  intro leaves
  obtain ⟨recs, stored⟩ := exists_stored req.leapsecs dated v
  have live : ∃ x ∈ [(k, v)], x.1 = k := ⟨(k, v), List.mem_singleton_self _, rfl⟩
  have stamp : e.op.stamp = k := by
    rcases op with op | ⟨w, -, op⟩ <;> rw [op] <;> rfl
  have posed : Posed (e.changes req.leapsecs) recs := stored.posed (stamp ▸ dated) fun k' w is => by
    have same : k' = k := by rw [← stamp, is]; rfl
    rw [same]
    exact live
  have next : Stored req.leapsecs (e.op.apply [(k, v)]) (e.after req.leapsecs recs) := by
    rw [BlogEvent.after, newRecords_eq e.memory [] e.clk posed]
    rcases op with op | ⟨w, -, op⟩
    · exact stored.delete e.clk op dated
    · exact stored.modify e.clk op dated live
  obtain ⟨n, db', ran, content⟩ := exec_changeDb e memory clk
    (Fs.content_install_self Fs.empty dbFile (.finished recs))
  obtain ⟨s', served⟩ := serves ran
  obtain ⟨recs', content', same⟩ := leaves _ db' recs s' (Fs.content_install_self _ _ _) served
  rw [content] at content'
  cases content'
  have values := same k
  rw [next.entries k dated, stored.entries k dated] at values
  rcases op with op | ⟨w, other, op⟩
  · rw [op] at values
    simp [BlogOp.apply] at values
  · rw [op] at values
    simp [BlogOp.apply, BlogOp.rewrite] at values
    exact other values

theorem not_leavesEntries {req : HttpRequest} {s : Server}
    (dated : Dated (scanTimeHex req.left s.conf.qry.ts))
    (action : branch s = .qaDelete ∨ branch s = .qaModifyPost) : ¬ LeavesEntries req s := by
  have ts : (accessGate s).conf.qry.ts = s.conf.qry.ts := by
    unfold accessGate
    dsimp only
    split_ifs <;> rfl
  rcases action with delete | modify
  · refine not_leavesEntries_of_served dated ⟨.delete _, req.memory, req.clk, req.modifiedAt⟩ []
      rfl rfl (.inl rfl) fun {db db' n} ran => ?_
    have called : handleQuery req s =
        deleteAction req (scanTimeHex req.left s.conf.qry.ts) (accessGate s) := by
      have is : (accessGate s).conf.qry.action = .qaDelete := delete
      rw [handleQuery, runAction, is]
    rw [called]
    exact ⟨_, Prog.run_bind_ok handle ran⟩
  · refine not_leavesEntries_of_served dated
      ⟨.modify _ (accessGate s).conf.qry.input, req.memory, req.clk, req.modifiedAt⟩
      (0 :: (accessGate s).conf.qry.input) rfl rfl (.inr ⟨_, (List.cons_ne_self _ _).symm, rfl⟩)
      fun {db db' n} ran => ?_
    have called : handleQuery req s =
        modifyPost req (scanTimeHex req.left s.conf.qry.ts) (accessGate s) := by
      have is : (accessGate s).conf.qry.action = .qaModifyPost := modify
      rw [handleQuery, runAction, is]
    rw [called]
    exact ⟨_, Prog.run_bind_ok handle ran⟩

/-- **When the string of a request is the key.**  The key that is deleted or
modified is that of the string, whatever was left in the buffer, and a string
without sixteen digits leaves all entries, exactly when the string has them and,
for a modification, the form has a text with which it is read. -/
theorem key_of_string_iff (req : HttpRequest) (s s' : Server) (fs fs' : Fs) (v : Bytes)
    (parsed : exec (parseRequest req s) fs = (.ok s', fs'))
    (string : keyString req s' = some v) (buffer : req.left.length = fmtTaiaHex) :
    ((∀ left : Bytes, left.length = fmtTaiaHex →
        scanTimeHex left s'.conf.qry.ts = entryKey v) ∧
      (¬ IsWindow v → LeavesEntries req s')) ↔
      IsWindow v ∧ (postedAction req = some (str "mod") → (postInput.value req).isSome ∨
        windowDigits (queryStamp req) = windowDigits v) := by
  obtain ⟨stamp, length, -⟩ := parseRequest_order parsed
  have long : reduceSize ≤ (formStamp req).length := by
    rw [length]
    decide
  have action : branch s' = .qaDelete ∨ branch s' = .qaModifyPost := by
    rw [keyString] at string
    split at string
    · rename_i is
      exact .inl is
    · rename_i is
      exact .inr is
    · cases string
  rw [stamp]
  constructor
  · rintro ⟨always, leaves⟩
    have window : IsWindow v := by
      by_contra other
      refine not_leavesEntries ?_ action (leaves other)
      rw [stamp]
      exact dated_scanTimeHex long buffer
    refine ⟨window, ?_⟩
    exact (windowDigits_formStamp_iff parsed string window).1
      ((scanTimeHex_eq_entryKey_iff long window).1 always)
  · rintro ⟨window, read⟩
    refine ⟨?_, fun other => absurd window other⟩
    exact (scanTimeHex_eq_entryKey_iff long window).2
      ((windowDigits_formStamp_iff parsed string window).2 read)

/-- The administrator wants an entry deleted. -/
def deletes (v : Bytes) : HttpRequest :=
  { HttpRequest.blank with
    left := zeros fmtTaiaHex
    cookie := some (str "sid=" ++ sessionId fun _ => 10)
    queryString := some (str "del=" ++ v) }

theorem deletes_parsed {v : Bytes}
    (parses : ((exec (parseRequest (deletes v) freshServer) loggedIn).1.toOption.map branch) =
      some .qaDelete) :
    ∃ s' fs', exec (parseRequest (deletes v) freshServer) loggedIn = (.ok s', fs') ∧
      keyString (deletes v) s' = queryDel.value (deletes v) := by
  cases ran : exec (parseRequest (deletes v) freshServer) loggedIn with
  | mk result fs' =>
      rw [ran] at parses
      cases result with
      | error e => cases parses
      | ok s' =>
          have delete : branch s' = .qaDelete := Option.some.inj parses
          exact ⟨s', fs', rfl, by rw [keyString, delete]⟩

/-- Sixteen digits. -/
theorem key_of_string_iff_sample : ∃ s' fs',
    exec (parseRequest (deletes (str "4bdbfd2000000000")) freshServer) loggedIn = (.ok s', fs') ∧
      ∀ left : Bytes, left.length = fmtTaiaHex →
        scanTimeHex left s'.conf.qry.ts = entryKey (str "4bdbfd2000000000") := by
  obtain ⟨s', fs', parsed, string⟩ := deletes_parsed (v := str "4bdbfd2000000000")
    (by decide +kernel)
  have value : queryDel.value (deletes (str "4bdbfd2000000000")) = some (str "4bdbfd2000000000") := by
    decide +kernel
  have key := (key_of_string_iff _ freshServer s' loggedIn fs' _ parsed (string.trans value)
    (by decide)).2 ⟨by decide +kernel, by decide +kernel⟩
  exact ⟨s', fs', parsed, key.1⟩

/-- For a string of another kind the buffer decides which entry is deleted. -/
theorem buffer_is_deleted : ¬ ∀ (req : HttpRequest) (s s' : Server) (fs fs' : Fs) (v : Bytes),
    exec (parseRequest req s) fs = (.ok s', fs') → keyString req s' = some v →
    req.left.length = fmtTaiaHex →
    (∀ left : Bytes, left.length = fmtTaiaHex → scanTimeHex left s'.conf.qry.ts = entryKey v) ∧
      (¬ IsWindow v → LeavesEntries req s') := by
  intro claim
  obtain ⟨s', fs', parsed, string⟩ := deletes_parsed (v := str "oops") (by decide +kernel)
  have value : queryDel.value (deletes (str "oops")) = some (str "oops") := by decide +kernel
  obtain ⟨always, -⟩ := claim _ _ _ _ _ _ parsed (string.trans value) (by decide)
  have zero := always (zeros fmtTaiaHex) (by decide)
  have one := always (List.replicate fmtTaiaHex 1) (by decide)
  rw [(parseRequest_order parsed).1] at zero one
  exact absurd (zero.trans one.symm) (by decide +kernel)

end Bagunceiro
