/-
# Fcgi.Wire -- a request arrives as it was sent (`fcgiapp.c`, `z_mainblog.c`)

A web server begins a request, sends its parameters and then what was posted, each cut
into records as it likes, between which there may be records that are not for this
request: about the connection, or of another request.  Whatever the portions are in
which all that arrives, the application is given the parameters and what was posted,
and the records in between have their answers (`nextRequest_sent`).

Two kinds of records cannot be passed over: one of another request that has no content,
which takes that of the next record away (`Delivers.swallowed`), and one of an unknown
type about the connection that has some, which is delivered (`Delivers.mistaken`).
-/
import Bagunceiro.Fcgi.Accept
import Bagunceiro.Fcgi.Delivery
import Bagunceiro.Mainblog

namespace Bagunceiro.Fcgi

open Indistinct Refill Reader

set_option autoImplicit false

/-! ## Records among which a stream is sent -/

section Among

variable (fcgi : Fastcgi)

/-- Whether the record is of a stream of the request. -/
def Record.OfRequest (id : Nat) (r : Record) : Prop :=
  r.type ≠ fcgi.beginRequest ∧ r.requestId ≠ fcgi.nullRequestId ∧ r.requestId = id

instance (id : Nat) (r : Record) : Decidable (r.OfRequest fcgi id) :=
  inferInstanceAs (Decidable (_ ∧ _ ∧ _))

/-- What the record adds to the stream. -/
def Record.sent (id : Nat) (r : Record) : Bytes := if r.OfRequest fcgi id then r.content else []

/-- A record about the connection, and the answer to it.  Questions have an answer that
fits (`Answerable`); records of a type that the library does not know have no content. -/
inductive Record.Management (response : Nat → UInt8) (r : Record) : Bytes → Prop
  | values {ps : List Pair} (null : r.requestId = fcgi.nullRequestId)
      (values : r.type = fcgi.getValues) (asked : r.content = encodePairs ps)
      (answerable : Answerable fcgi ps) :
      Management response r
        (valuesRecord fcgi response (answers fcgi (ps.map Pair.nameValue)))
  | unknown (notBegin : r.type ≠ fcgi.beginRequest) (null : r.requestId = fcgi.nullRequestId)
      (notValues : r.type ≠ fcgi.getValues) (nothing : r.content = []) :
      Management response r (unknownTypeRecord fcgi r.type)

/-- A record that can be sent in front of a request, and the answer to it. -/
inductive Record.Before (cur : Current) (r : Record) : Bytes → Prop
  | foreign (notBegin : r.type ≠ fcgi.beginRequest) (notNull : r.requestId ≠ fcgi.nullRequestId)
      (other : r.requestId ≠ cur.requestId) (some_ : r.content ≠ []) : Before cur r []
  | management {answer : Bytes} (about : r.Management fcgi cur.response answer) :
      Before cur r answer

/-- A record that can be sent while a stream is, and the answer to it: another request is
turned down. -/
inductive Record.Among (cur : Current) (type : UInt8) (r : Record) : Bytes → Prop
  | own (of_ : r.OfRequest fcgi cur.requestId) (type_ : r.type = type) (some_ : r.content ≠ []) :
      Among cur type r []
  | before {answer : Bytes} (before : r.Before fcgi cur answer) : Among cur type r answer
  | another (begin_ : r.type = fcgi.beginRequest) (notZero : r.requestId ≠ 0)
      (body : r.content.length = 8) :
      Among cur type r (endRequestRecord fcgi r.requestId 0 fcgi.cantMpxConn)

/-- The record that ends a stream of the request. -/
structure Record.Ends (id : Nat) (type : UInt8) (r : Record) : Prop where
  of_ : r.OfRequest fcgi id
  type_ : r.type = type
  nothing : r.content = []

variable {fcgi} {type : UInt8} {cur : Current} {answer : Bytes}

theorem Record.Management.notOf {response : Nat → UInt8} {r : Record}
    (about : r.Management fcgi response answer) (id : Nat) : ¬ r.OfRequest fcgi id := by
  intro of_
  cases about with
  | values null => exact of_.2.1 null
  | unknown _ null => exact of_.2.1 null

theorem Record.Management.met {r : Record} (about : r.Management fcgi cur.response answer) :
    ∃ padding, Met fcgi type cur false r answer false [] padding := by
  cases about with
  | values null values asked answerable =>
      exact ⟨[], .values null values asked (.inl rfl) (valuePairs_of_answerable answerable)⟩
  | unknown notBegin null notValues nothing =>
      rw [← nothing]
      exact ⟨r.padding, .unknown notBegin null notValues⟩

/-- What comes in front of a request is passed over. -/
theorem Record.Before.met {r : Record} (before : r.Before fcgi cur answer) :
    ∃ skip content padding, Met fcgi type cur false r answer skip content padding ∧
      (skip && content.isEmpty) = false ∧ (content = [] ∨ skip = true) := by
  cases before with
  | foreign notBegin notNull other some_ =>
      refine ⟨true, _, _, .foreign notBegin notNull other, ?_, .inr rfl⟩
      rw [Bool.true_and, List.isEmpty_eq_false_iff]
      exact some_
  | management about =>
      obtain ⟨padding, met⟩ := about.met
      exact ⟨false, [], padding, met, rfl, .inl rfl⟩

theorem Record.Before.notOf {r : Record} (before : r.Before fcgi cur answer) :
    ¬ r.OfRequest fcgi cur.requestId := by
  cases before with
  | foreign _ _ other => exact fun of_ => other of_.2.2
  | management about => exact about.notOf cur.requestId

/-- What comes among the records of a stream adds nothing to it. -/
theorem Record.Among.met {r : Record} (among : r.Among fcgi cur type answer)
    (begun : cur.isBeginProcessed = true) :
    ∃ skip content padding, Met fcgi type cur false r answer skip content padding ∧
      (skip && content.isEmpty) = false ∧
      (if skip then [] else content) = r.sent fcgi cur.requestId := by
  cases among with
  | own of_ type_ some_ =>
      refine ⟨false, _, _, .own of_.1 of_.2.1 of_.2.2 type_ some_, rfl, ?_⟩
      rw [sent, if_pos of_]
      rfl
  | before before =>
      obtain ⟨skip, content, padding, met, goesOn, passed⟩ := before.met
      refine ⟨skip, content, padding, met, goesOn, ?_⟩
      rw [sent, if_neg before.notOf]
      rcases passed with rfl | rfl
      · exact ite_self []
      · rfl
  | another begin_ notZero body =>
      refine ⟨true, _, _, .another begin_ notZero body begun, ?_, ?_⟩
      · rw [Bool.true_and, List.isEmpty_eq_false_iff, ← List.length_pos_iff, body]
        exact Nat.zero_lt_succ 7
      · have other : ¬ r.OfRequest fcgi cur.requestId := fun of_ => of_.1 begin_
        rw [sent, if_neg other]
        rfl

/-- **A stream delivers the contents of its own records**, whatever is sent among them. -/
theorem delivers_among (begun : cur.isBeginProcessed = true) {rs : List (Record × Bytes)}
    (among : ∀ r ∈ rs, r.1.Among fcgi cur type r.2) {end_ : Record}
    (ends : end_.Ends fcgi cur.requestId type) :
    Delivers fcgi type cur false (rs.map Prod.fst ++ [end_])
      (rs.flatMap (·.1.sent fcgi cur.requestId)) (rs.flatMap Prod.snd) := by
  induction rs with
  | nil => exact .ends ends.of_.1 ends.of_.2.1 ends.of_.2.2 ends.type_ ends.nothing
  | cons r rs ih =>
      obtain ⟨skip, content, padding, met, goesOn, sent⟩ := (among r List.mem_cons_self).met begun
      have next := ih fun r' mem => among r' (List.mem_cons_of_mem r mem)
      rw [← goesOn] at next
      rw [List.map_cons, List.cons_append, List.flatMap_cons, List.flatMap_cons, ← sent]
      exact .met met next

/-- The request is found behind what is in front of it. -/
theorem prefaces_before {rs : List (Record × Bytes)}
    (before : ∀ r ∈ rs, r.1.Before fcgi cur r.2) {r : Record} (begin_ : r.type = fcgi.beginRequest)
    (notZero : r.requestId ≠ 0) (body : r.content.length = 8) :
    Prefaces fcgi type cur r false (rs.map Prod.fst ++ [r]) (rs.flatMap Prod.snd) := by
  induction rs with
  | nil => exact .begins begin_ notZero body
  | cons r' rs ih =>
      obtain ⟨skip, content, padding, met, goesOn, passed⟩ := (before r' List.mem_cons_self).met
      have next := ih fun r'' mem => before r'' (List.mem_cons_of_mem r' mem)
      rw [← goesOn] at next
      rw [List.map_cons, List.cons_append, List.flatMap_cons]
      exact .met met passed next

/-- A record of another request without content takes away what the next one of the
stream has. -/
theorem Delivers.swallowed {empty r : Record} (notBegin : empty.type ≠ fcgi.beginRequest)
    (notNull : empty.requestId ≠ fcgi.nullRequestId) (other : empty.requestId ≠ cur.requestId)
    (nothing : empty.content = []) (of_ : r.OfRequest fcgi cur.requestId) (type_ : r.type = type)
    (some_ : r.content ≠ []) {rs : List Record} {bs out : Bytes}
    (next : Delivers fcgi type cur false rs bs out) :
    Delivers fcgi type cur false (empty :: r :: rs) bs out := by
  have goesOn : Delivers fcgi type cur (true && r.content.isEmpty) rs bs out := by
    rw [Bool.true_and, List.isEmpty_eq_false_iff.2 some_]
    exact next
  have lost : Delivers fcgi type cur (true && empty.content.isEmpty) (r :: rs) bs out := by
    rw [nothing]
    exact @Delivers.met fcgi type cur true true r rs [] out r.content r.padding bs
      (.own of_.1 of_.2.1 of_.2.2 type_ some_) goesOn
  exact @Delivers.met fcgi type cur false true empty (r :: rs) [] out empty.content empty.padding bs
    (.foreign notBegin notNull other) lost

/-- A record of an unknown type about the connection is answered, and its content taken
for that of the stream. -/
theorem Delivers.mistaken {r : Record} (notBegin : r.type ≠ fcgi.beginRequest)
    (null : r.requestId = fcgi.nullRequestId) (notValues : r.type ≠ fcgi.getValues)
    {rs : List Record} {bs out : Bytes} (next : Delivers fcgi type cur false rs bs out) :
    Delivers fcgi type cur false (r :: rs) (r.content ++ bs)
      (unknownTypeRecord fcgi r.type ++ out) :=
  .met (.unknown notBegin null notValues) next

end Among

/-! ## What was posted -/

section Post

variable {fcgi : Fastcgi} {b : Reader} {output last tail : Bytes}

theorem postRounds_holds (idle : b.Idle) {s : Reader} {bs : Bytes}
    (holds : Holds fcgi b output last tail s bs) {n : Nat} (enough : bs.length < n) (ps : Bytes) :
    ∃ s', postRounds fcgi n ps s = .ok (ps ++ bs, s') ∧ s'.isClosed = true ∧
      Holds fcgi b output last tail s' [] := by
  induction n generalizing s bs ps with
  | zero => exact absurd enough (Nat.not_lt_zero _)
  | succ n ih =>
      obtain ⟨s', read, holds', short⟩ :=
        getStr_feeds (stream_feeds idle) (holds_live idle) holds 128
      rw [postRounds, run_bind read]
      by_cases less : bs.length < 128
      · have all : bs.take 128 = bs := List.take_of_length_le (Nat.le_of_lt less)
        rw [List.drop_eq_nil_of_le (Nat.le_of_lt less)] at holds'
        refine ⟨s', ?_, short less, holds'⟩
        rw [all]
        split
        · rename_i nothing
          rw [List.eq_nil_of_length_eq_zero nothing, List.append_nil]
          rfl
        · rfl
      · have full : (bs.take 128).length = 128 := by
          rw [List.length_take]
          omega
        have some_ : ¬ (bs.take 128).length = 0 := by omega
        obtain ⟨s'', rest, closed, ended⟩ := ih holds'
          (by rw [List.length_drop]; omega) (ps ++ bs.take 128)
        refine ⟨s'', ?_, closed, ended⟩
        rw [if_neg some_, full, if_neg (Nat.lt_irrefl 128), rest, List.append_assoc,
          List.take_append_drop]

/-- What the stream delivers is what was posted. -/
theorem postString_delivers (idle : b.Idle) {rs : List Record} {bs out : Bytes}
    (delivers : Delivers fcgi b.type b.req.current b.skip rs bs out) {envp : List Bytes}
    {length : Bytes} (given : getParam (str "CONTENT_LENGTH") envp = some length) :
    ∃ skip, postString fcgi envp (b.amid [] [] [] (encode fcgi rs ++ tail)) =
      .ok (bs, { b.on skip (b.req.ipc.output ++ out) with isClosed := true }.amid [] []
        (endPadding rs) tail) := by
  have start : Holds fcgi b (b.req.ipc.output ++ out) (endPadding rs) tail
      (b.amid [] [] [] (encode fcgi rs ++ tail)) bs := by
    have holds := @Holds.amid _ b (b.req.ipc.output ++ out) _ tail b.skip _ b.req.ipc.output
      _ _ [] [] []
      (by rw [List.isEmpty_nil, Bool.and_true]; exact delivers) rfl rfl
    rw [ite_self, List.nil_append, List.nil_append] at holds
    exact holds
  obtain ⟨s', posted, closed, ended⟩ :=
    postRounds_holds idle start (Nat.lt_succ_of_le (holds_unread start)) []
  obtain ⟨skip, rfl⟩ := holds_closed idle ended closed
  refine ⟨skip, ?_⟩
  rw [postString, given]
  exact posted

end Post

/-! ## A request -/

namespace Reader

/-- The stream is set to another one. -/
def turned (b : Reader) (type : UInt8) : Reader :=
  { b with type := type, eorStop := false, skip := false, isClosed := false }

variable {fcgi : Fastcgi} {b : Reader} {tail : Bytes}

theorem Idle.turned (idle : b.Idle) (type : UInt8) : (b.turned type).Idle :=
  ⟨rfl, rfl, idle.errno, idle.room⟩

theorem readEnvironment_delivers (idle : b.Idle) {rs : List Record} {ps : List Pair} {out : Bytes}
    (delivers : Delivers fcgi fcgi.params b.req.current false rs (encodePairs ps) out)
    (unpadded : endPadding rs = []) (role : Bytes) :
    readEnvironment fcgi role (b.amid [] [] [] (encode fcgi rs ++ tail)) =
      .ok (some (role :: ps.map Pair.nameValue),
        ((b.on false (b.req.ipc.output ++ out)).turned fcgi.stdin).amid [] [] [] tail) := by
  have idle' := idle.turned fcgi.params
  have start := @Holds.amid _ (b.turned fcgi.params) (b.req.ipc.output ++ out) _ tail false _
    b.req.ipc.output _ _ [] [] [] delivers rfl unpadded
  obtain ⟨s', read, ended, closed⟩ := readParams_encode (stream_feeds idle') (holds_live idle')
    holds_unread ps start [role]
  obtain ⟨skip, rfl⟩ := holds_closed idle' ended closed
  have read' : readParams (fillBuffProc fcgi) [role]
      ((b.turned fcgi.params).amid [] [] [] (encode fcgi rs ++ tail)) = _ := read
  have turns : (modify fun s => s.setReaderType fcgi.params : Reading Unit)
      (b.amid [] [] [] (encode fcgi rs ++ tail)) =
        .ok ((), (b.turned fcgi.params).amid [] [] [] (encode fcgi rs ++ tail)) := rfl
  rw [readEnvironment, run_bind turns, run_bind read']
  rfl

theorem receive_begun {s s' : Reader} {role : Bytes} (filled : fillBuffProc fcgi s = .ok ((), s'))
    (begun : s'.req.isBeginProcessed = true) (role_eq : roleStr fcgi s'.req.role = some role) :
    receive fcgi s = readEnvironment fcgi role s' := by
  have goesOn : ¬ s'.req.isBeginProcessed = false := by
    rw [begun]
    exact fun no => Bool.noConfusion no
  rw [receive, run_bind filled]
  show (if s'.req.isBeginProcessed = false then _ else _ : Reading (Option (List Bytes))) s' = _
  rw [if_neg goesOn, role_eq]

end Reader

section Request

variable (fcgi : Fastcgi)

/-- The request that the record begins. -/
def Reader.Current.begins (cur : Current) (r : Record) : Current :=
  { cur with requestId := r.requestId, isBeginProcessed := true }

/-- What a web server sends for a request, and what it stands for.  With each record that
comes before or in between is the answer to it. -/
structure Sent (cur : Current) where
  preface : List (Record × Bytes)
  begins : Record
  params : List (Record × Bytes)
  paramsEnd : Record
  stdin : List (Record × Bytes)
  stdinEnd : Record
  role : Bytes
  nameValues : List Pair
  notYet : cur.isBeginProcessed = false
  before : ∀ r ∈ preface, r.1.Before fcgi cur r.2
  begin_ : begins.type = fcgi.beginRequest
  notZero : begins.requestId ≠ 0
  body : begins.content.length = 8
  role_eq : roleStr fcgi ((begins.content.getD 0 0).toNat * 256 + (begins.content.getD 1 0).toNat) =
    some role
  amongParams : ∀ r ∈ params, r.1.Among fcgi (cur.begins begins) fcgi.params r.2
  paramsSent : params.flatMap (·.1.sent fcgi begins.requestId) = encodePairs nameValues
  paramsEnds : paramsEnd.Ends fcgi begins.requestId fcgi.params
  amongStdin : ∀ r ∈ stdin, r.1.Among fcgi (cur.begins begins) fcgi.stdin r.2
  stdinEnds : stdinEnd.Ends fcgi begins.requestId fcgi.stdin
  unpadded : begins.padding = [] ∧ paramsEnd.padding = []

theorem endPadding_concat (rs : List Record) (r : Record) : endPadding (rs ++ [r]) = r.padding := by
  induction rs with
  | nil => rfl
  | cons r' rs ih =>
      cases rs with
      | nil => rfl
      | cons r'' rs => exact ih

namespace Sent

variable {fcgi} {cur : Current} (sent : Sent fcgi cur)

def paramRecords : List Record := sent.params.map Prod.fst ++ [sent.paramsEnd]

def stdinRecords : List Record := sent.stdin.map Prod.fst ++ [sent.stdinEnd]

def bytes : Bytes :=
  encode fcgi (sent.preface.map Prod.fst ++ [sent.begins]) ++
    (encode fcgi sent.paramRecords ++ encode fcgi sent.stdinRecords)

def envp : List Bytes := sent.role :: sent.nameValues.map Pair.nameValue

/-- What was posted. -/
def post : Bytes := sent.stdin.flatMap (·.1.sent fcgi sent.begins.requestId)

/-- The answers up to the end of the parameters. -/
def answered : Bytes := sent.preface.flatMap Prod.snd ++ sent.params.flatMap Prod.snd

theorem deliversParams : Delivers fcgi fcgi.params (cur.begins sent.begins) false
    sent.paramRecords (encodePairs sent.nameValues) (sent.params.flatMap Prod.snd) := by
  have delivers := delivers_among rfl sent.amongParams sent.paramsEnds
  rw [← sent.paramsSent]
  exact delivers

theorem deliversPost : Delivers fcgi fcgi.stdin (cur.begins sent.begins) false
    sent.stdinRecords sent.post (sent.stdin.flatMap Prod.snd) :=
  delivers_among rfl sent.amongStdin sent.stdinEnds

end Sent

variable {fcgi} {b : Reader} {tail : Bytes}

/-- The stream behind the parameters. -/
def Sent.behind (sent : Sent fcgi b.req.current) : Reader :=
  ((b.on false (b.req.ipc.output ++ sent.answered)).begins fcgi sent.begins).turned fcgi.stdin

theorem receive_sent (idle : b.Idle) (deliver : b.skip = false) (sent : Sent fcgi b.req.current) :
    receive fcgi (b.amid [] [] [] (sent.bytes ++ tail)) =
      .ok (some sent.envp, sent.behind.amid [] [] [] (encode fcgi sent.stdinRecords ++ tail)) := by
  have prefaces := @prefaces_before fcgi b.type b.req.current _ sent.before _ sent.begin_
    sent.notZero sent.body
  have filled := @fillBuffProc_prefaces _ b
    (encode fcgi sent.paramRecords ++ (encode fcgi sent.stdinRecords ++ tail)) idle sent.notYet
    sent.begins _ _ (by rw [deliver]; exact prefaces)
  have bytes : sent.bytes ++ tail = encode fcgi (sent.preface.map Prod.fst ++ [sent.begins]) ++
      (encode fcgi sent.paramRecords ++ (encode fcgi sent.stdinRecords ++ tail)) := by
    rw [Sent.bytes, List.append_assoc, List.append_assoc]
  have unpadded : endPadding sent.paramRecords = [] :=
    (endPadding_concat _ _).trans sent.unpadded.2
  rw [bytes, receive_begun filled rfl sent.role_eq, sent.unpadded.1,
    readEnvironment_delivers (b := (b.on false (b.req.ipc.output ++
      sent.preface.flatMap Prod.snd)).begins fcgi sent.begins)
      ⟨idle.isClosed, idle.eorStop, idle.errno, idle.room⟩ sent.deliversParams unpadded sent.role,
    Sent.behind, Sent.answered, ← List.append_assoc]
  rfl

variable (fcgi) in
/-- The reader of a new connection. -/
def connected (aligned : Bool) (req : Request) (ipc : Ipc) : Reader :=
  { newReader fcgi 8192 aligned 0 (req.on { ipc with input := [] }) with
    bufflen := 1
    bufflen_pos := Nat.one_pos }

theorem whole_newReader (aligned : Bool) (req : Request) (ipc : Ipc) :
    (newReader fcgi 8192 aligned 0 (req.on ipc)).whole =
      (connected fcgi aligned req ipc).amid [] [] [] ipc.input.flatten := rfl

/-- The request is accepted, and then the stream has what was posted. -/
theorem acceptRequest_sent {req : Request} {ipc : Ipc} (room : ipc.room = none)
    (sent : Sent fcgi (req.on ipc).current) (cut : ipc.input.flatten = sent.bytes ++ tail)
    (aligned : Bool) (conns : List Ipc) :
    ∃ u s, acceptRequest fcgi aligned (ipc :: conns) req = .ok (some (sent.envp, s, conns)) ∧
      Begun u s ((Sent.behind (b := connected fcgi aligned req ipc) sent).amid [] [] []
        (encode fcgi sent.stdinRecords ++ tail)) := by
  have idle : (connected fcgi aligned req ipc).Idle := ⟨rfl, rfl, rfl, room⟩
  have received : receive fcgi (newReader fcgi 8192 aligned 0 (req.on ipc)).whole =
      .ok (some sent.envp, (Sent.behind (b := connected fcgi aligned req ipc) sent).amid [] [] []
        (encode fcgi sent.stdinRecords ++ tail)) := by
    rw [whole_newReader, cut]
    exact receive_sent idle rfl sent
  have start : Empty false false (newReader fcgi 8192 aligned 0 (req.on ipc)).unread 0
      (newReader fcgi 8192 aligned 0 (req.on ipc))
      (newReader fcgi 8192 aligned 0 (req.on ipc)).whole :=
    ⟨⟨(sound_of_ready rfl).alike_whole, rfl, rfl, Nat.le_refl _, fun no => nomatch no⟩, rfl, rfl, rfl⟩
  obtain ⟨s, ran, alike, begun⟩ := Respects.of_right (receive_alike fcgi) start received
  refine ⟨_, s, ?_, begun fun no => nomatch no⟩
  rw [acceptRequest, ran]
  rfl

end Request

/-! ## The request of the blog -/

/-- What `get_query_string`, `get_cookie_string` and `get_post_string` leave to `main`. -/
def httpRequest (env : Env) (envp : List Bytes) (post : Bytes) : HttpRequest where
  toEnv := env
  queryString := getParam (str "QUERY_STRING") envp
  cookie := getParam (str "HTTP_COOKIE") envp
  postData := post

/-- The value of the first pair of the name, up to a NUL. -/
def valueFor (name : Bytes) (ps : List Pair) : Option Bytes :=
  (ps.find? (·.name = name)).map (cstr ·.value)

theorem takeWhile_front {c : UInt8} {s : Bytes} (plain : c ∉ s) (rest : Bytes) :
    (s ++ c :: rest).takeWhile (· ≠ c) = s := by
  have front : ∀ b ∈ s, decide (b ≠ c) = true := fun b member =>
    decide_eq_true (ne_of_mem_of_not_mem member plain)
  rw [List.takeWhile_append_of_pos front, List.takeWhile_cons_of_neg (by simp), List.append_nil]

/-- A string starts with the name and `=` if and only if the pair is of the name. -/
theorem isPrefixOf_nameValue {name : Bytes} (p : Pair) (plain : 61 ∉ name) (plain' : 61 ∉ p.name) :
    (name ++ [61]).isPrefixOf p.nameValue = decide (p.name = name) := by
  rw [Bool.eq_iff_iff, List.isPrefixOf_iff_prefix, decide_eq_true_iff]
  constructor
  · rintro ⟨rest, same⟩
    rw [List.append_assoc, List.singleton_append] at same
    rw [← takeWhile_front plain' p.value, ← takeWhile_front plain rest, same]
    rfl
  · rintro rfl
    refine ⟨p.value, ?_⟩
    rw [List.append_assoc]
    rfl

/-- **A parameter is found by its name.** -/
theorem getParam_nameValues {name : Bytes} (plain : 61 ∉ name) {ps : List Pair}
    (names : ∀ p ∈ ps, 61 ∉ p.name) : getParam name (ps.map Pair.nameValue) = valueFor name ps := by
  induction ps with
  | nil => rfl
  | cons p ps ih =>
      rw [List.map_cons, getParam, isPrefixOf_nameValue p plain (names p List.mem_cons_self),
        valueFor, List.find?_cons]
      by_cases same : p.name = name
      · have value : p.nameValue.drop (name.length + 1) = p.value := by
          rw [← same, Pair.nameValue, List.drop_length_add_append]
          rfl
        rw [if_pos (decide_eq_true same), value, decide_eq_true same]
        rfl
      · rw [if_neg (by rw [decide_eq_true_iff]; exact same), decide_eq_false same,
          ih fun q member => names q (List.mem_cons_of_mem p member), valueFor]

/-- The parameter of the role is a pair, too. -/
theorem roleStr_nameValue {fcgi : Fastcgi} {n : Nat} {role : Bytes}
    (role_eq : roleStr fcgi n = some role) :
    ∃ p : Pair, p.name = str "FCGI_ROLE" ∧ p.nameValue = role := by
  have pair (value : Bytes) (short : value.length < 16) :
      ∃ p : Pair, p.name = str "FCGI_ROLE" ∧ p.nameValue = str "FCGI_ROLE" ++ 61 :: value := by
    have nine : (str "FCGI_ROLE").length = 9 := by decide
    exact ⟨⟨str "FCGI_ROLE", value, by omega⟩, rfl, rfl⟩
  rw [roleStr] at role_eq
  split at role_eq
  · obtain rfl := Option.some.inj role_eq
    exact pair (str "RESPONDER") (by decide)
  · split at role_eq
    · obtain rfl := Option.some.inj role_eq
      exact pair (str "AUTHORIZER") (by decide)
    · split at role_eq
      · obtain rfl := Option.some.inj role_eq
        exact pair (str "FILTER") (by decide)
      · cases role_eq

section Sent

variable {fcgi : Fastcgi} {cur : Current}

/-- The parameters are those that were sent. -/
theorem Sent.getParam_envp (sent : Sent fcgi cur) (names : ∀ p ∈ sent.nameValues, 61 ∉ p.name)
    {name : Bytes} (plain : 61 ∉ name) (notRole : str "FCGI_ROLE" ≠ name) :
    getParam name sent.envp = valueFor name sent.nameValues := by
  obtain ⟨p, role, same⟩ := roleStr_nameValue sent.role_eq
  have plain' : 61 ∉ p.name := by
    rw [role]
    decide
  have other : ¬ (name ++ [61]).isPrefixOf sent.role = true := by
    rw [← same, isPrefixOf_nameValue p plain plain', decide_eq_true_iff, role]
    exact notRole
  rw [Sent.envp, getParam, if_neg other, getParam_nameValues plain names]

/-- What was sent, as the blog is given it. -/
def Sent.httpRequest (sent : Sent fcgi cur) (env : Env) : HttpRequest where
  toEnv := env
  queryString := valueFor (str "QUERY_STRING") sent.nameValues
  cookie := valueFor (str "HTTP_COOKIE") sent.nameValues
  postData :=
    if (valueFor (str "CONTENT_LENGTH") sent.nameValues).isSome then sent.post else []

/-- What is answered until the request has been read. -/
def Sent.allAnswers (sent : Sent fcgi cur) : Bytes :=
  sent.answered ++ if (valueFor (str "CONTENT_LENGTH") sent.nameValues).isSome then
    sent.stdin.flatMap Prod.snd else []

/-- What was posted is read behind the parameters, if its length was given. -/
theorem Sent.posted {req : Request} {ipc : Ipc} (room : ipc.room = none)
    (sent : Sent fcgi (req.on ipc).current) (names : ∀ p ∈ sent.nameValues, 61 ∉ p.name)
    (tail : Bytes) (aligned : Bool) (env : Env) :
    ∃ t, postString fcgi sent.envp ((Sent.behind (b := connected fcgi aligned req ipc) sent).amid
        [] [] [] (encode fcgi sent.stdinRecords ++ tail)) = .ok ((sent.httpRequest env).postData, t) ∧
      t.req.requestId = sent.begins.requestId ∧
      t.req.ipc.output = ipc.output ++ sent.allAnswers := by
  have length := @Sent.getParam_envp _ _ sent names (str "CONTENT_LENGTH") (by decide) (by decide)
  have idle : (Sent.behind (b := connected fcgi aligned req ipc) sent).Idle :=
    ⟨rfl, rfl, rfl, room⟩
  cases given : valueFor (str "CONTENT_LENGTH") sent.nameValues with
  | none =>
      rw [given] at length
      refine ⟨(Sent.behind (b := connected fcgi aligned req ipc) sent).amid [] [] []
        (encode fcgi sent.stdinRecords ++ tail), ?_, rfl, ?_⟩
      · rw [postString, length, Sent.httpRequest, given]
        rfl
      · rw [Sent.allAnswers, given, if_neg (by simp), List.append_nil]
        rfl
  | some value =>
      rw [given] at length
      obtain ⟨skip, posted⟩ := @postString_delivers _ _ tail idle _ _ _ sent.deliversPost _ _ length
      have post : (sent.httpRequest env).postData = sent.post := by
        rw [Sent.httpRequest, given]
        rfl
      rw [← post] at posted
      refine ⟨_, posted, ?_, ?_⟩
      · rfl
      · have answers : sent.allAnswers = sent.answered ++ sent.stdin.flatMap Prod.snd := by
          rw [Sent.allAnswers, given]
          rfl
        show ipc.output ++ sent.answered ++ sent.stdin.flatMap Prod.snd = _
        rw [answers, List.append_assoc]

end Sent

/-! ### A request that is cut -/

section Cut

theorem cut_short : ([] : Bytes).length < 65536 := by decide

theorem cut_padding : ([] : Bytes).length < 256 := by decide

def cutRecord (type : UInt8) (requestId : Fin 256) (content : Bytes)
    (short : content.length < 65536) : Record :=
  ⟨type, requestId, content, [], Nat.lt_trans requestId.2 (by omega), short, cut_padding⟩

def cutPairs : List Pair :=
  [⟨str "QUERY_STRING", str "ts=1", by decide⟩, ⟨str "CONTENT_LENGTH", str "2", by decide⟩]

/-- The parameters are cut within the first pair, where a record of another request is. -/
def cutParams : List (Record × Bytes) :=
  [(cutRecord 4 1 ((encodePairs cutPairs).take 9) (by decide), []),
    (cutRecord 5 2 [7] (by decide), []),
    (cutRecord 4 1 ((encodePairs cutPairs).drop 9) (by decide), [])]

/-- In front of the request the web server asks for what it may. -/
def cutPreface : List (Record × Bytes) :=
  [(cutRecord 9 0 (encodePairs knownNames) (by decide),
    valuesRecord fastcgi (fun _ => 0) (answers fastcgi (knownNames.map Pair.nameValue)))]

theorem cut_own {type : UInt8} {content : Bytes} (short : content.length < 65536)
    (notBegin : type ≠ 1) (some_ : content ≠ []) :
    (cutRecord type 1 content short).Among fastcgi ⟨1, true, fun _ => 0⟩ type [] :=
  .own ⟨notBegin, Nat.one_ne_zero, rfl⟩ rfl some_

theorem cut_ends {type : UInt8} (notBegin : type ≠ 1) :
    (cutRecord type 1 [] cut_short).Ends fastcgi 1 type :=
  ⟨⟨notBegin, Nat.one_ne_zero, rfl⟩, rfl, rfl⟩

theorem cut_before : ∀ r ∈ cutPreface, r.1.Before fastcgi ⟨0, false, fun _ => 0⟩ r.2 := by
  rw [cutPreface, List.forall_mem_singleton]
  exact .management (.values rfl rfl rfl ⟨by decide, by decide⟩)

theorem cut_amongParams : ∀ r ∈ cutParams, r.1.Among fastcgi ⟨1, true, fun _ => 0⟩ 4 r.2 := by
  rw [cutParams, List.forall_mem_cons, List.forall_mem_cons, List.forall_mem_singleton]
  exact ⟨cut_own _ (by decide) (by decide),
    .before (.foreign (by decide) (by decide) (by decide) (by decide)),
    cut_own _ (by decide) (by decide)⟩

theorem cut_amongStdin : ∀ r ∈ [(cutRecord 5 1 (str "ab") (by decide), ([] : Bytes))],
    r.1.Among fastcgi ⟨1, true, fun _ => 0⟩ 5 r.2 := by
  rw [List.forall_mem_singleton]
  exact cut_own _ (by decide) (by decide)

theorem cut_paramsSent :
    cutParams.flatMap (·.1.sent fastcgi 1) = encodePairs cutPairs := by decide

def cutSent : Sent fastcgi ((Request.fresh (Ipc.fresh [])).on (Ipc.fresh [])).current where
  preface := cutPreface
  begins := cutRecord 1 1 [0, 1, 0, 0, 0, 0, 0, 0] (by decide)
  params := cutParams
  paramsEnd := cutRecord 4 1 [] cut_short
  stdin := [(cutRecord 5 1 (str "ab") (by decide), [])]
  stdinEnd := cutRecord 5 1 [] cut_short
  role := str "FCGI_ROLE=RESPONDER"
  nameValues := cutPairs
  notYet := rfl
  before := cut_before
  begin_ := rfl
  notZero := by decide
  body := rfl
  role_eq := if_pos (by decide)
  amongParams := cut_amongParams
  paramsSent := cut_paramsSent
  paramsEnds := cut_ends (by decide)
  amongStdin := cut_amongStdin
  stdinEnds := cut_ends (by decide)
  unpadded := ⟨rfl, rfl⟩

/-- Whether its bytes arrive one by one or at once, the same is accepted: all of it. -/
theorem acceptRequest_alike_bytes :
    let oneByOne := acceptRequest fastcgi true [Ipc.fresh (cutSent.bytes.map ([·]))]
      (Request.fresh (Ipc.fresh []))
    let atOnce := acceptRequest fastcgi false [Ipc.fresh [cutSent.bytes]]
      (Request.fresh (Ipc.fresh []))
    SameRequest oneByOne atOnce ∧ ∃ s, oneByOne = .ok (some (cutSent.envp, s, [])) := by
  have bytes : (cutSent.bytes.map ([·])).flatten = cutSent.bytes := by
    rw [← List.flatMap_def, List.flatMap_singleton']
  have same : (Ipc.fresh (cutSent.bytes.map ([·]))).Same (Ipc.fresh [cutSent.bytes]) :=
    ⟨bytes.trans (List.append_nil _).symm, rfl⟩
  have others (ipc : Ipc) :
      (Request.fresh (Ipc.fresh [])).on ipc = (Request.fresh (Ipc.fresh [])).on ipc := rfl
  refine ⟨acceptRequest_alike fastcgi (.cons same .nil) others true false, ?_⟩
  obtain ⟨-, s, accepted_, -⟩ := @acceptRequest_sent fastcgi [] (Request.fresh (Ipc.fresh []))
    (Ipc.fresh (cutSent.bytes.map ([·]))) rfl cutSent (bytes.trans (List.append_nil _).symm) true []
  exact ⟨s, accepted_⟩

end Cut

end Bagunceiro.Fcgi
