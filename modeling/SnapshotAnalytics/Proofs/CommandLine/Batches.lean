import SnapshotAnalytics.CommandLine.Program
import SnapshotAnalytics.Proofs.Engine.Repeats
import SnapshotAnalytics.Proofs.Json.SingleLine
import SnapshotAnalytics.Proofs.Text.Lines

/-!
# Lines of requests and lines of answers

Who sends a batch pairs the printed lines with the lines of the input by their places. So there has to
be one printed line for each line that asks for something, in the same order, and a line must never
break, whatever texts the backend sends.

The answers are those to the requests one after the other, each at its own time and in the state that
the ones before it left, up to the first request that crashes. Two batches, the second answered in the
state behind the first, are answered like one batch with a line feed in between.
-/

namespace SnapshotAnalytics.Batch

/-! ## §1 The lines that ask -/

/-- A line that asks for something: it is not blank, and it is no comment. -/
def asks (line : List Char) : Bool :=
  Text.isFilled line && (Text.trim line).head? != some '#'

/-- What a line asks for. -/
def requestOf (line : List Char) : String :=
  String.ofList (Text.trim line)

def request? (line : List Char) : Option String :=
  if asks line then some (requestOf line) else none

theorem requests_eq_filterMap (input : String) :
    requests input = (Text.lines input.toList).filterMap request? := by
  rw [requests, List.filterMap_map]
  refine List.filterMap_congr fun line _ => ?_
  rw [Function.comp_apply, Text.isEmpty_trim, request?, asks, requestOf, bne]
  cases Text.isFilled line <;> cases (Text.trim line).head? == some '#' <;> rfl

theorem requests_eq (input : String) :
    requests input = ((Text.lines input.toList).filter asks).map requestOf := by
  rw [requests_eq_filterMap, ← List.filterMap_eq_map, List.filterMap_filter]
  rfl

/-- The lines of two texts with a line feed in between are the lines of both. -/
theorem requests_append (input behind : String) :
    requests (input ++ "\n" ++ behind) = requests input ++ requests behind := by
  have hreturn (line : List Char) : request? (line ++ ['\r']) = request? line := by
    have htrim : Text.trim (line ++ ['\r']) = Text.trim line :=
      Text.trim_append_blanks (List.forall_mem_singleton.mpr (by decide)) line
    rw [request?, asks, requestOf, Text.isFilled_concat_return, htrim, request?, asks, requestOf]
  have hblank (line : List Char) (h : Text.isFilled line = false) : request? line = none := by
    rw [request?, asks, h, Bool.false_and, if_neg Bool.false_ne_true]
  have hchars : (input ++ "\n" ++ behind).toList =
      input.toList ++ Text.LineEnd.feed.chars ++ behind.toList := by
    simp [Text.LineEnd.chars]
  -- Pieces between line feeds can be put together, which lines cannot: they lose an empty last one.
  simp only [requests_eq_filterMap, Text.filterMap_lines hreturn hblank]
  rw [hchars, Text.filterMap_splitOn_lineEnd hreturn]

/-! ## §2 One request after the other -/

section

variable {e : Engine} {around : Nat → Surroundings Id} {st st' : CacheState}

/-- The state that some requests leave. -/
def stateAfter (e : Engine) : (Nat → Surroundings Id) → CacheState → List String → CacheState
  | _, st, [] => st
  | around, st, r :: rs =>
    stateAfter e (fun k => around (k + 1)) ((e.handleText (around 0) r).run st).2 rs

theorem run_answerRequests_of_some (around : Nat → Surroundings Id) {r : String} {envelope : Envelope}
    (h : (e.handleText (around 0) r).run st = (some envelope, st')) (rs : List String) :
    (answerRequests e around (r :: rs)).run st =
      let (rest, st'') := (answerRequests e (fun k => around (k + 1)) rs).run st'
      ({ rest with envelopes := envelope :: rest.envelopes }, st'') := by
  rw [answerRequests, StateT.run_bind, h]
  rfl

theorem run_answerRequests_of_none {r : String}
    (h : (e.handleText (around 0) r).run st = (none, st')) (rs : List String) :
    (answerRequests e around (r :: rs)).run st = (⟨[], false⟩, st') := by
  rw [answerRequests, StateT.run_bind, h]
  rfl

/-- The answers to requests that come one after the other: each request is answered in the state that
the ones before it left, up to the end or to the first one that is left without an answer. -/
structure InTurn (e : Engine) (around : Nat → Surroundings Id) (st : CacheState) (rs : List String)
    (result : Answers × CacheState) : Prop where
  bounded : result.1.envelopes.length ≤ rs.length
  places : ∀ k ≤ result.1.envelopes.length, result.1.envelopes[k]? = rs[k]?.bind fun r =>
    ((e.handleText (around k) r).run (stateAfter e around st (rs.take k))).1
  complete : result.1.complete = true ↔ result.1.envelopes.length = rs.length
  state : result.2 = stateAfter e around st (rs.take (result.1.envelopes.length + 1))

theorem answerRequests_inTurn (rs : List String) :
    InTurn e around st rs ((answerRequests e around rs).run st) := by
  -- Behind the first request the others are answered later, in the state that it left.
  induction rs generalizing around st with
  | nil => exact ⟨le_rfl, fun _ _ => rfl, iff_of_true rfl rfl, rfl⟩
  | cons r rs ih =>
    rcases h : (e.handleText (around 0) r).run st with ⟨_ | envelope, st'⟩
    · rw [run_answerRequests_of_none h]
      refine ⟨Nat.zero_le _, fun k hk => ?_, iff_of_false Bool.false_ne_true nofun, ?_⟩
      · obtain rfl := Nat.le_zero.mp hk
        exact (congrArg Prod.fst h).symm
      · exact (congrArg Prod.snd h).symm
    · have hst' : ((e.handleText (around 0) r).run st).2 = st' := congrArg Prod.snd h
      rw [run_answerRequests_of_some around h]
      have hrest : InTurn e (fun k => around (k + 1)) st' rs _ := ih
      obtain ⟨hbounded, hplaces, hcomplete, hstate⟩ := hrest
      refine ⟨Nat.succ_le_succ hbounded, fun k hk => ?_, hcomplete.trans Nat.succ_inj.symm, ?_⟩
      · cases k with
        | zero => exact (congrArg Prod.fst h).symm
        | succ k =>
          rw [List.take_succ_cons, stateAfter, hst']
          exact hplaces k (Nat.le_of_succ_le_succ hk)
      · rw [List.take_succ_cons, stateAfter, hst']
        exact hstate

/-- A request without an answer ends the batch, and it has none only if a write crashes. -/
theorem InTurn.mayCrash {rs : List String} {result : Answers × CacheState}
    (h : InTurn e around st rs result) (hshort : result.1.envelopes.length < rs.length) :
    e.MayCrash (around result.1.envelopes.length) := by
  have hplace := h.places _ le_rfl
  rw [List.getElem?_eq_none le_rfl, List.getElem?_eq_getElem hshort] at hplace
  exact e.mayCrash_of_handleText _ hplace.symm

/-- Requests are answered like some of them and then, if these were all answered, the rest. -/
theorem run_answerRequests_append (rs rs' : List String) :
    let result := (answerRequests e around rs).run st
    let result' := (answerRequests e (fun k => around (rs.length + k)) rs').run result.2
    (answerRequests e around (rs ++ rs')).run st =
      if result.1.complete then
        (⟨result.1.envelopes ++ result'.1.envelopes, result'.1.complete⟩, result'.2)
      else result := by
  intro result result'
  induction rs generalizing around st with
  | nil =>
    have hlength : (fun k => around (([] : List String).length + k)) = around :=
      funext fun k => congrArg around (Nat.zero_add k)
    simp only [result', result, hlength]
    rfl
  | cons r rs ih =>
    have hlength : (fun k => around ((r :: rs).length + k)) = fun k => around (rs.length + k + 1) :=
      funext fun k => congrArg around (Nat.succ_add rs.length k)
    simp only [result', result, hlength, List.cons_append]
    -- The first request is answered, and the others are counted on from it, or it ends both runs.
    rcases h : (e.handleText (around 0) r).run st with ⟨_ | envelope, st'⟩
    · rw [run_answerRequests_of_none h, run_answerRequests_of_none h]
      rfl
    · rw [run_answerRequests_of_some around h, run_answerRequests_of_some around h, ih]
      rcases (answerRequests e (fun k => around (k + 1)) rs).run st' with ⟨⟨envelopes, _ | _⟩, st''⟩ <;>
        rfl

/-- What stands behind a line feed is answered later, in the state left by what stands before it. -/
theorem answer_append (e : Engine) (around : Nat → Surroundings Id) (st : CacheState)
    (input behind : String) :
    let result := (answer e around input).run st
    let result' := (answer e (fun k => around ((requests input).length + k)) behind).run result.2
    (answer e around (input ++ "\n" ++ behind)).run st =
      if result.1.complete then
        (⟨result.1.envelopes ++ result'.1.envelopes, result'.1.complete⟩, result'.2)
      else result := by
  intro result result'
  rw [answer, requests_append]
  exact run_answerRequests_append _ _

end

/-! ## §3 Printed lines -/

theorem toList_print (envelope : Envelope) : (print false envelope).toList = envelope.toJson.chars :=
  String.toList_ofList

theorem noControls_print (envelope : Envelope) : Json.NoControls (print false envelope).toList := by
  rw [toList_print]
  exact Json.noControls_chars _

/-- Whether a printed line reports an error. -/
def reportsError (text : String) : Bool :=
  "\x7b\"error\":".toList.isPrefixOf text.toList

theorem reportsError_print (envelope : Envelope) :
    reportsError (print false envelope) = !envelope.isSuccess := by
  rw [reportsError, toList_print]
  -- The first member of an envelope is `data` or `error`, and nothing stands before it.
  cases envelope with
  | ok answer => rfl
  | error err => rfl

/-- The lines of the output are the printed texts. -/
theorem lines_output (envelopes : List Envelope) :
    Text.lines (String.join (envelopes.map fun envelope =>
        CommandLine.line (print false envelope))).toList =
      envelopes.map fun envelope => (print false envelope).toList := by
  have hcontrols : ∀ text ∈ envelopes.map fun envelope => (print false envelope).toList,
      Json.NoControls text :=
    List.forall_mem_map.mpr fun envelope _ => noControls_print envelope
  have hchars : (String.join (envelopes.map fun envelope =>
      CommandLine.line (print false envelope))).toList =
      (envelopes.map fun envelope => (print false envelope).toList).flatMap (· ++ ['\n']) := by
    simp [String.toList_join, List.flatMap_map, CommandLine.line]
  rw [hchars, Text.lines_flatMap_feed (fun text h => (hcontrols text h).not_mem_newline)
    (fun text h => (hcontrols text h).not_mem_return)]

theorem summary_print (envelopes : List Envelope) :
    summary envelopes =
      ⟨envelopes.length, (envelopes.map (print false)).countP reportsError⟩ := by
  have hfailed : reportsError ∘ print false = fun envelope => !envelope.isSuccess :=
    funext reportsError_print
  rw [summary, List.countP_map, hfailed, List.countP_eq_length_filter]

theorem summary_append (envelopes envelopes' : List Envelope) :
    summary (envelopes ++ envelopes') =
      ⟨(summary envelopes).requests + (summary envelopes').requests,
        (summary envelopes).failed + (summary envelopes').failed⟩ := by
  simp [summary]

/-! ## §4 Batches -/

open Engine (tradesEngine trades)

/-- A line that asks for the desks on a day. -/
def deskLine (day : String) : String :=
  "\x7b\"kind\":\"distinct\",\"table\":\"trades\",\"field\":\"desk\",\"asOfDate\":\"" ++ day ++ "\"\x7d"

def deskLines : String :=
  "# desks\n" ++ deskLine "1970-01-03" ++ "\n\n" ++ deskLine "1970-01-03" ++ "\r\n" ++
    deskLine "1970-01-04" ++ "\nprices"

def thirdDay : Date := ⟨1970, 1, 3, by decide⟩

def fourthDay : Date := ⟨1970, 1, 4, by decide⟩

/-- The latest day with trades. -/
def latestDay : QueryResult :=
  .ofRows [⟨"snapshot", .string, true⟩] [[.text "19700102"]] 1

def onlyDesk : QueryResult :=
  .ofRows [⟨"value", .string, false⟩] [[.text "FX\n"]] 1

/-- The third query of a batch and those behind it are refused. -/
def deskBackend : Backend Id :=
  ⟨"desks", fun sent _ => match sent with
    | [] => .ok latestDay
    | [_] => .ok onlyDesk
    | _ => .error (.execution "out of\nmemory"), .ok ()⟩

def deskAround (k : Nat) : Surroundings Id where
  backend := deskBackend
  timing _ := ⟨.calm (nanoseconds k), .calm (nanoseconds k + 5000000)⟩
  pacing := .together
  today := .epoch
  began := nanoseconds k
  ended := nanoseconds k + 7000000
  complaint _ := "expected value at line 1 column 1"

def desksOn (d : Date) : DistinctRequest :=
  ⟨"trades", "desk", [], DistinctRequest.defaultLimit, some d⟩

def desksPlan (d : Date) : DistinctPlan :=
  ⟨trades, desksOn d, 1000, []⟩

def desksAnswer (d : Date) : Answer :=
  ⟨.distinct (.ofResult (desksPlan d) onlyDesk),
    ⟨"trades", d, some (Resolution.snapshot d latestDay), none, tradesEngine.lifetimes.distinct, 0⟩⟩

theorem working_deskAround {k : Nat} (h : k ≤ 3) :
    (deskAround k).Working tradesEngine 0 (nanoseconds 4) := by
  refine Surroundings.working_of_calm
    (fun _ => ⟨nanoseconds k, nanoseconds k + 5000000, rfl, ?_, ?_⟩) (by decide) fun sent q r hr => ?_
  · simp only [nanoseconds]
    omega
  · simp only [nanoseconds]
    omega
  · have hone : 1 < UInt64.size := by decide
    have hcell (text : String) : ∀ row ∈ [[Json.text text]], ∀ cell ∈ row, cell.IsCell :=
      List.forall_mem_singleton.mpr (List.forall_mem_singleton.mpr (.text text))
    -- Only the first two queries are answered.
    match sent, hr with
    | [], rfl => exact ⟨hcell _, hone, hone⟩
    | [_], rfl => exact ⟨hcell _, hone, hone⟩

theorem answer_desksOn (s : Surroundings Id) (d : Date) :
    tradesEngine.answer s (.distinct (desksOn d)) = (do
      let found ← tradesEngine.fetch s .snapshot (tradesEngine.resolutionOf trades .backward d)
      let snapshot := Resolution.snapshot d found
      let desks ← tradesEngine.fetch s .figures
        (Engine.fetchOf ((desksPlan d).select snapshot) none tradesEngine.lifetimes.distinct)
      return ⟨.distinct (.ofResult (desksPlan d) desks), ⟨"trades", d, some snapshot, none,
        tradesEngine.lifetimes.distinct, 0⟩⟩) := by
  have hplan : DistinctPlan.prepare tradesEngine.tables (desksOn d) = .ok (desksPlan d) := by
    simp only [DistinctPlan.prepare, desksOn]
    rfl
  rw [Engine.answer, Engine.distinct, hplan, Engine.check_ok, pure_bind]
  simp only [Engine.resolve, Engine.distinctAt, bind_assoc, pure_bind]
  rfl

/-- For the first line nothing is known: both queries are sent, and what belongs to another day is
unknown behind them. -/
theorem answer_desksOn_thirdDay :
    ∃ st, (tradesEngine.answer (deskAround 0) (.distinct (desksOn thirdDay))).run.run .initial =
        (.ok (desksAnswer thirdDay), st) ∧
      st.sent.length = 2 ∧
      st.Lacks (tradesEngine.cache.keyFor (tradesEngine.resolutionOf trades .backward fourthDay)) := by
  have hs : (deskAround 0).Working tradesEngine 0 (nanoseconds 4) := working_deskAround (Nat.zero_le 3)
  have hempty (key : String) : CacheState.initial.Lacks key := nofun
  -- The day is looked up and then the desks, each under a key that holds nothing yet.
  obtain ⟨st₁, hlookup, hsent₁, hlacks₁⟩ := Engine.fetch_of_lacks .snapshot rfl hs
    (Lifetimes.snapshot_mem_all _) (hempty _) (r := latestDay) rfl
    (f := tradesEngine.resolutionOf trades .backward thirdDay)
  have hanswer (q : Query) : (deskAround 0).backend.answer st₁.sent q = .ok onlyDesk := by
    rw [hsent₁]
    rfl
  obtain ⟨st₂, hdesks, hsent₂, hlacks₂⟩ := Engine.fetch_of_lacks .figures rfl hs
    (Lifetimes.distinct_mem_all _)
    (hlacks₁ _ (hempty _) (Engine.keyFor_derived_ne tradesEngine _ _ _ _ _)) (hanswer _)
    (f := Engine.fetchOf ((desksPlan thirdDay).select (Resolution.snapshot thirdDay latestDay)) none
      tradesEngine.lifetimes.distinct)
  refine ⟨st₂, ?_, ?_, hlacks₂ _ (hlacks₁ _ (hempty _) fun h => ?_)
    (Engine.keyFor_derived_ne tradesEngine _ _ _ _ _).symm⟩
  · rw [answer_desksOn, CacheM.run_bind, hlookup]
    dsimp only
    rw [CacheM.run_bind, hdesks]
    rfl
  · rw [hsent₂, hsent₁]
    rfl
  · -- The two look-ups have one key only if they are for one day.
    have hday : fourthDay = thirdDay :=
      Engine.date_eq_of_keyFor_eq ["snapshot", "trades", "backward"] rfl rfl h
    cases hday

theorem answer_desksOn_fourthDay {st : CacheState} (hsent : st.sent.length = 2)
    (hlacks : st.Lacks
      (tradesEngine.cache.keyFor (tradesEngine.resolutionOf trades .backward fourthDay))) :
    ∃ st', (tradesEngine.answer (deskAround 2) (.distinct (desksOn fourthDay))).run.run st =
        (.error (.error (.query (.execution "out of\nmemory"))), st') ∧
      st'.sent.length = 3 := by
  have hanswer (q : Query) :
      (deskAround 2).backend.answer st.sent q = .error (.execution "out of\nmemory") := by
    obtain ⟨q₁, q₂, hpair⟩ := List.length_eq_two.mp hsent
    rw [hpair]
    rfl
  obtain ⟨st', hrun, hsent'⟩ := Engine.fetch_of_lacks_refused .snapshot hlacks (hanswer _)
  refine ⟨st', ?_, ?_⟩
  · rw [answer_desksOn, CacheM.run_bind, hrun]
  · rw [hsent', List.length_append, hsent]
    rfl

theorem lines_deskLines : (Text.lines deskLines.toList).filter asks =
    [(deskLine "1970-01-03").toList, (deskLine "1970-01-03").toList, (deskLine "1970-01-04").toList,
      "prices".toList] := by
  rw [deskLines]
  iterate 6 rw [String.toList_append]
  decide +kernel

/-- The four lines one after the other. The second is answered by what the first left behind, and nothing
is sent for it. -/
theorem handleText_deskLines :
    ∃ st₁ st₂ st₃,
      (tradesEngine.handleText (deskAround 0) (requestOf (deskLine "1970-01-03").toList)).run .initial =
        (some (.ok ((desksAnswer thirdDay).timed 7000000)), st₁) ∧
      (tradesEngine.handleText (deskAround 1) (requestOf (deskLine "1970-01-03").toList)).run st₁ =
        (some (.ok ((desksAnswer thirdDay).timed 7000000)), st₂) ∧
      (tradesEngine.handleText (deskAround 2) (requestOf (deskLine "1970-01-04").toList)).run st₂ =
        (some (.error (.query (.execution "out of\nmemory"))), st₃) ∧
      (tradesEngine.handleText (deskAround 3) (requestOf "prices".toList)).run st₃ =
        (some (.error (.unreadableRequest "expected value at line 1 column 1")), st₃) ∧
      st₂.sent = st₁.sent ∧ st₃.sent.length = 3 := by
  have hread : Request.read? (requestOf (deskLine "1970-01-03").toList) =
      some (.distinct (desksOn thirdDay)) := by
    decide +kernel
  have hread' : Request.read? (requestOf (deskLine "1970-01-04").toList) =
      some (.distinct (desksOn fourthDay)) := by
    decide +kernel
  have hunreadable : Request.read? (requestOf "prices".toList) = none := by
    decide +kernel
  obtain ⟨st₁, hfirst, hsent₁, hlacks₁⟩ := answer_desksOn_thirdDay
  -- What the first line leaves behind answers the second one, whatever the backend would say.
  obtain ⟨hlearns, hrepeats⟩ := Engine.answer_repeats (e := tradesEngine) rfl
    (working_deskAround (k := 0) (by decide)) (working_deskAround (k := 1) (by decide)).reads
    (r := .distinct (desksOn thirdDay)) rfl .initial (.initial 0 (nanoseconds 4)) rfl
  rw [hfirst] at hlearns hrepeats
  obtain ⟨a, ha, hreplays⟩ := hrepeats _ rfl
  obtain rfl : a = desksAnswer thirdDay := ha (Or.inl rfl)
  obtain ⟨st₂, hsecond, hhits⟩ := hreplays st₁ hlearns.steady (.refl _ st₁)
  -- The third line is about another day, of which nothing is stored.
  obtain ⟨st₃, hthird, hsent₃⟩ := answer_desksOn_fourthDay (hhits.sent ▸ hsent₁)
    fun entry hentry => hlacks₁ entry (hhits.entries entry hentry)
  refine ⟨st₁, st₂, st₃, ?_, ?_, ?_, ?_, hhits.sent, hsent₃⟩
  · rw [Engine.handleText_of_read hread, hfirst]
    rfl
  · rw [Engine.handleText_of_read hread, hsecond]
    rfl
  · rw [Engine.handleText_of_read hread', hthird]
    rfl
  · exact Engine.handleText_of_unreadable hunreadable ..

/-- The envelopes of the four lines. -/
def deskEnvelopes : List Envelope :=
  [.ok ((desksAnswer thirdDay).timed 7000000), .ok ((desksAnswer thirdDay).timed 7000000),
    .error (.query (.execution "out of\nmemory")),
    .error (.unreadableRequest "expected value at line 1 column 1")]

/-- What is printed for them. -/
def deskTexts : List String :=
  let found := "\x7b\"data\":\x7b\"field\":\"desk\",\"values\":[\"FX\\n\"]\x7d,\"meta\":" ++
    "\x7b\"table\":\"trades\",\"asOfDate\":\"1970-01-03\",\"currentSnapshot\":\"1970-01-02\"," ++
    "\"ttlSecs\":3600,\"elapsedMs\":7\x7d\x7d"
  [found, found,
    "\x7b\"error\":\x7b\"code\":\"BACKEND_ERROR\",\"message\":" ++
      "\"backend error: query execution failed: out of\\nmemory\"\x7d\x7d",
    "\x7b\"error\":\x7b\"code\":\"INVALID_REQUEST\",\"message\":" ++
      "\"invalid request: expected value at line 1 column 1\"\x7d\x7d"]

theorem print_deskEnvelopes : deskEnvelopes.map (print false) = deskTexts := by
  decide +kernel

theorem run_deskLines :
    ∃ st, (answer tradesEngine deskAround deskLines).run .initial = (⟨deskEnvelopes, true⟩, st) ∧
      st.sent.length = 3 := by
  obtain ⟨st₁, st₂, st₃, hfirst, hsecond, hthird, hfourth, -, hsent⟩ := handleText_deskLines
  refine ⟨st₃, ?_, hsent⟩
  rw [answer, requests_eq, lines_deskLines, List.map_cons, List.map_cons, List.map_cons, List.map_cons,
    List.map_nil]
  rw [run_answerRequests_of_some deskAround hfirst,
    run_answerRequests_of_some (fun k => deskAround (k + 1)) hsecond,
    run_answerRequests_of_some (fun k => deskAround (k + 1 + 1)) hthird,
    run_answerRequests_of_some (fun k => deskAround (k + 1 + 1 + 1)) hfourth]
  rfl

end SnapshotAnalytics.Batch
