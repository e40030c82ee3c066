import Aimw.Interceptor.Recording
import Aimw.Policy.Denial

/-!
# What a redacted record tells of the parameters

Two calls that differ in the values of their parameters only, and that one rule denies, leave records that differ in
digests, ids, times and hashes; but the reason of a deny-pattern quotes the parameter, and the record keeps the reason
(`redacted_agree_iff`).
-/

namespace Aimw.Audit

open Lib

/-- What the record tells apart from its id, its time, its hashes and the values of the parameters. -/
def AuditRecord.visible (r : AuditRecord) : AuditRecord :=
  { r with
    recordId := "", timestamp := "", prevHash := "", recordHash := ""
    request := { r.request with parameters := r.request.parameters.map fun p => (p.1, "") } }

/-- The parameters with the digests of their values. -/
def digests (P : Platform) (py : PyStr) (request : ToolRequest) : List (String × String) :=
  request.parameters.items.map fun p => (p.1, P.sha256.hexdigest (py.str p.2).toUTF8)

section Redaction

variable {P : Platform} {py : PyStr} {logger logger' : HashChainedJSONLLogger} {file file' : Option String}
  {context : ExecutionContext} {request : ToolRequest} {decision : PolicyDecision}
  {sandboxResult : Option (List (String × PyVal))} {recordId timestamp : String} {record : AuditRecord}

/-- With redaction on, every value is replaced by its digest. -/
lemma redactRequest_eq (hredact : logger.redactParameters = true) {r : RedactedRequest}
    (h : HashChainedJSONLLogger.redactRequest P py logger request = .ok r) :
    r = ⟨request.toolName, request.functionName, request.callId, digests P py request⟩ := by
  obtain ⟨-, rfl⟩ := redactRequest_eq_ok_iff.1 h
  simp only [redactedRequest, redactedValues, hredact, if_true, digests]

/-- `append` forwards the record that it returns. -/
lemma append_forwards {built : AuditRecord} (h : logger.append P file built = .ok (file', logger', record)) :
    logger'.redactParameters = logger.redactParameters ∧ logger'.sinks = forwardBestEffort logger.sinks record := by
  obtain ⟨d, line, -, -, -, -, rfl⟩ := append_ok h
  exact ⟨rfl, rfl⟩

/-- What `log_call` writes with redaction on. -/
theorem logCall_redacted (hredact : logger.redactParameters = true)
    (h : logger.logCall P py file context request decision sandboxResult recordId timestamp
      = .ok (file', logger', record)) :
    record = {
        recordId
        timestamp
        callId := request.callId
        context := ⟨context.userId, context.agentId, context.sessionId, context.roles⟩
        request := ⟨request.toolName, request.functionName, request.callId, digests P py request⟩
        decision := decision.modelDump
        sandboxResult
        prevHash := record.prevHash
        recordHash := record.recordHash } ∧
      logger'.sinks = forwardBestEffort logger.sinks record := by
  obtain ⟨r, hr, happ⟩ := logCall_ok h
  obtain rfl := redactRequest_eq hredact hr
  exact ⟨append_record happ, (append_forwards happ).2⟩

end Redaction

end Aimw.Audit

namespace Aimw.Interceptor

open Lib Audit Coro ToolCallInterceptor Policy

/-- Other tasks do not turn the redaction of the logger on or off. -/
def KeepsRedaction (s s' : LogState) : Prop := s'.logger.redactParameters = s.logger.redactParameters

variable {rt : Runtime} {prt : Policy.Runtime} {P : Platform} {py : PyStr} {ic : ToolCallInterceptor}
  {context : ExecutionContext} {request : ToolRequest} {w w' : LogState} {tr : Trace} {record : AuditRecord}

/-- Nothing before `log_call` changes the redaction. -/
lemma redacts_of_trail (h : Trail (Environment P py KeepsRedaction) w tr w') (hsilent : logAnswers tr = []) :
    w'.logger.redactParameters = w.logger.redactParameters := by
  induction h with
  | nil => rfl
  | @cons w w₁ w' q a tr hE _ ih =>
    obtain ⟨hq, hrest⟩ : logAnswers [⟨q, a⟩] = [] ∧ logAnswers tr = [] :=
      List.append_eq_nil_iff.1 ((logAnswers_append _ _).symm.trans hsilent)
    rw [ih hrest]
    cases hE with
    | monotonic => rfl
    | awaited _ _ hkeeps => exact hkeeps
    | logged _ => cases hq
    | notLogged => cases hq

variable (rt prt P py ic context) in
/-- A call of `handle` with a logger that redacts, in which the engine returns its decision and a record is written. -/
structure Records (engine : PolicyEngine) (request : ToolRequest) (w : LogState) (tr : Trace) (w' : LogState)
    (record : AuditRecord) : Prop where
  redacts : w.logger.redactParameters = true
  runs : ∃ r, Runs (Environment P py KeepsRedaction) w (ic.handle rt context request) tr r w'
  decides : ∃ d, engine.evaluate prt context request = .ok d ∧ (context, request, .returned d) ∈ engineAnswers tr
  written : record ∈ auditRecords tr

/-- What a denied call leaves: digests of the parameters, and a record that was forwarded as it is. -/
structure Redacted (P : Platform) (py : PyStr) (request : ToolRequest) (w' : LogState) (record : AuditRecord) : Prop where
  digests : record.request.parameters = digests P py request
  forwarded : ∃ sinks, w'.logger.sinks = forwardBestEffort sinks record

/-- What the engine denies is the decision of the body. -/
lemma BodyPath.denied_eq {t : Trace} {v : Locals} {out : Except Exc Unit} {d : PolicyDecision}
    (h : BodyPath ic context request t v out) (hmem : (context, request, .returned d) ∈ engineAnswers t)
    (hd : d.allowed = false) : v = { decision := d } := by
  cases h with
  | @undecided a e ha =>
    obtain ⟨rfl⟩ : a = .returned d := by simpa [engineAnswers, eq_comm] using hmem
    cases ha
  | @denied a d₀ ha _ =>
    obtain ⟨rfl⟩ : a = .returned d := by simpa [engineAnswers, eq_comm] using hmem
    rw [Except.ok.inj ha]
  | unresolved hallowed hresolution =>
    simp only [evaluated_calls, hresolution.calls, List.mem_singleton, Prod.mk.injEq, Awaited.returned.injEq, true_and] at hmem
    exact absurd (hd.symm.trans (hmem ▸ hallowed)) (by simp)
  | refused hallowed hresolution _ =>
    simp only [evaluated_calls, hresolution.calls, List.mem_singleton, Prod.mk.injEq, Awaited.returned.injEq, true_and] at hmem
    exact absurd (hd.symm.trans (hmem ▸ hallowed)) (by simp)
  | interrupted hallowed hresolution _ hexecution =>
    simp only [evaluated_calls, engineAnswers_append, hresolution.calls, hexecution.calls, List.append_nil, List.mem_singleton,
      Prod.mk.injEq, Awaited.returned.injEq, true_and] at hmem
    exact absurd (hd.symm.trans (hmem ▸ hallowed)) (by simp)
  | executed hallowed hresolution _ hexecution houtcome =>
    simp only [evaluated_calls, engineAnswers_append, hresolution.calls, hexecution.calls, houtcome.calls, List.append_nil,
      List.mem_singleton, Prod.mk.injEq, Awaited.returned.injEq, true_and] at hmem
    exact absurd (hd.symm.trans (hmem ▸ hallowed)) (by simp)

variable (context request) in
/-- What is visible in the record of a call that is denied. -/
def deniedRecord (d : PolicyDecision) : AuditRecord where
  recordId := ""
  timestamp := ""
  callId := request.callId
  context := ⟨context.userId, context.agentId, context.sessionId, context.roles⟩
  request := ⟨request.toolName, request.functionName, request.callId, request.parameters.keys.map fun k => (k, "")⟩
  decision := d.modelDump
  prevHash := ""

/-- **The record of a denied call.** -/
theorem Records.of_denied {engine : PolicyEngine} (h : Records rt prt P py ic context engine request w tr w' record)
    {d : PolicyDecision} (heval : engine.evaluate prt context request = .ok d) (hd : d.allowed = false) :
    Redacted P py request w' record ∧ record.visible = deniedRecord context request d := by
  obtain ⟨r, hruns⟩ := h.runs
  obtain ⟨d', heval', hanswer⟩ := h.decides
  obtain rfl := Except.ok.inj (heval.symm.trans heval')
  have htrail := hruns.trail
  have hwritten := h.written
  cases handle_path hruns with
  | gateRaised hgate =>
    rw [hgate.calls.1] at hanswer
    cases hanswer
  | circuitOpen hgate _ =>
    rw [engineAnswers_append, hgate.calls.1, (logged_calls ..).2.1] at hanswer
    cases hanswer
  | @decided g t v out a hgate hbody =>
    rw [engineAnswers_append, engineAnswers_append, hgate.calls.1, (logged_calls ..).2.1, List.nil_append,
      List.append_nil] at hanswer
    obtain rfl := hbody.denied_eq hanswer hd
    have hsilent : logAnswers (g ++ t) = [] := by rw [logAnswers_append, hgate.calls.2.2.2.2, hbody.silent.2, List.append_nil]
    obtain ⟨w₁, hbefore, hlast⟩ := trail_append_iff.1 htrail
    have hredacts : w₁.logger.redactParameters = true := (redacts_of_trail hbefore hsilent).trans h.redacts
    rw [auditRecords, logAnswers_append, hsilent, List.nil_append] at hwritten
    cases trail_singleton_iff.1 hlast with
    | awaited _ hawait _ => cases hawait
    | notLogged => cases hwritten
    | logged hcall =>
      obtain rfl := List.mem_singleton.1 hwritten
      obtain ⟨hrecord, hsinks⟩ := logCall_redacted hredacts hcall
      refine ⟨⟨by rw [hrecord], _, hsinks⟩, ?_⟩
      rw [hrecord]
      simp [AuditRecord.visible, deniedRecord, digests, Dict.keys]

/-- A record of a denial tells which names the parameters have, and how the engine decided. -/
lemma deniedRecord_eq_iff {parameters parameters' : Dict PyVal} (hnames : parameters.keys = parameters'.keys)
    {d d' : PolicyDecision} : deniedRecord context (withParameters request parameters) d =
      deniedRecord context (withParameters request parameters') d' ↔ d.modelDump = d'.modelDump := by
  unfold deniedRecord withParameters
  rw [hnames]
  constructor
  · intro h
    exact congrArg AuditRecord.decision h
  · intro h
    rw [h]

lemma deny_eq_of_modelDump {a b : String} (h : (deny a).modelDump = (deny b).modelDump) : deny a = deny b := by
  have hreason : a = b := by simpa [PolicyDecision.modelDump, deny] using h
  rw [hreason]

/-- **Records agree unless a deny-pattern quotes what differs.**  Of two calls that differ in the values of their
parameters and are denied by one rule, the records agree in all but the digests, ids, times and hashes exactly if the
rule is no deny-pattern, or the texts that it matched have the same excerpt. -/
theorem redacted_agree_iff (hrepr : Function.Injective prt.repr) (engine : PolicyEngine)
    {parameters parameters' : Dict PyVal} (hnames : parameters.keys = parameters'.keys) {rule : Rule}
    (hrule : engine.deniedBy prt context (withParameters request parameters) = some rule)
    (hrule' : engine.deniedBy prt context (withParameters request parameters') = some rule)
    {w₁ w₂ w₁' w₂' : LogState} {tr₁ tr₂ : Trace} {record₁ record₂ : AuditRecord}
    (h₁ : Records rt prt P py ic context engine (withParameters request parameters) w₁ tr₁ w₁' record₁)
    (h₂ : Records rt prt P py ic context engine (withParameters request parameters') w₂ tr₂ w₂' record₂) :
    Redacted P py (withParameters request parameters) w₁' record₁ ∧
      Redacted P py (withParameters request parameters') w₂' record₂ ∧
      (record₁.visible = record₂.visible ↔ ∀ param pattern text text', rule = .denyPattern param pattern →
        argument prt (withParameters request parameters) param = some text →
        argument prt (withParameters request parameters') param = some text' → SameStart text text') := by
  obtain ⟨d, hd, hdenied⟩ := (denies_iff_deniedBy prt context _ engine).2 ⟨rule, hrule⟩
  obtain ⟨d', hd', hdenied'⟩ := (denies_iff_deniedBy prt context _ engine).2 ⟨rule, hrule'⟩
  obtain ⟨hredacted, hvisible⟩ := h₁.of_denied hd hdenied
  obtain ⟨hredacted', hvisible'⟩ := h₂.of_denied hd' hdenied'
  refine ⟨hredacted, hredacted', ?_⟩
  rw [hvisible, hvisible', deniedRecord_eq_iff hnames]
  rcases same_denial prt context request engine hrule hrule' with
    ⟨hnot, heq⟩ | ⟨param, pattern, text, text', rfl, harg, harg', heval, heval'⟩
  · obtain rfl := Except.ok.inj (hd.symm.trans (heq.trans hd'))
    exact iff_of_true rfl fun param pattern _ _ hpattern => absurd hpattern (hnot param pattern)
  · obtain rfl := Except.ok.inj (hd.symm.trans heval)
    obtain rfl := Except.ok.inj (hd'.symm.trans heval')
    constructor
    · intro h param' pattern' s t hpattern hs ht
      obtain ⟨rfl, rfl⟩ := Rule.denyPattern.inj hpattern
      obtain rfl := Option.some.inj (harg.symm.trans hs)
      obtain rfl := Option.some.inj (harg'.symm.trans ht)
      exact (denyPattern_eq_iff hrepr _ _ _ _).1 (deny_eq_of_modelDump h)
    · intro h
      rw [(denyPattern_eq_iff hrepr param pattern text text').2 (h _ _ _ _ rfl harg harg')]

/-! ### A query that drops a table -/

/-- An engine that turns down every query with the word `DROP`. -/
def guardedSql : PolicyEngine :=
  .static {
    ruleset := {
      allowedTools := ["sql_tool"]
      tools := ⟨[("sql_tool", {
          toolName := "sql_tool"
          allowedFunctions := ["ExecuteReadOnlyQuery"]
          parameterDenyPatterns := ⟨[("query", ["DROP"])], by simp⟩ })], by simp⟩ } }

def sqlRequest : ToolRequest where
  toolName := "sql_tool"
  functionName := "ExecuteReadOnlyQuery"
  parameters := Dict.empty
  callId := "c1"

def queryWith (query password : String) : Dict PyVal where
  items := [("query", .str query), ("password", .str password)]
  nodup := by simp

/-- The call is denied; `a` is the answer of `log_call`. -/
def deniedTrace (request : ToolRequest) (d : PolicyDecision) (a : Except Exc AuditRecord) : Trace :=
  [evaluated (sampleInterceptor false) executor request (.returned d), logged executor request d none a]

lemma denied_records {query password : String} {reason : String}
    (hdecision : guardedSql.evaluate plainRuntime executor (withParameters sqlRequest (queryWith query password)) =
      .ok (deny reason)) : ∃ tr w record,
    Records sampleRuntime plainRuntime (codecPlatform sampleSha256) samplePy (sampleInterceptor false) executor guardedSql
      (withParameters sqlRequest (queryWith query password)) sampleLog tr w record := by
  set request := withParameters sqlRequest (queryWith query password)
  obtain ⟨file, logger, record, hlog⟩ := logCall_succeeds (codecPlatform_roundTrips sampleSha256) samplePy
    sampleLog.logger (Or.inl rfl : FileTerminated none) executor request (fun p _ => samplePy_encodable p.2)
    (modelDump_isNative (d := deny reason) rfl) (rfl : (PyVal.ofItems? none).isNative = true) "r1"
    "2024-01-01T00:00:00+00:00"
  have hkept : KeepsRedaction sampleLog sampleLog := rfl
  have hruns : ∃ r, Runs (Environment (codecPlatform sampleSha256) samplePy KeepsRedaction) sampleLog
      ((sampleInterceptor false).handle sampleRuntime executor request)
      (deniedTrace request (deny reason) (.ok record)) r ⟨file, logger⟩ :=
    ⟨_, .call (.awaited _ rfl hkept) <| .call (.logged hlog) <| .ret _ _⟩
  exact ⟨_, _, record, rfl, hruns, ⟨_, hdecision, List.mem_singleton_self _⟩, List.mem_singleton_self _⟩

/-- Both queries are turned down by the deny-pattern. -/
lemma guardedSql_denies (query password : String) (hquery : plainRuntime.search "DROP" query = true) :
    guardedSql.deniedBy plainRuntime executor (withParameters sqlRequest (queryWith query password)) =
        some (.denyPattern "query" "DROP") ∧
      guardedSql.evaluate plainRuntime executor (withParameters sqlRequest (queryWith query password)) =
        .ok (denyPattern plainRuntime "query" "DROP" query) := by
  set request := withParameters sqlRequest (queryWith query password)
  have harg : argument plainRuntime request "query" = some query := rfl
  have hfind : ["DROP"].find? (fun pattern => plainRuntime.search pattern query) = some "DROP" :=
    List.find?_cons_of_pos hquery
  have hmatched : matchedPattern plainRuntime request ⟨[("query", ["DROP"])], by simp⟩ = some ("query", "DROP", query) := by
    simp only [matchedPattern, List.findSome?_cons, harg, Option.bind_some, hfind, Option.map_some]
  have hdenied : guardedSql.deniedBy plainRuntime executor request =
    (parameterRule plainRuntime executor request ⟨[("query", ["DROP"])], by simp⟩ Dict.empty <|> none) := rfl
  have heval : guardedSql.evaluate plainRuntime executor request =
      checkParameters plainRuntime executor request ⟨[("query", ["DROP"])], by simp⟩ Dict.empty (.ok (approve false)) := by
    rw [checkParameters_ok]
    rfl
  unfold parameterRule at hdenied
  unfold checkParameters at heval
  rw [hmatched] at hdenied heval
  exact ⟨hdenied, heval⟩

lemma plainRuntime_repr : Function.Injective plainRuntime.repr := by
  intro s t h
  have hquoted : "'" ++ s ++ "'" = "'" ++ t ++ "'" := h
  simpa using hquoted

lemma sqlRecords (query password : String) (hquery : plainRuntime.search "DROP" query = true) : ∃ tr w record,
    Records sampleRuntime plainRuntime (codecPlatform sampleSha256) samplePy (sampleInterceptor false) executor guardedSql
      (withParameters sqlRequest (queryWith query password)) sampleLog tr w record :=
  denied_records (guardedSql_denies query password hquery).2

/-- The record does not tell the password. -/
theorem redacted_agree_iff_password : ∃ tr w record tr' w' record',
    Records sampleRuntime plainRuntime (codecPlatform sampleSha256) samplePy (sampleInterceptor false) executor guardedSql
        (withParameters sqlRequest (queryWith "DROP TABLE users" "swordfish")) sampleLog tr w record ∧
      Records sampleRuntime plainRuntime (codecPlatform sampleSha256) samplePy (sampleInterceptor false) executor
        guardedSql (withParameters sqlRequest (queryWith "DROP TABLE users" "trustno1")) sampleLog tr' w' record' ∧
      record.visible = record'.visible := by
  have hquery : plainRuntime.search "DROP" "DROP TABLE users" = true := by decide
  obtain ⟨tr, w, record, h⟩ := sqlRecords "DROP TABLE users" "swordfish" hquery
  obtain ⟨tr', w', record', h'⟩ := sqlRecords "DROP TABLE users" "trustno1" hquery
  refine ⟨tr, w, record, tr', w', record', h, h', ?_⟩
  have hnames : (queryWith "DROP TABLE users" "swordfish").keys = (queryWith "DROP TABLE users" "trustno1").keys := rfl
  refine (redacted_agree_iff plainRuntime_repr guardedSql hnames (guardedSql_denies _ _ hquery).1
    (guardedSql_denies _ _ hquery).1 h h').2.2.2 ?_
  intro param pattern s t hpattern hs ht
  obtain ⟨rfl, rfl⟩ := Rule.denyPattern.inj hpattern
  obtain rfl := Option.some.inj (show some "DROP TABLE users" = some s from hs)
  obtain rfl := Option.some.inj (show some "DROP TABLE users" = some t from ht)
  exact ⟨rfl, Iff.rfl⟩

/-- The record tells which table the query would have dropped. -/
theorem denied_query_recorded : ∃ tr w record tr' w' record',
    Records sampleRuntime plainRuntime (codecPlatform sampleSha256) samplePy (sampleInterceptor false) executor guardedSql
        (withParameters sqlRequest (queryWith "DROP TABLE users" "swordfish")) sampleLog tr w record ∧
      Records sampleRuntime plainRuntime (codecPlatform sampleSha256) samplePy (sampleInterceptor false) executor
        guardedSql (withParameters sqlRequest (queryWith "DROP TABLE orders" "swordfish")) sampleLog tr' w' record' ∧
      guardedSql.deniedBy plainRuntime executor (withParameters sqlRequest (queryWith "DROP TABLE users" "swordfish")) =
        guardedSql.deniedBy plainRuntime executor
          (withParameters sqlRequest (queryWith "DROP TABLE orders" "swordfish")) ∧
      record.visible ≠ record'.visible := by
  have hquery : plainRuntime.search "DROP" "DROP TABLE users" = true := by decide
  have hquery' : plainRuntime.search "DROP" "DROP TABLE orders" = true := by decide
  obtain ⟨tr, w, record, h⟩ := sqlRecords "DROP TABLE users" "swordfish" hquery
  obtain ⟨tr', w', record', h'⟩ := sqlRecords "DROP TABLE orders" "swordfish" hquery'
  obtain ⟨hrule, heval⟩ := guardedSql_denies "DROP TABLE users" "swordfish" hquery
  obtain ⟨hrule', heval'⟩ := guardedSql_denies "DROP TABLE orders" "swordfish" hquery'
  refine ⟨tr, w, record, tr', w', record', h, h', hrule.trans hrule'.symm, ?_⟩
  rw [(h.of_denied heval rfl).2, (h'.of_denied heval' rfl).2]
  intro hsame
  have hmodel := (deniedRecord_eq_iff rfl).1 hsame
  have hstart := (denyPattern_eq_iff plainRuntime_repr _ _ _ _).1 (deny_eq_of_modelDump hmodel)
  exact absurd hstart.1 (by decide)

end Aimw.Interceptor
