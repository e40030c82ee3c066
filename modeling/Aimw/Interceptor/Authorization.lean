import Aimw.Audit.Codec
import Aimw.Interceptor.Paths

/-!
# What `handle` executes and what it records

Results about every run of `handle`, in any environment:

* `execution_gate` — the sandbox is started exactly when the call was authorised, and the record says so;
* `audited_iff_check_returns` — exactly one record is written, unless the circuit breaker's check raises;
* `records_given_iff_approval_returns` — a record claims an authorisation that was not given exactly when the
  approval callback is cancelled.
-/

namespace Aimw.Interceptor

open Lib Audit Coro ToolCallInterceptor

/-! ## Reading a trace -/

/-- The exceptions that came back. -/
def raisedIn (tr : Trace) : List Exc :=
  tr.filterMap fun
    | ⟨.check _ _, .error e⟩ => some e
    | ⟨.evaluateToolCall _ _ _, .raised e⟩ => some e
    | ⟨.approvalCallback _ _ _, .error e⟩ => some e
    | ⟨.execute _ _, .error e⟩ => some e
    | ⟨.recordResult _ _ _, .error e⟩ => some e
    | ⟨.logCall _ _ _ _, .error e⟩ => some e
    | _ => none

/-- The questions to the circuit breaker, with its answers. -/
def checks (tr : Trace) : List (String × String × Except Exc Bool) :=
  tr.filterMap fun
    | ⟨.check agentId toolName, a⟩ => some (agentId, toolName, a)
    | _ => none

def engineAnswers (tr : Trace) : List (ExecutionContext × ToolRequest × Awaited PolicyDecision) :=
  tr.filterMap fun
    | ⟨.evaluateToolCall context request _, a⟩ => some (context, request, a)
    | _ => none

def approvals (tr : Trace) : List (ExecutionContext × ToolRequest × PolicyDecision × Except Exc Bool) :=
  tr.filterMap fun
    | ⟨.approvalCallback context request d, a⟩ => some (context, request, d, a)
    | _ => none

/-- The arguments of `sandbox.execute`, each time it was started. -/
def executions (tr : Trace) : List (ToolRequest × ExecutionContext) :=
  tr.filterMap fun
    | ⟨.execute request context, _⟩ => some (request, context)
    | _ => none

/-- The answers of `record_result`. -/
def reports (tr : Trace) : List (Except Exc Unit) :=
  tr.filterMap fun
    | ⟨.recordResult _ _ _, a⟩ => some a
    | _ => none

/-- The answers of `log_call`. -/
def logAnswers (tr : Trace) : List (Except Exc AuditRecord) :=
  tr.filterMap fun
    | ⟨.logCall _ _ _ _, a⟩ => some a
    | _ => none

/-- The records that were written. -/
def auditRecords (tr : Trace) : List AuditRecord := (logAnswers tr).filterMap Except.toOption

section Append

variable (t u : Trace)

@[simp] lemma raisedIn_append : raisedIn (t ++ u) = raisedIn t ++ raisedIn u := List.filterMap_append
@[simp] lemma checks_append : checks (t ++ u) = checks t ++ checks u := List.filterMap_append
@[simp] lemma engineAnswers_append : engineAnswers (t ++ u) = engineAnswers t ++ engineAnswers u := List.filterMap_append
@[simp] lemma approvals_append : approvals (t ++ u) = approvals t ++ approvals u := List.filterMap_append
@[simp] lemma executions_append : executions (t ++ u) = executions t ++ executions u := List.filterMap_append
@[simp] lemma reports_append : reports (t ++ u) = reports t ++ reports u := List.filterMap_append
@[simp] lemma logAnswers_append : logAnswers (t ++ u) = logAnswers t ++ logAnswers u := List.filterMap_append

end Append

variable {rt : Runtime} {ic : ToolCallInterceptor} {context : ExecutionContext} {request : ToolRequest}

variable (ic context request) in
/-- The engine allowed the call, and whatever it required has been granted. -/
def Authorized (tr : Trace) : Prop :=
  ∃ d, (context, request, .returned d) ∈ engineAnswers tr ∧ d.allowed = true ∧ Supported d ∧
    (d.actionRequirements ≠ [] → ic.approvalCallback = true ∧ (context, request, d, .ok true) ∈ approvals tr)

variable (ic context request) in
/-- The circuit is closed as well. -/
def GateOpen (tr : Trace) : Prop :=
  (ic.circuitBreaker = true → (context.agentId, request.toolName, .ok true) ∈ checks tr) ∧
    Authorized ic context request tr

/-! ## What each part calls -/

lemma GatePath.calls {g : Trace} {r : Except Exc Bool} (h : GatePath ic context request g r) :
    engineAnswers g = [] ∧ approvals g = [] ∧ executions g = [] ∧ reports g = [] ∧ logAnswers g = [] := by
  cases h <;> exact ⟨rfl, rfl, rfl, rfl, rfl⟩

lemma Resolution.calls {d : PolicyDecision} {t : Trace} {r : Except Exc PolicyDecision}
    (h : Resolution ic context request d t r) :
    checks t = [] ∧ engineAnswers t = [] ∧ executions t = [] ∧ reports t = [] ∧ logAnswers t = [] := by
  cases h <;> exact ⟨rfl, rfl, rfl, rfl, rfl⟩

lemma Execution.calls {u : Trace} {r : Except Exc SandboxResult} (h : Execution context request u r) :
    checks u = [] ∧ engineAnswers u = [] ∧ approvals u = [] ∧ executions u = [(request, context)] ∧
      reports u = [] ∧ logAnswers u = [] := by
  cases h <;> exact ⟨rfl, rfl, rfl, rfl, rfl, rfl⟩

lemma Outcome.calls {s : SandboxResult} {v : Trace} {r : Except Exc Unit} (h : Outcome ic context request s v r) :
    checks v = [] ∧ engineAnswers v = [] ∧ approvals v = [] ∧ executions v = [] ∧ logAnswers v = [] := by
  cases h <;> exact ⟨rfl, rfl, rfl, rfl, rfl⟩

lemma logged_calls (d : PolicyDecision) (s : Option SandboxResult) (a : Except Exc AuditRecord) :
    checks [logged context request d s a] = [] ∧ engineAnswers [logged context request d s a] = [] ∧
      approvals [logged context request d s a] = [] ∧ executions [logged context request d s a] = [] ∧
      reports [logged context request d s a] = [] := ⟨rfl, rfl, rfl, rfl, rfl⟩

/-- An allowed decision is left alone or approved. -/
lemma Resolution.granted {d d' : PolicyDecision} {t : Trace} (h : Resolution ic context request d t (.ok d'))
    (hd' : d'.allowed = true) : Supported d ∧
      (d.actionRequirements ≠ [] → ic.approvalCallback = true ∧ (context, request, d, .ok true) ∈ approvals t) := by
  generalize hr : (Except.ok d' : Except Exc PolicyDecision) = r at h
  cases h with
  | unsupported =>
    obtain rfl := Except.ok.inj hr
    cases hd'
  | noCallback =>
    obtain rfl := Except.ok.inj hr
    cases hd'
  | asked a hs hne hc =>
    refine ⟨hs, fun _ => ⟨hc, ?_⟩⟩
    rcases a with e | _ | _
    · simp only [approvalOutcome] at hr
      split_ifs at hr
      obtain rfl := Except.ok.inj hr
      cases hd'
    · obtain rfl := Except.ok.inj hr
      cases hd'
    · simp [approvals]
  | nothing hnil => exact ⟨by simp [Supported, hnil], fun hne => absurd hnil hne⟩

/-- A decision that is turned down was not approved. -/
lemma Resolution.refused {d d' : PolicyDecision} {t : Trace} (h : Resolution ic context request d t (.ok d'))
    (hd : d.allowed = true) (hd' : d'.allowed = false) : ¬ (Supported d ∧
      (d.actionRequirements ≠ [] → ic.approvalCallback = true ∧ (context, request, d, .ok true) ∈ approvals t)) := by
  rintro ⟨hs, happ⟩
  generalize hr : (Except.ok d' : Except Exc PolicyDecision) = r at h
  cases h with
  | unsupported _ hns => exact hns hs
  | noCallback _ _ hne hc => simp [hc] at happ; exact hne happ
  | asked a _ hne _ =>
    have hmem := (happ hne).2
    simp only [approvals, List.filterMap_cons, List.filterMap_nil, List.mem_singleton, Prod.mk.injEq, true_and] at hmem
    obtain rfl := hmem
    obtain rfl := Except.ok.inj hr
    cases hd'
  | nothing =>
    obtain rfl := Except.ok.inj hr
    exact absurd (hd.symm.trans hd') (by simp)

/-- What the callback raised, if it is no `Exception`, is the end of the resolution. -/
lemma Resolution.error_iff {d : PolicyDecision} {t : Trace} {r : Except Exc PolicyDecision}
    (h : Resolution ic context request d t r) (e : Exc) :
    r = .error e ↔ e.isException = false ∧ ∃ d₁, (context, request, d₁, .error e) ∈ approvals t := by
  cases h with
  | unsupported => simp [approvals]
  | noCallback => simp [approvals]
  | nothing => simp [approvals]
  | asked a =>
    have hmem : (∃ d₁, (context, request, d₁, .error e) ∈ approvals [⟨.approvalCallback context request d, a⟩]) ↔
        a = .error e := by
      simp [approvals, eq_comm]
    rw [hmem]
    rcases a with e' | _ | _
    · by_cases he : e'.isException = true
      · simp only [approvalOutcome, if_pos he, Except.error.injEq, reduceCtorEq, false_iff, not_and]
        rintro hf rfl
        exact absurd (he.symm.trans hf) (by simp)
      · simp only [approvalOutcome, if_neg he, Except.error.injEq, iff_and_self]
        rintro rfl
        simpa using he
    · simp [approvalOutcome]
    · simp [approvalOutcome]

/-- A resolution that ends met no interruption. -/
lemma Resolution.uninterrupted {d d' : PolicyDecision} {t : Trace} (h : Resolution ic context request d t (.ok d')) :
    ∀ d₁ e, (context, request, d₁, .error e) ∈ approvals t → e.isException = true := by
  intro d₁ e hmem
  by_contra he
  exact absurd ((h.error_iff e).2 ⟨by simpa using he, d₁, hmem⟩) (by simp)

/-! ## What the body calls -/

section Body

variable {t : Trace} {v : Locals} {out : Except Exc Unit}

lemma evaluated_calls (a : Awaited PolicyDecision) (t : Trace) :
    checks (evaluated ic context request a :: t) = checks t ∧
      engineAnswers (evaluated ic context request a :: t) = (context, request, a) :: engineAnswers t ∧
      approvals (evaluated ic context request a :: t) = approvals t ∧
      executions (evaluated ic context request a :: t) = executions t ∧
      reports (evaluated ic context request a :: t) = reports t ∧
      logAnswers (evaluated ic context request a :: t) = logAnswers t := ⟨rfl, rfl, rfl, rfl, rfl, rfl⟩

lemma BodyPath.silent (h : BodyPath ic context request t v out) : checks t = [] ∧ logAnswers t = [] := by
  cases h with
  | undecided => exact ⟨rfl, rfl⟩
  | denied => exact ⟨rfl, rfl⟩
  | unresolved _ hr => exact ⟨hr.calls.1, hr.calls.2.2.2.2⟩
  | refused _ hr => exact ⟨hr.calls.1, hr.calls.2.2.2.2⟩
  | interrupted _ hr _ hu => simp [evaluated_calls, hr.calls, hu.calls]
  | executed _ hr _ hu hv => simp [evaluated_calls, hr.calls, hu.calls, hv.calls]

/-- A body that executes was told to by the engine. -/
lemma BodyPath.executes {t : Trace} {v : Locals} {out : Except Exc Unit} (h : BodyPath ic context request t v out)
    (hne : executions t ≠ []) : executions t = [(request, context)] ∧
      ∃ d u, d.allowed = true ∧ t = evaluated ic context request (.returned d) :: u := by
  cases h with
  | undecided => exact absurd rfl hne
  | denied => exact absurd rfl hne
  | unresolved _ hresolution => exact absurd hresolution.calls.2.2.1 hne
  | refused _ hresolution _ => exact absurd hresolution.calls.2.2.1 hne
  | @interrupted d _ t u _ hd hresolution _ hexecution =>
    refine ⟨?_, d, t ++ u, hd, rfl⟩
    rw [(evaluated_calls ..).2.2.2.1, executions_append, hresolution.calls.2.2.1, hexecution.calls.2.2.2.1]
    rfl
  | @executed d _ t u v _ _ hd hresolution _ hexecution houtcome =>
    refine ⟨?_, d, t ++ (u ++ v), hd, rfl⟩
    rw [(evaluated_calls ..).2.2.2.1, executions_append, executions_append, hresolution.calls.2.2.1,
      hexecution.calls.2.2.2.1, houtcome.calls.2.2.2.1]
    rfl

/-- The calls of an authorised call, up to the sandbox. -/
lemma authorized_of_granted {d d' : PolicyDecision} {u : Trace} (hd : d.allowed = true)
    (hr : Resolution ic context request d t (.ok d')) (hd' : d'.allowed = true) :
    Authorized ic context request (evaluated ic context request (.returned d) :: (t ++ u)) := by
  obtain ⟨hs, happ⟩ := hr.granted hd'
  refine ⟨d, by simp [evaluated_calls], hd, hs, fun hne => ⟨(happ hne).1, ?_⟩⟩
  rw [(evaluated_calls _ _).2.2.1, approvals_append]
  exact List.mem_append_left _ (happ hne).2

/-- The body leaves an allowed decision only after the sandbox was started on an authorised call, or when the
approval was cut short. -/
lemma BodyPath.allowed (h : BodyPath ic context request t v out) (hv : v.decision.allowed = true) :
    (Authorized ic context request t ∧ executions t = [(request, context)] ∧
        ∀ d e, (context, request, d, .error e) ∈ approvals t → e.isException = true) ∨
      (executions t = [] ∧ ∃ d e, (context, request, d, .error e) ∈ approvals t ∧ e.isException = false) := by
  cases h with
  | undecided => cases hv
  | denied _ hd => exact absurd (hd.symm.trans hv) (by simp)
  | @unresolved _ _ e _ hr =>
    obtain ⟨he, d, hmem⟩ := (hr.error_iff e).1 rfl
    exact Or.inr ⟨hr.calls.2.2.1, d, e, hmem, he⟩
  | refused _ _ hd' => exact absurd (hd'.symm.trans hv) (by simp)
  | interrupted hd hr hd' hu =>
    refine Or.inl ⟨authorized_of_granted hd hr hd', by simp [evaluated_calls, hr.calls, hu.calls], ?_⟩
    simpa [evaluated_calls, hu.calls] using hr.uninterrupted
  | executed hd hr hd' hu hv =>
    refine Or.inl ⟨authorized_of_granted hd hr hd', by simp [evaluated_calls, hr.calls, hu.calls, hv.calls], ?_⟩
    simpa [evaluated_calls, hu.calls, hv.calls] using hr.uninterrupted

/-- The body leaves a denial only when the call was not authorised, and then nothing was started. -/
lemma BodyPath.denial (h : BodyPath ic context request t v out) (hv : v.decision.allowed = false) :
    ¬ Authorized ic context request t ∧ executions t = [] ∧ v.sandboxResult = none ∧
      ∀ d e, (context, request, d, .error e) ∈ approvals t → e.isException = true := by
  cases h with
  | @undecided a e ha =>
    obtain ⟨rfl, -⟩ := engineDecision_error ha
    refine ⟨?_, rfl, rfl, by simp [approvals]⟩
    rintro ⟨d, hmem, -⟩
    simp [engineAnswers] at hmem
  | @denied a d ha hd =>
    refine ⟨?_, rfl, rfl, by simp [approvals]⟩
    rintro ⟨d₁, hmem, hd₁, -⟩
    simp only [engineAnswers, List.filterMap_cons, List.filterMap_nil, List.mem_singleton, Prod.mk.injEq, true_and] at hmem
    subst hmem
    obtain rfl := Except.ok.inj ha
    exact absurd (hd.symm.trans hd₁) (by simp)
  | unresolved hd => exact absurd (hd.symm.trans hv) (by simp)
  | @refused d d' t hd hr hd' =>
    refine ⟨?_, hr.calls.2.2.1, rfl, hr.uninterrupted⟩
    rintro ⟨d₁, hmem, -, hs, happ⟩
    simp only [evaluated_calls, hr.calls, List.mem_singleton, Prod.mk.injEq, Awaited.returned.injEq, true_and] at hmem
    subst hmem
    exact hr.refused hd hd' ⟨hs, happ⟩
  | interrupted _ _ hd' => exact absurd (hd'.symm.trans hv) (by simp)
  | executed _ _ hd' => exact absurd (hd'.symm.trans hv) (by simp)

lemma mem_raisedIn_of_approval {d : PolicyDecision} {e : Exc} (h : (context, request, d, .error e) ∈ approvals t) :
    e ∈ raisedIn t := by
  obtain ⟨⟨q, a⟩, hev, hq⟩ := List.mem_filterMap.1 h
  refine List.mem_filterMap.2 ⟨⟨q, a⟩, hev, ?_⟩
  cases q with
  | approvalCallback =>
    simp only [Option.some.injEq, Prod.mk.injEq] at hq
    obtain ⟨-, -, -, rfl⟩ := hq
    rfl
  | _ => simp at hq

lemma mem_raisedIn_cons {e : Exc} (ev : Event) (h : e ∈ raisedIn t) : e ∈ raisedIn (ev :: t) := by
  rw [← List.singleton_append, raisedIn_append]
  exact List.mem_append_right _ h

/-- The body raises only what is no `Exception`, or what `record_result` raised. -/
lemma BodyPath.error {e : Exc} (h : BodyPath ic context request t v (.error e)) :
    (e ∈ raisedIn t ∧ e.isException = false) ∨ .error e ∈ reports t := by
  generalize hout : (Except.error e : Except Exc Unit) = out at h
  cases h with
  | undecided ha =>
    obtain rfl := Except.error.inj hout
    obtain ⟨rfl, he⟩ := engineDecision_error ha
    exact Or.inl ⟨List.mem_singleton_self _, he⟩
  | denied => cases hout
  | unresolved _ hr =>
    obtain rfl := Except.error.inj hout
    obtain ⟨he, d, hmem⟩ := (hr.error_iff e).1 rfl
    exact Or.inl ⟨mem_raisedIn_cons _ (mem_raisedIn_of_approval hmem), he⟩
  | refused => cases hout
  | interrupted _ _ _ hu =>
    obtain rfl := Except.error.inj hout
    cases hu with
    | interrupted start he =>
      refine Or.inl ⟨mem_raisedIn_cons _ ?_, he⟩
      rw [raisedIn_append]
      exact List.mem_append_right _ (List.mem_singleton_self _)
  | executed _ _ _ _ hv =>
    subst hout
    right
    cases hv with
    | recorded => simp [reports]

/-- A body that ends without an exception and allows the call has a sandbox result. -/
lemma BodyPath.result (h : BodyPath ic context request t v (.ok ())) (hv : v.decision.allowed = true) :
    v.sandboxResult.isSome = true := by
  generalize hout : (Except.ok () : Except Exc Unit) = out at h
  cases h with
  | undecided => cases hout
  | denied _ hd => exact absurd (hd.symm.trans hv) (by simp)
  | unresolved => cases hout
  | refused _ _ hd' => exact absurd (hd'.symm.trans hv) (by simp)
  | interrupted => cases hout
  | executed => rfl

end Body

/-! ## A sample call

A call that needs approval, with the log on a fresh file and no other task about.
-/

section Sample

def sampleContext : ExecutionContext where
  userId := "u"
  agentId := "a"
  sessionId := "s"
  roles := ["dev"]

def sampleRequest : ToolRequest where
  toolName := "t"
  functionName := "f"
  parameters := Dict.empty
  callId := "c1"

def sampleDecision : PolicyDecision where
  allowed := true
  reason := "ok"
  actionRequirements := ["human_approval"]

def sampleResult : SandboxResult where
  stdout := "done"
  stderr := ""
  exitCode := 0
  durationMs := .finite ⟨['1', '.', '5'], rfl⟩

def sampleRuntime : Runtime where
  repr l := "[" ++ ", ".intercalate (l.map fun s => "\x27" ++ s ++ "\x27") ++ "]"
  elapsedMs _ _ := .finite ⟨['0', '.', '0'], rfl⟩

/-- An interceptor with an approval callback. -/
def sampleInterceptor (circuitBreaker : Bool) : ToolCallInterceptor where
  circuitBreaker
  approvalCallback := true
  decisionTimeoutS := .finite ⟨['2', '.', '0'], rfl⟩

/-- The platform of a run that hashes one record, with that record's digest. -/
def samplePlatform (digest : String) (h : digest.toList.length = 64) : Platform :=
  codecPlatform { hexdigest := fun _ => digest, length_hexdigest := fun _ => h }

def samplePy : PyStr where
  str
    | .str s => s
    | _ => ""
  surrogate _ := false
  surrogate_ascii _ _ := rfl

lemma samplePy_encodable (value : PyVal) : samplePy.encodable value = true := List.all_eq_true.2 fun _ _ => rfl

/-- The log on a fresh file. -/
def sampleLog : LogState where
  file := none
  logger := { redactParameters := true, sinks := [], prevHash := GENESIS_HASH }

lemma sample_logged (digest : String) (h : digest.toList.length = 64) {d : PolicyDecision} {s : Option SandboxResult}
    (hd : (PyVal.ofItems d.modelDump).isNative = true)
    (hs : (PyVal.ofItems? (s.map SandboxResult.modelDump)).isNative = true) :
    ∃ record log, Environment (samplePlatform digest h) samplePy Eq sampleLog
      (.logCall sampleContext sampleRequest d (s.map SandboxResult.modelDump)) (.ok record) log := by
  obtain ⟨file, logger, record, hlog⟩ := logCall_succeeds (codecPlatform_roundTrips _) samplePy sampleLog.logger
    (Or.inl rfl : FileTerminated none) sampleContext sampleRequest (fun p _ => samplePy_encodable p.2) hd hs "r1"
    "2024-01-01T00:00:00+00:00"
  exact ⟨record, ⟨file, logger⟩, .logged hlog⟩

/-- The call is approved and executed; `record` is what is written. -/
def executedTrace (record : AuditRecord) : Trace :=
  [⟨.check "a" "t", .ok true⟩,
    ⟨.evaluateToolCall sampleContext sampleRequest (sampleInterceptor true).decisionTimeoutS, .returned sampleDecision⟩,
    ⟨.approvalCallback sampleContext sampleRequest sampleDecision, .ok true⟩,
    ⟨.monotonic, .finite ⟨['9', '.', '0'], rfl⟩⟩,
    ⟨.execute sampleRequest sampleContext, .ok sampleResult⟩,
    ⟨.recordResult "a" "t" true, .ok ()⟩,
    logged sampleContext sampleRequest { allowed := true, reason := "ok; human-approved" } (some sampleResult) (.ok record)]

def executedDigest : String := "5463b34c6f94f14e2c1416f48acdb880e28c437b676bdfad5987def3098145db"

lemma executedDigest_length : executedDigest.toList.length = 64 := by decide

lemma executed_run : ∃ record r log,
    Runs (Environment (samplePlatform executedDigest executedDigest_length) samplePy Eq) sampleLog
      ((sampleInterceptor true).handle sampleRuntime sampleContext sampleRequest) (executedTrace record) r log := by
  obtain ⟨record, log, hlog⟩ := sample_logged executedDigest executedDigest_length
    (d := { allowed := true, reason := "ok; human-approved" }) (s := some sampleResult) rfl rfl
  refine ⟨record, .ok {
    allowed := true
    decision := { allowed := true, reason := "ok; human-approved" }
    sandboxResult := some sampleResult
    auditRecord := record }, log, ?_⟩
  unfold executedTrace
  exact .call (.awaited _ rfl rfl) <| .call (.awaited _ rfl rfl) <| .call (.awaited _ rfl rfl) <|
    .call (.monotonic _ _) <| .call (.awaited _ rfl rfl) <| .call (.awaited _ rfl rfl) <| .call hlog (.ret _ _)

lemma executedTrace_calls (record : AuditRecord) :
    checks (executedTrace record) = [("a", "t", .ok true)] ∧
      engineAnswers (executedTrace record) = [(sampleContext, sampleRequest, .returned sampleDecision)] ∧
      approvals (executedTrace record) = [(sampleContext, sampleRequest, sampleDecision, .ok true)] ∧
      reports (executedTrace record) = [.ok ()] ∧ logAnswers (executedTrace record) = [.ok record] ∧
      raisedIn (executedTrace record) = [] :=
  ⟨rfl, rfl, rfl, rfl, rfl, rfl⟩

/-- The task is cancelled while it waits for the approval. -/
def cancelledTrace (record : AuditRecord) : Trace :=
  [⟨.evaluateToolCall sampleContext sampleRequest (sampleInterceptor false).decisionTimeoutS, .returned sampleDecision⟩,
    ⟨.approvalCallback sampleContext sampleRequest sampleDecision, .error .cancelledError⟩,
    logged sampleContext sampleRequest sampleDecision none (.ok record)]

def cancelledDigest : String := "5c6e62ae5f0a0a1358cf902c061442d9fc4d4987fe78a1751ec9c6a6ae9cf867"

lemma cancelledDigest_length : cancelledDigest.toList.length = 64 := by decide

lemma cancelled_run : ∃ record log,
    Runs (Environment (samplePlatform cancelledDigest cancelledDigest_length) samplePy Eq) sampleLog
      ((sampleInterceptor false).handle sampleRuntime sampleContext sampleRequest) (cancelledTrace record)
      (.error .cancelledError) log := by
  obtain ⟨record, log, hlog⟩ :=
    sample_logged cancelledDigest cancelledDigest_length (d := sampleDecision) (s := none) rfl rfl
  refine ⟨record, log, ?_⟩
  unfold cancelledTrace
  exact .call (.awaited _ rfl rfl) <| .call (.awaited _ rfl rfl) <| .call hlog (.raise _ _)

end Sample

/-! ## What is written -/

section Guarantees

variable {P : Platform} {py : PyStr} {interference : LogState → LogState → Prop} {w w' : LogState} {tr : Trace}
  {r : Except Exc InterceptorResult}

lemma says_unique {record : AuditRecord} {a b : Bool} (ha : record.Says a) (hb : record.Says b) : a = b := by
  have h := ha.symm.trans hb
  simpa using h

lemma logged_inj {d d' : PolicyDecision} {s s' : Option SandboxResult} {a a' : Except Exc AuditRecord}
    (h : logged context request d s a = logged context request d' s' a') : d = d' :=
  (Op.logCall.inj (Sigma.mk.inj h).1).2.2.1

/-- The record that `log_call` returned is about the call, its decision and its outcome. -/
lemma record_of_logged (h : Runs (Environment P py interference) w (ic.handle rt context request) tr r w')
    {d : PolicyDecision} {s : Option SandboxResult} {record : AuditRecord}
    (hmem : logged context request d s (.ok record) ∈ tr) :
    record.callId = request.callId ∧ record.Says d.allowed := by
  obtain ⟨w₁, w₂, hE⟩ := h.mem hmem
  cases hE with
  | awaited _ hq => cases hq
  | logged hlog =>
    obtain ⟨hid, hdec, -⟩ := logCall_record hlog
    exact ⟨hid, by rw [AuditRecord.Says, hdec]; rfl⟩

lemma logged_ok {pre : Trace} {d : PolicyDecision} {s : Option SandboxResult} {a : Except Exc AuditRecord}
    (hpre : logAnswers pre = []) (hlog : ∀ e, .error e ∉ logAnswers (pre ++ [logged context request d s a])) :
    ∃ record, a = .ok record ∧ auditRecords (pre ++ [logged context request d s a]) = [record] := by
  have hans : logAnswers (pre ++ [logged context request d s a]) = [a] := by rw [logAnswers_append, hpre]; rfl
  rw [hans] at hlog
  cases a with
  | error e => exact absurd (List.mem_singleton_self _) (hlog e)
  | ok record => exact ⟨record, rfl, by rw [auditRecords, hans]; rfl⟩

lemma GatePath.error_mem {g : Trace} {e : Exc} (h : GatePath ic context request g (.error e)) :
    (context.agentId, request.toolName, .error e) ∈ checks g := by
  obtain ⟨-, rfl⟩ := h.error_eq
  exact List.mem_singleton_self _

lemma GatePath.checks_eq {g : Trace} {b : Bool} (h : GatePath ic context request g (.ok b)) :
    (ic.circuitBreaker = false ∧ b = false ∧ checks g = []) ∨
      (ic.circuitBreaker = true ∧ checks g = [(context.agentId, request.toolName, .ok !b)]) := by
  rcases h.ok_eq with ⟨hnone, hb, rfl⟩ | ⟨hsome, rfl⟩
  · exact Or.inl ⟨hnone, hb, rfl⟩
  · exact Or.inr ⟨hsome, rfl⟩

/-- **No call leaves unaudited unless the check of the circuit breaker raises.** -/
theorem audited_iff_check_returns
    (h : Runs (Environment P py interference) w (ic.handle rt context request) tr r w')
    (hlog : ∀ e, .error e ∉ logAnswers tr) :
    (∃ record, auditRecords tr = [record] ∧ record.callId = request.callId) ↔
      ∀ agentId toolName e, (agentId, toolName, .error e) ∉ checks tr := by
  cases handle_path h with
  | gateRaised hg =>
    refine iff_of_false ?_ fun hc => hc _ _ _ hg.error_mem
    rintro ⟨record, hrec, -⟩
    simp [auditRecords, hg.calls] at hrec
  | circuitOpen hg hd =>
    obtain ⟨record, rfl, hrec⟩ := logged_ok hg.calls.2.2.2.2 hlog
    have hid := (record_of_logged h (List.mem_append_right _ (List.mem_singleton_self _))).1
    refine iff_of_true ⟨record, hrec, hid⟩ fun agentId toolName e => ?_
    rcases hg.checks_eq with ⟨-, hb, -⟩ | ⟨-, hch⟩
    · cases hb
    · simp [hch, logged_calls]
  | @decided g t v out a hg hbody =>
    obtain ⟨record, rfl, hrec⟩ := logged_ok (by simp [hg.calls, hbody.silent]) hlog
    have hid := (record_of_logged h (List.mem_append_right _ (List.mem_singleton_self _))).1
    refine iff_of_true ⟨record, hrec, hid⟩ fun agentId toolName e => ?_
    rcases hg.checks_eq with ⟨-, -, hch⟩ | ⟨-, hch⟩ <;> simp [hch, hbody.silent, logged_calls]

theorem audited_iff_check_returns_executed :
    ∃ record record', auditRecords (executedTrace record) = [record'] ∧ record'.callId = "c1" := by
  obtain ⟨record, r, log, hrun⟩ := executed_run
  obtain ⟨hchecks, -, -, -, hlogged, -⟩ := executedTrace_calls record
  exact ⟨record, (audited_iff_check_returns hrun (by simp [hlogged])).2 (by simp [hchecks])⟩

/-- The breaker's backend cannot be reached. -/
theorem check_raises_unaudited :
    ¬ ∀ tr r log, Runs (Environment (samplePlatform executedDigest executedDigest_length) samplePy Eq) sampleLog
        ((sampleInterceptor true).handle sampleRuntime sampleContext sampleRequest) tr r log →
      (∀ e, .error e ∉ logAnswers tr) → ∃ record, auditRecords tr = [record] ∧ record.callId = sampleRequest.callId := by
  intro hclaim
  have hrun : Runs (Environment (samplePlatform executedDigest executedDigest_length) samplePy Eq) sampleLog
      ((sampleInterceptor true).handle sampleRuntime sampleContext sampleRequest)
      [⟨.check "a" "t", .error (.exception "Connection refused")⟩] (.error (.exception "Connection refused")) sampleLog :=
    .call (.awaited _ rfl rfl) (.raise _ _)
  obtain ⟨record, hrec, -⟩ := hclaim _ _ _ hrun (by simp [logAnswers])
  simp [auditRecords, logAnswers] at hrec

/-! ### Authorisation -/

variable (ic context request) in
/-- A record that says `allowed` is written only after the call was authorised and its sandbox started. -/
def RecordsGiven (tr : Trace) : Prop :=
  ∀ pre post d s record, tr = pre ++ logged context request d s (.ok record) :: post → record.Says true →
    Authorized ic context request pre ∧ executions pre = [(request, context)]

lemma eq_of_append_logged {pre pre' post : Trace} {ev : Event} {d : PolicyDecision} {s : Option SandboxResult}
    {a : Except Exc AuditRecord} (hpre : logAnswers pre = [])
    (h : pre ++ [ev] = pre' ++ logged context request d s a :: post) :
    pre = pre' ∧ ev = logged context request d s a := by
  rcases List.eq_nil_or_concat post with rfl | ⟨post, x, rfl⟩
  · obtain ⟨h₁, h₂⟩ := List.append_inj' h rfl
    exact ⟨h₁, List.cons.inj h₂ |>.1⟩
  · -- a record before the last event would be one in `pre`
    rw [List.concat_eq_append, ← List.cons_append, ← List.append_assoc] at h
    obtain ⟨rfl, -⟩ := List.append_inj' h rfl
    rw [logAnswers_append] at hpre
    exact absurd (List.append_eq_nil_iff.1 hpre).2 (List.cons_ne_nil a (logAnswers post))

lemma authorized_append_iff {g t : Trace} {b : Except Exc Bool} (hg : GatePath ic context request g b) :
    Authorized ic context request (g ++ t) ↔ Authorized ic context request t := by
  simp only [Authorized, engineAnswers_append, approvals_append, hg.calls, List.nil_append]

lemma authorized_logged_iff {t : Trace} {d : PolicyDecision} {s : Option SandboxResult} {a : Except Exc AuditRecord} :
    Authorized ic context request (t ++ [logged context request d s a]) ↔ Authorized ic context request t := by
  simp only [Authorized, engineAnswers_append, approvals_append, logged_calls, List.append_nil]

/-- **A record claims an authorisation that was not given exactly when the approval is cut short.** -/
theorem records_given_iff_approval_returns
    (h : Runs (Environment P py interference) w (ic.handle rt context request) tr r w')
    (hlog : ∀ e, .error e ∉ logAnswers tr) :
    RecordsGiven ic context request tr ↔
      ∀ d e, (context, request, d, .error e) ∈ approvals tr → e.isException = true := by
  cases handle_path h with
  | gateRaised hg =>
    refine iff_of_true ?_ (by simp [hg.calls])
    rintro pre post d s record rfl
    have hans := hg.calls.2.2.2.2
    rw [logAnswers_append] at hans
    exact absurd (List.append_eq_nil_iff.1 hans).2 (List.cons_ne_nil _ (logAnswers post))
  | circuitOpen hg hd =>
    refine iff_of_true ?_ (by simp [hg.calls, logged_calls])
    rintro pre post d s record htr hsays
    obtain ⟨rfl, hev⟩ := eq_of_append_logged hg.calls.2.2.2.2 htr
    have hsays' := (record_of_logged h (List.mem_append_right _ (List.mem_singleton.2 hev.symm))).2
    rw [← logged_inj hev, hd] at hsays'
    exact absurd (says_unique hsays hsays') (by simp)
  | @decided g t v out a hg hbody =>
    have hsilent : logAnswers (g ++ t) = [] := by simp [hg.calls, hbody.silent]
    obtain ⟨record, rfl, -⟩ := logged_ok hsilent hlog
    have happ : ∀ b, approvals (g ++ t ++ [logged context request v.decision v.sandboxResult b]) = approvals t := by
      simp [hg.calls, logged_calls]
    rw [happ]
    by_cases hv : v.decision.allowed = true
    · rcases hbody.allowed hv with ⟨hauth, hexec, happrovals⟩ | ⟨hexec, d, e, hmem, he⟩
      · -- the sandbox was started
        refine iff_of_true ?_ happrovals
        intro pre post d s record' htr _
        obtain ⟨rfl, -⟩ := eq_of_append_logged hsilent htr
        exact ⟨(authorized_append_iff hg).2 hauth, by simp [hg.calls, hexec]⟩
      · -- the approval was cut short
        refine iff_of_false (fun hgiven => ?_) fun hreturns => ?_
        · have hsays := (record_of_logged h (List.mem_append_right _ (List.mem_singleton_self _))).2
          rw [hv] at hsays
          have hstart := (hgiven (g ++ t) [] v.decision v.sandboxResult record rfl hsays).2
          simp [hg.calls, hexec] at hstart
        · exact absurd ((hreturns d e hmem).symm.trans he) (by simp)
    · have hv : v.decision.allowed = false := by simpa using hv
      obtain ⟨-, -, -, happrovals⟩ := hbody.denial hv
      refine iff_of_true ?_ happrovals
      intro pre post d s record' htr hsays
      obtain ⟨rfl, hev⟩ := eq_of_append_logged hsilent htr
      have hsays' := (record_of_logged h (List.mem_append_right _ (List.mem_singleton.2 hev.symm))).2
      rw [← logged_inj hev, hv] at hsays'
      exact absurd (says_unique hsays hsays') (by simp)

theorem records_given_iff_approval_returns_executed :
    ∃ record, RecordsGiven (sampleInterceptor true) sampleContext sampleRequest (executedTrace record) := by
  obtain ⟨record, r, log, hrun⟩ := executed_run
  obtain ⟨-, -, happrovals, -, hlogged, -⟩ := executedTrace_calls record
  exact ⟨record, (records_given_iff_approval_returns hrun (by simp [hlogged])).2 (by simp [happrovals])⟩

/-- Nobody approved the call, nothing was executed, and the record says that it was allowed. -/
theorem cancelled_approval_recorded_allowed :
    ¬ ∀ tr r log, Runs (Environment (samplePlatform cancelledDigest cancelledDigest_length) samplePy Eq) sampleLog
        ((sampleInterceptor false).handle sampleRuntime sampleContext sampleRequest) tr r log →
      (∀ e, .error e ∉ logAnswers tr) → RecordsGiven (sampleInterceptor false) sampleContext sampleRequest tr := by
  intro hclaim
  obtain ⟨record, log, hrun⟩ := cancelled_run
  have hgiven := hclaim _ _ _ hrun (by simp [cancelledTrace, logAnswers])
  have hsays := (record_of_logged hrun (show logged _ _ sampleDecision none (.ok record) ∈ _ by simp [cancelledTrace])).2
  have hexec := (hgiven (cancelledTrace record).dropLast [] sampleDecision none record rfl hsays).2
  simp [cancelledTrace, executions] at hexec

/-! ### The gate -/

/-- What is executed and recorded, read off the answers that came back. -/
theorem gate_of_runs (h : Runs (Environment P py interference) w (ic.handle rt context request) tr r w')
    (hcheck : ∀ agentId toolName e, (agentId, toolName, .error e) ∉ checks tr)
    (hcancel : ∀ e ∈ raisedIn tr, e.isException = true) (hreport : ∀ e, .error e ∉ reports tr)
    (hlog : ∀ e, .error e ∉ logAnswers tr) :
    ∃ result record, r = .ok result ∧ auditRecords tr = [record] ∧ result.auditRecord = record ∧
      record.callId = request.callId ∧
      (GateOpen ic context request tr → executions tr = [(request, context)] ∧ result.allowed = true ∧
        result.sandboxResult.isSome = true ∧ record.Says true) ∧
      (¬ GateOpen ic context request tr → executions tr = [] ∧ result.allowed = false ∧
        result.sandboxResult = none ∧ record.Says false) ∧
      ((context.agentId, request.toolName, .ok false) ∈ checks tr →
        engineAnswers tr = [] ∧ approvals tr = [] ∧ executions tr = []) := by
  cases handle_path h with
  | gateRaised hg => exact absurd hg.error_mem (hcheck _ _ _)
  | @circuitOpen g d a hg hd =>
    obtain ⟨record, rfl, hrec⟩ := logged_ok hg.calls.2.2.2.2 hlog
    obtain ⟨hid, hsays⟩ := record_of_logged h (List.mem_append_right _ (List.mem_singleton_self _))
    have hclosed : ¬ GateOpen ic context request (g ++ [logged context request d none (.ok record)]) := by
      rintro ⟨-, d₁, hmem, -⟩
      simp [hg.calls, logged_calls] at hmem
    rw [hd] at hsays
    refine ⟨_, record, rfl, hrec, rfl, hid, fun hopen => absurd hopen hclosed, fun _ => ?_, fun _ => ?_⟩
    · exact ⟨by simp [hg.calls, logged_calls], hd, rfl, hsays⟩
    · simp [hg.calls, logged_calls]
  | @decided g t v out a hg hbody =>
    obtain ⟨record, rfl, hrec⟩ := logged_ok (by simp [hg.calls, hbody.silent]) hlog
    obtain ⟨hid, hsays⟩ := record_of_logged h (List.mem_append_right _ (List.mem_singleton_self _))
    -- nothing that the hypotheses allow ends the body early
    obtain rfl : out = .ok () := by
      cases out with
      | ok => rfl
      | error e =>
        rcases hbody.error with ⟨hmem, he⟩ | hmem
        · exact absurd ((hcancel e (by simp [hmem])).symm.trans he) (by simp)
        · exact absurd (by simp [hmem]) (hreport e)
    have hauth : ∀ b, GateOpen ic context request (g ++ t ++ [logged context request v.decision v.sandboxResult b]) ↔
        Authorized ic context request t := by
      intro b
      rw [GateOpen, authorized_logged_iff, authorized_append_iff hg, and_iff_right_iff_imp]
      rintro - hc
      rcases hg.checks_eq with ⟨hc', -⟩ | ⟨-, hch⟩
      · exact absurd (hc.symm.trans hc') (by simp)
      · simp [hch]
    have hclosed : (context.agentId, request.toolName, .ok false) ∉
        checks (g ++ t ++ [logged context request v.decision v.sandboxResult (.ok record)]) := by
      rcases hg.checks_eq with ⟨-, -, hch⟩ | ⟨-, hch⟩ <;> simp [hch, hbody.silent, logged_calls]
    refine ⟨_, record, rfl, hrec, rfl, hid, ?_, ?_, fun hopen => absurd hopen hclosed⟩
    · intro hopen
      have hopen := (hauth _).1 hopen
      by_cases hv : v.decision.allowed = true
      · rcases hbody.allowed hv with ⟨-, hexec, -⟩ | ⟨-, d, e, hmem, he⟩
        · rw [hv] at hsays
          exact ⟨by simp [hg.calls, logged_calls, hexec], hv, hbody.result hv, hsays⟩
        · exact absurd ((hcancel e (by simp [mem_raisedIn_of_approval hmem])).symm.trans he) (by simp)
      · exact absurd hopen (hbody.denial (by simpa using hv)).1
    · intro hshut
      have hshut := mt (hauth _).2 hshut
      by_cases hv : v.decision.allowed = true
      · rcases hbody.allowed hv with ⟨hopen, -⟩ | ⟨-, d, e, hmem, he⟩
        · exact absurd hopen hshut
        · exact absurd ((hcancel e (by simp [mem_raisedIn_of_approval hmem])).symm.trans he) (by simp)
      · have hv : v.decision.allowed = false := by simpa using hv
        obtain ⟨-, hexec, hnone, -⟩ := hbody.denial hv
        rw [hv] at hsays
        exact ⟨by simp [hg.calls, logged_calls, hexec], hv, hnone, hsays⟩

/-- How the collaborators behave: what each of them answers if it is asked. -/
structure Collaborators where
  check : Except Exc Bool
  engine : Awaited PolicyDecision
  approval : PolicyDecision → Except Exc Bool
  sandbox : Except Exc SandboxResult

namespace Collaborators

variable (c : Collaborators)

/-- The answer of a call is theirs. -/
def Gives : (q : Op) → q.Answer → Prop
  | .check _ _, a => a = c.check
  | .evaluateToolCall _ _ _, a => a = c.engine
  | .approvalCallback _ _ d, a => a = c.approval d
  | .execute _ _, a => a = c.sandbox
  | .monotonic, _ => True
  | .recordResult _ _ _, _ => True
  | .logCall _ _ _ _, _ => True

/-- None of them is cancelled, and the breaker answers. -/
structure Uncancelled : Prop where
  check : ∀ e, c.check ≠ .error e
  engine : ∀ e, c.engine = .raised e → e.isException = true
  approval : ∀ d e, c.approval d = .error e → e.isException = true
  sandbox : ∀ e, c.sandbox = .error e → e.isException = true

variable (ic : ToolCallInterceptor)

/-- The breaker is absent or closed. -/
def Closed : Prop := ic.circuitBreaker = true → c.check = .ok true

/-- The decision `d` is for a reviewer. -/
def ForReview (d : PolicyDecision) : Prop :=
  c.engine = .returned d ∧ d.allowed = true ∧ Supported d ∧ d.actionRequirements ≠ [] ∧ ic.approvalCallback = true

/-- The breaker lets the call pass, the engine allows it in time, and whatever it requires is granted. -/
def Opens : Prop :=
  c.Closed ic ∧ ∃ d, c.engine = .returned d ∧ d.allowed = true ∧ Supported d ∧
    (d.actionRequirements ≠ [] → ic.approvalCallback = true ∧ c.approval d = .ok true)

end Collaborators

variable {c : Collaborators}

/-- The reviewer is asked about the decision that is for review. -/
lemma BodyPath.reviews (h : BodyPath ic context request t v out) (hgives : ∀ e ∈ t, c.Gives e.1 e.2) :
    engineAnswers t = [(context, request, c.engine)] ∧
      ∀ d, c.ForReview ic d → approvals t = [(context, request, d, c.approval d)] := by
  have hnot : ∀ {a : Awaited PolicyDecision}, a = c.engine → (∀ d, a = .returned d → d.allowed = false) →
      ∀ d, ¬ c.ForReview ic d := by
    rintro a rfl hdenied d ⟨hd, hallowed, -⟩
    exact absurd (hallowed.symm.trans (hdenied d hd)) (by simp)
  -- an allowed decision goes to the reviewer first
  have hasked : ∀ {d : PolicyDecision} {t after : Trace} {r : Except Exc PolicyDecision}, .returned d = c.engine →
      Resolution ic context request d t r → (∀ e ∈ t, c.Gives e.1 e.2) → approvals after = [] →
      ∀ d', c.ForReview ic d' → approvals (t ++ after) = [(context, request, d', c.approval d')] := by
    rintro d t after r hd hresolution hgives hafter d' ⟨hd', -, hsupported, hrequired, hcallback⟩
    obtain rfl := Awaited.returned.inj (hd.trans hd')
    cases hresolution with
    | unsupported _ hno => exact absurd hsupported hno
    | noCallback _ _ _ hno => exact absurd (hcallback.symm.trans hno) (by simp)
    | nothing hno => exact absurd hno hrequired
    | asked a =>
      have ha : a = c.approval d := hgives _ (List.mem_singleton_self _)
      rw [approvals_append, hafter, ha]
      rfl
  cases h with
  | @undecided a e ha =>
    have hengine : a = c.engine := hgives _ List.mem_cons_self
    refine ⟨by rw [← hengine]; rfl, fun d hd => absurd hd (hnot hengine (fun d' hd' => ?_) d)⟩
    rw [hd'] at ha
    cases ha
  | @denied a d ha hdenied =>
    have hengine : a = c.engine := hgives _ List.mem_cons_self
    refine ⟨by rw [← hengine]; rfl, fun d' hd' => absurd hd' (hnot hengine (fun d'' hd'' => ?_) d')⟩
    rw [hd''] at ha
    rwa [← Except.ok.inj ha] at hdenied
  | @unresolved d t e hd hresolution =>
    have hengine : .returned d = c.engine := hgives _ List.mem_cons_self
    refine ⟨by rw [(evaluated_calls ..).2.1, hresolution.calls.2.1, hengine], fun d' hd' => ?_⟩
    rw [(evaluated_calls ..).2.2.1, ← List.append_nil t]
    exact hasked hengine hresolution (fun e he => hgives e (List.mem_cons_of_mem _ he)) rfl d' hd'
  | @refused d d' t hd hresolution =>
    have hengine : .returned d = c.engine := hgives _ List.mem_cons_self
    refine ⟨by rw [(evaluated_calls ..).2.1, hresolution.calls.2.1, hengine], fun d' hd' => ?_⟩
    rw [(evaluated_calls ..).2.2.1, ← List.append_nil t]
    exact hasked hengine hresolution (fun e he => hgives e (List.mem_cons_of_mem _ he)) rfl d' hd'
  | @interrupted d d' t u e hd hresolution _ hexecution =>
    have hengine : .returned d = c.engine := hgives _ List.mem_cons_self
    have hbefore : ∀ e ∈ t, c.Gives e.1 e.2 := fun e he =>
      hgives e (List.mem_cons_of_mem _ (List.mem_append_left u he))
    refine ⟨?_, fun d' hd' => ?_⟩
    · rw [(evaluated_calls ..).2.1, engineAnswers_append, hresolution.calls.2.1, hexecution.calls.2.1, hengine]
      rfl
    · rw [(evaluated_calls ..).2.2.1]
      exact hasked hengine hresolution hbefore hexecution.calls.2.2.1 d' hd'
  | @executed d d' t u v s out hd hresolution _ hexecution houtcome =>
    have hengine : .returned d = c.engine := hgives _ List.mem_cons_self
    have hbefore : ∀ e ∈ t, c.Gives e.1 e.2 := fun e he =>
      hgives e (List.mem_cons_of_mem _ (List.mem_append_left (u ++ v) he))
    refine ⟨?_, fun d' hd' => ?_⟩
    · rw [(evaluated_calls ..).2.1, engineAnswers_append, engineAnswers_append, hresolution.calls.2.1,
        hexecution.calls.2.1, houtcome.calls.2.1, hengine]
      rfl
    · rw [(evaluated_calls ..).2.2.1]
      refine hasked hengine hresolution hbefore ?_ d' hd'
      rw [approvals_append, hexecution.calls.2.2.1, houtcome.calls.2.2.1]
      rfl

lemma GatePath.error_event {g : Trace} {e : Exc} (h : GatePath ic context request g (.error e)) :
    ∃ agentId toolName e', (⟨.check agentId toolName, .error e'⟩ : Event) ∈ g := by
  obtain ⟨⟨q, a⟩, hmem, ha⟩ := List.mem_filterMap.1 h.error_mem
  cases q with
  | check agentId toolName =>
    obtain rfl := (Prod.mk.inj (Prod.mk.inj (Option.some.inj ha)).2).2
    exact ⟨agentId, toolName, e, hmem⟩
  | _ => cases ha

/-- **Who is asked**: the breaker if there is one, behind it the engine, and the reviewer about what is for review. -/
lemma HandlePath.asks (h : HandlePath ic context request tr r) (hgives : ∀ e ∈ tr, c.Gives e.1 e.2)
    (hcheck : ∀ e, c.check ≠ .error e) :
    checks tr = (if ic.circuitBreaker then [(context.agentId, request.toolName, c.check)] else []) ∧
      (c.Closed ic → engineAnswers tr = [(context, request, c.engine)] ∧
        ∀ d, c.ForReview ic d → approvals tr = [(context, request, d, c.approval d)]) := by
  have hopen : ∀ {g : Trace} {b : Bool}, GatePath ic context request g (.ok b) → (∀ e ∈ g, c.Gives e.1 e.2) →
      checks g = (if ic.circuitBreaker then [(context.agentId, request.toolName, c.check)] else []) ∧
        (b = true → ¬ c.Closed ic) := by
    intro g b hg hgives
    rcases hg.ok_eq with ⟨hnone, rfl, rfl⟩ | ⟨hsome, rfl⟩
    · rw [if_neg (by simp [hnone])]
      exact ⟨rfl, by simp⟩
    · have ha : .ok (!b) = c.check := hgives _ (List.mem_singleton_self _)
      rw [if_pos hsome, ← ha]
      refine ⟨rfl, fun hb hclosed => ?_⟩
      have hc := ha.trans (hclosed hsome)
      rw [hb] at hc
      cases hc
  cases h with
  | gateRaised hg =>
    obtain ⟨agentId, toolName, e, hmem⟩ := hg.error_event
    exact absurd (Eq.symm (hgives _ hmem)) (hcheck e)
  | @circuitOpen g d a hg =>
    obtain ⟨hchecks, hnot⟩ := hopen hg fun e he => hgives e (List.mem_append_left _ he)
    rw [checks_append, hchecks, (logged_calls ..).1, List.append_nil]
    exact ⟨rfl, fun hclosed => absurd hclosed (hnot rfl)⟩
  | @decided g t v out a hg hbody =>
    obtain ⟨hchecks, -⟩ := hopen hg fun e he => hgives e (List.mem_append_left _ (List.mem_append_left t he))
    obtain ⟨hengine, hreview⟩ := hbody.reviews fun e he => hgives e (List.mem_append_left _ (List.mem_append_right g he))
    refine ⟨?_, fun _ => ⟨?_, fun d hd => ?_⟩⟩
    · rw [checks_append, checks_append, hchecks, hbody.silent.1, (logged_calls ..).1, List.append_nil, List.append_nil]
    · simp only [engineAnswers_append, hg.calls, hengine, logged_calls, List.nil_append, List.append_nil]
    · simp only [approvals_append, hg.calls, hreview d hd, logged_calls, List.nil_append, List.append_nil]

/-- The answers that came back open the gate iff the collaborators do. -/
lemma HandlePath.gateOpen_iff (h : HandlePath ic context request tr r) (hgives : ∀ e ∈ tr, c.Gives e.1 e.2)
    (hcheck : ∀ e, c.check ≠ .error e) : GateOpen ic context request tr ↔ c.Opens ic := by
  obtain ⟨hchecks, hasks⟩ := h.asks hgives hcheck
  have hclosed : c.Closed ic ↔
      (ic.circuitBreaker = true → (context.agentId, request.toolName, .ok true) ∈ checks tr) := by
    refine imp_congr_right fun hbreaker => ?_
    rw [hchecks, if_pos hbreaker, List.mem_singleton]
    simp [eq_comm]
  unfold GateOpen Collaborators.Opens
  rw [← hclosed]
  refine and_congr_right fun hc => ?_
  obtain ⟨hengine, hreview⟩ := hasks hc
  refine exists_congr fun d => ?_
  rw [hengine, List.mem_singleton]
  constructor
  · rintro ⟨hd, hallowed, hsupported, hgranted⟩
    have hreturned : c.engine = .returned d := by simpa [eq_comm] using hd
    refine ⟨hreturned, hallowed, hsupported, fun hrequired => ?_⟩
    obtain ⟨hcallback, hmem⟩ := hgranted hrequired
    rw [hreview d ⟨hreturned, hallowed, hsupported, hrequired, hcallback⟩, List.mem_singleton] at hmem
    exact ⟨hcallback, by simpa [eq_comm] using hmem⟩
  · rintro ⟨hreturned, hallowed, hsupported, hgranted⟩
    refine ⟨by rw [hreturned], hallowed, hsupported, fun hrequired => ?_⟩
    obtain ⟨hcallback, happroved⟩ := hgranted hrequired
    rw [hreview d ⟨hreturned, hallowed, hsupported, hrequired, hcallback⟩, happroved]
    exact ⟨hcallback, List.mem_singleton_self _⟩

/-- What is raised is none of the exceptions that cancel. -/
lemma Collaborators.Uncancelled.isException (hc : c.Uncancelled) (hgives : ∀ e ∈ tr, c.Gives e.1 e.2)
    (hreport : ∀ e, .error e ∉ reports tr) (hlog : ∀ e, .error e ∉ logAnswers tr) {e : Exc} (he : e ∈ raisedIn tr) :
    e.isException = true := by
  obtain ⟨⟨q, a⟩, hmem, ha⟩ := List.mem_filterMap.1 he
  have hgiven := hgives _ hmem
  cases q with
  | check agentId toolName =>
    rcases a with e' | b
    · exact absurd (Eq.symm hgiven) (hc.check e')
    · cases ha
  | evaluateToolCall =>
    rcases a with d | e' | _
    · cases ha
    · obtain rfl := Option.some.inj ha
      exact hc.engine _ (Eq.symm hgiven)
    · cases ha
  | approvalCallback context request d =>
    rcases a with e' | b
    · obtain rfl := Option.some.inj ha
      exact hc.approval d _ (Eq.symm hgiven)
    · cases ha
  | monotonic => cases ha
  | execute =>
    rcases a with e' | s
    · obtain rfl := Option.some.inj ha
      exact hc.sandbox _ (Eq.symm hgiven)
    · cases ha
  | recordResult =>
    rcases a with e' | b
    · have hfailed : Except.error e' ∈ reports tr := List.mem_filterMap.2 ⟨_, hmem, rfl⟩
      exact absurd hfailed (hreport e')
    · cases ha
  | logCall =>
    rcases a with e' | record
    · have hfailed : Except.error e' ∈ logAnswers tr := List.mem_filterMap.2 ⟨_, hmem, rfl⟩
      exact absurd hfailed (hlog e')
    · cases ha

/-- **The execution gate**, for every behaviour of the collaborators: `handle` ends, it has asked whom it is to ask, and
the sandbox is started exactly when they open the gate. -/
theorem execution_gate {f : (q : Op) → LogState → q.Answer × LogState}
    (hf : ∀ q s, Environment P py interference s q (f q s).1 (f q s).2) (hgives : ∀ q s, c.Gives q (f q s).1)
    (hc : c.Uncancelled) (hrun : (ic.handle rt context request).run f w = (tr, r, w'))
    (hreport : ∀ e, .error e ∉ reports tr) (hlog : ∀ e, .error e ∉ logAnswers tr) :
    ∃ result record, r = .ok result ∧ auditRecords tr = [record] ∧ result.auditRecord = record ∧
      record.callId = request.callId ∧
      checks tr = (if ic.circuitBreaker then [(context.agentId, request.toolName, c.check)] else []) ∧
      (c.Closed ic → engineAnswers tr = [(context, request, c.engine)] ∧
        ∀ d, c.ForReview ic d → approvals tr = [(context, request, d, c.approval d)]) ∧
      (¬ c.Closed ic → engineAnswers tr = [] ∧ approvals tr = [] ∧ executions tr = []) ∧
      (c.Opens ic → executions tr = [(request, context)] ∧ result.allowed = true ∧
        result.sandboxResult.isSome = true ∧ record.Says true) ∧
      (¬ c.Opens ic → executions tr = [] ∧ result.allowed = false ∧ result.sandboxResult = none ∧
        record.Says false) := by
  have hruns : Runs (Environment P py interference) w (ic.handle rt context request) tr r w' := by
    have h := runs_run hf (ic.handle rt context request) w
    rwa [hrun] at h
  have htheirs : ∀ e ∈ tr, c.Gives e.1 e.2 := by
    have h := runs_run (E := fun _ q a _ => c.Gives q a) hgives (ic.handle rt context request) w
    rw [hrun] at h
    intro e he
    obtain ⟨-, -, hgiven⟩ := h.mem he
    exact hgiven
  have hpath := handle_path hruns
  obtain ⟨hchecks, hasks⟩ := hpath.asks htheirs hc.check
  have hanswered : ∀ agentId toolName e, (agentId, toolName, .error e) ∉ checks tr := by
    intro agentId toolName e hmem
    rw [hchecks] at hmem
    split at hmem
    · exact hc.check e (Prod.mk.inj (Prod.mk.inj (List.mem_singleton.1 hmem)).2).2.symm
    · cases hmem
  have hraised : ∀ e ∈ raisedIn tr, e.isException = true := fun e he => hc.isException htheirs hreport hlog he
  obtain ⟨result, record, hr, hrecords, hrecord, hid, hexecutes, hnot, hopen⟩ :=
    gate_of_runs hruns hanswered hraised hreport hlog
  have hgate := hpath.gateOpen_iff htheirs hc.check
  refine ⟨result, record, hr, hrecords, hrecord, hid, hchecks, hasks, fun hshut => hopen ?_,
    fun h => hexecutes (hgate.2 h), fun h => hnot (mt hgate.1 h)⟩
  -- an open breaker has said so
  obtain ⟨hbreaker, hfalse⟩ := Classical.not_imp.1 hshut
  rw [hchecks, if_pos hbreaker]
  cases hcheck : c.check with
  | error e => exact absurd hcheck (hc.check e)
  | ok b =>
    cases b with
    | true => exact absurd hcheck hfalse
    | false => exact List.mem_singleton_self _

/-- A record is written, with this id and at this time. -/
def answerLog (P : Platform) (py : PyStr) (s : LogState) (context : ExecutionContext) (request : ToolRequest)
    (d : PolicyDecision) (result : Option (List (String × PyVal))) : Except Exc AuditRecord × LogState :=
  match s.logger.logCall P py s.file context request d result "r1" "2024-01-01T00:00:00+00:00" with
  | .ok (file, logger, record) => (.ok record, ⟨file, logger⟩)
  | .error e => (.error e, s)

lemma answerLog_environment (s : LogState) (context : ExecutionContext) (request : ToolRequest) (d : PolicyDecision)
    (result : Option (List (String × PyVal))) : Environment P py interference s (.logCall context request d result)
      (answerLog P py s context request d result).1 (answerLog P py s context request d result).2 := by
  unfold answerLog
  cases hlog : s.logger.logCall P py s.file context request d result "r1" "2024-01-01T00:00:00+00:00" with
  | ok logged => exact .logged hlog
  | error e => exact .notLogged e s

/-- The collaborators as an environment; nobody else writes to the log. -/
def Collaborators.respond (c : Collaborators) (P : Platform) (py : PyStr) : (q : Op) → LogState → q.Answer × LogState
  | .check _ _, s => (c.check, s)
  | .evaluateToolCall _ _ _, s => (c.engine, s)
  | .approvalCallback _ _ d, s => (c.approval d, s)
  | .monotonic, s => (.nan, s)
  | .execute _ _, s => (c.sandbox, s)
  | .recordResult _ _ _, s => (.ok (), s)
  | .logCall context request d result, s => answerLog P py s context request d result

lemma Collaborators.respond_environment (c : Collaborators) (q : Op) (s : LogState) :
    Environment P py Eq s q (c.respond P py q s).1 (c.respond P py q s).2 := by
  cases q with
  | monotonic => exact .monotonic s _
  | logCall => exact answerLog_environment ..
  | _ => exact .awaited _ rfl rfl

lemma Collaborators.respond_gives (c : Collaborators) (P : Platform) (py : PyStr) (q : Op) (s : LogState) :
    c.Gives q (c.respond P py q s).1 := by
  cases q <;> first | exact rfl | exact trivial

/-- All of them agree. -/
def sampleCollaborators : Collaborators where
  check := .ok true
  engine := .returned sampleDecision
  approval _ := .ok true
  sandbox := .ok sampleResult

theorem execution_gate_executed : ∃ (tr : Trace) (result : InterceptorResult) (record : AuditRecord) (log : LogState),
    ((sampleInterceptor true).handle sampleRuntime sampleContext sampleRequest).run
      (sampleCollaborators.respond (samplePlatform executedDigest executedDigest_length) samplePy) sampleLog
        = (tr, .ok result, log) ∧
      approvals tr = [(sampleContext, sampleRequest, sampleDecision, .ok true)] ∧
      executions tr = [(sampleRequest, sampleContext)] ∧ result.allowed = true ∧ record.Says true := by
  obtain ⟨file, logger, record, hlog⟩ := logCall_succeeds
    (codecPlatform_roundTrips { hexdigest := fun _ => executedDigest, length_hexdigest := fun _ => executedDigest_length })
    samplePy sampleLog.logger
    (Or.inl rfl : FileTerminated none) sampleContext sampleRequest (fun p _ => samplePy_encodable p.2)
    (rfl : (PyVal.ofItems { allowed := true, reason := "ok; human-approved" : PolicyDecision }.modelDump).isNative = true)
    (rfl : (PyVal.ofItems? (some sampleResult.modelDump)).isNative = true) "r1" "2024-01-01T00:00:00+00:00"
  obtain ⟨tr, r, log, hrun, hlogged, hreported⟩ : ∃ tr r log,
      ((sampleInterceptor true).handle sampleRuntime sampleContext sampleRequest).run
        (sampleCollaborators.respond (samplePlatform executedDigest executedDigest_length) samplePy) sampleLog
          = (tr, r, log) ∧ logAnswers tr = [.ok record] ∧ reports tr = [.ok ()] := by
    refine ⟨_, _, _, rfl, ?_, rfl⟩
    show [(answerLog (samplePlatform executedDigest executedDigest_length) samplePy sampleLog sampleContext sampleRequest
      { allowed := true, reason := "ok; human-approved" } (some sampleResult.modelDump)).1] = _
    rw [answerLog, samplePlatform, show sampleLog.file = none from rfl, hlog]
  have hopens : sampleCollaborators.Opens (sampleInterceptor true) :=
    ⟨fun _ => rfl, sampleDecision, rfl, rfl, by simp [Supported, sampleDecision], fun _ => ⟨rfl, rfl⟩⟩
  obtain ⟨result, record', rfl, -, -, -, -, hasks, -, hopen, -⟩ := execution_gate
    (sampleCollaborators.respond_environment) (sampleCollaborators.respond_gives _ _)
    ⟨by simp [sampleCollaborators], by simp [sampleCollaborators], by simp [sampleCollaborators],
      by simp [sampleCollaborators]⟩ hrun (by simp [hreported]) (by simp [hlogged])
  obtain ⟨hexec, hallowed, -, hsays⟩ := hopen hopens
  refine ⟨tr, result, record', log, hrun, (hasks fun _ => rfl).2 sampleDecision ?_, hexec, hallowed, hsays⟩
  exact ⟨rfl, rfl, by simp [Supported, sampleDecision], by simp [sampleDecision], rfl⟩

end Guarantees

end Aimw.Interceptor
