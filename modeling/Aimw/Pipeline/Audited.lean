import Aimw.Pipeline.Executed

/-!
# What pipelines leave in the log

Any number of pipelines on one event loop and one logger.

* `HandlePath.logged_once` — a call that gets past the circuit breaker's check calls `log_call` once;
* `Logged` — the calls of `log_call` are for the first of the proposed calls, in their order;
* `pipelines_audited` — the file is one chain at every moment, and the records of a pipeline are those of the calls that
  its LLM proposed.
-/

namespace Aimw

open Lib Audit Coro Guardrails Interceptor

/-! ## One call -/

/-- A call of `log_call`: the request, the decision and the answer. -/
abbrev LogCall : Type := ToolRequest × PolicyDecision × Except Exc AuditRecord

namespace Interceptor

def logCall? : Event → Option LogCall
  | ⟨.logCall _ request decision _, a⟩ => some (request, decision, a)
  | _ => none

lemma logCall?_of_not_log {e : Event} (h : isLog e.1 = false) : logCall? e = none := by
  obtain ⟨q, a⟩ := e
  cases q <;> first | rfl | cases h

variable {ic : ToolCallInterceptor} {context : ExecutionContext} {request : ToolRequest}

lemma GatePath.silent_log {g : Trace} {r : Except Exc Bool} (h : GatePath ic context request g r) :
    g.filterMap logCall? = [] := by
  cases h <;> rfl

/-- **A call that gets past the check of the circuit breaker calls `log_call` once**, and returns what was logged. -/
theorem HandlePath.logged_once {tr : Trace} {r : Except Exc InterceptorResult} (h : HandlePath ic context request tr r) :
    (tr.filterMap logCall? = [] ∧ ∃ e, r = .error e) ∨
      ∃ d a, tr.filterMap logCall? = [(request, d, a)] ∧
        (∀ result, r = .ok result → a = .ok result.auditRecord ∧ result.decision = d ∧ result.allowed = d.allowed) ∧
        ∀ e, a = .error e → r = .error e := by
  cases h with
  | gateRaised hgate => exact Or.inl ⟨hgate.silent_log, _, rfl⟩
  | @circuitOpen g d a hgate _ =>
    refine Or.inr ⟨d, a, ?_, fun result hresult => ?_, fun e he => ?_⟩
    · rw [List.filterMap_append, hgate.silent_log]
      rfl
    · obtain ⟨ha, hdecision, hallowed, -⟩ := wrapped_eq_ok hresult
      exact ⟨ha, hdecision, hallowed⟩
    · rw [he]
      rfl
  | @decided g t v out a hgate hbody =>
    have hsilent : t.filterMap logCall? = [] :=
      List.filterMap_eq_nil_iff.2 fun e he => logCall?_of_not_log (hbody.silent_log e he)
    refine Or.inr ⟨v.decision, a, ?_, fun result hresult => ?_, fun e he => ?_⟩
    · rw [List.filterMap_append, List.filterMap_append, hgate.silent_log, hsilent]
      rfl
    · cases a with
      | error e => cases hresult
      | ok record =>
        cases out with
        | error e => cases hresult
        | ok _ =>
          obtain rfl := Except.ok.inj hresult
          exact ⟨rfl, rfl, rfl⟩
    · rw [he]
      rfl

end Interceptor

/-! ## One pipeline -/

section Pipeline

variable {S : BaseSandbox} {u : CharTable} {rt : Runtime} {ic : ToolCallInterceptor} {context : ExecutionContext}
  {request : ToolRequest}

/-- The call of `log_call` that an event is. -/
def systemLogCall? : SystemEvent S → Option LogCall
  | ⟨.governed (.collaborator q), a⟩ => logCall? ⟨q, a⟩
  | _ => none

def logCalls (tr : List (SystemEvent S)) : List LogCall := tr.filterMap systemLogCall?

@[simp] lemma logCalls_append (t u : List (SystemEvent S)) : logCalls (t ++ u) = logCalls t ++ logCalls u :=
  List.filterMap_append

lemma logCalls_piped (t : List PipelineEvent) : logCalls (t.map (piped S)) = [] := by
  simp [logCalls, systemLogCall?]

/-- The sandbox logs nothing, so the calls are those of `handle`. -/
lemma logCalls_governed {seg : List (GovernedEvent S)} {outer : Trace}
    (h : Implements Anything (carryOut S) () outer seg ()) :
    logCalls (seg.map (handled S)) = outer.filterMap logCall? := by
  rw [logCalls, List.filterMap_map]
  refine (h.observed (g := fun e => (logCall? e).toList) fun q a w w' t hrun => ?_).trans ?_
  · by_cases hexecute : isExecute q = true
    · obtain ⟨request, context, rfl⟩ : ∃ request context, q = .execute request context := by
        cases q <;> first | exact ⟨_, _, rfl⟩ | cases hexecute
      obtain ⟨t', rfl, -⟩ := runs_carryOut_execute hrun
      rw [List.filterMap_map]
      exact List.filterMap_eq_nil_iff.2 fun e _ => rfl
    · rw [runs_carryOut (by simpa using hexecute) hrun]
      cases hcall : logCall? ⟨q, a⟩ <;> simp [systemLogCall?, hcall]
  · rw [List.filterMap_eq_flatMap_toList]

/-- The calls of `log_call` are for the first of the proposed calls, and one that raises is the last. -/
inductive Logged : List ProposedToolCall → List LogCall → Prop
  | nil (calls : List ProposedToolCall) : Logged calls []
  | raised (call : ProposedToolCall) (calls : List ProposedToolCall) (d : PolicyDecision) (e : Exc) :
      Logged (call :: calls) [(call.toToolRequest, d, .error e)]
  | cons {calls : List ProposedToolCall} {l : List LogCall} (call : ProposedToolCall) (d : PolicyDecision)
      (record : AuditRecord) : Logged calls l → Logged (call :: calls) ((call.toToolRequest, d, .ok record) :: l)

lemma Logged.beginning {calls : List ProposedToolCall} {l l' : List LogCall} (h : Logged calls l) (hl : l' <+: l) :
    Logged calls l' := by
  induction h generalizing l' with
  | nil calls =>
    obtain rfl := List.prefix_nil.1 hl
    exact .nil calls
  | raised call calls d e =>
    rcases List.prefix_cons_iff.1 hl with rfl | ⟨l'', rfl, hl''⟩
    · exact .nil _
    · obtain rfl := List.prefix_nil.1 hl''
      exact .raised call calls d e
  | cons call d record _ ih =>
    rcases List.prefix_cons_iff.1 hl with rfl | ⟨l'', rfl, hl''⟩
    · exact .nil _
    · exact .cons call d record (ih hl'')

/-- Each of the calls has its result, and was logged with it. -/
inductive Recorded : List ProposedToolCall → List InterceptorResult → List LogCall → Prop
  | nil : Recorded [] [] []
  | cons {calls : List ProposedToolCall} {results : List InterceptorResult} {l : List LogCall} {call : ProposedToolCall}
      {result : InterceptorResult} : result.allowed = result.decision.allowed → Recorded calls results l →
      Recorded (call :: calls) (result :: results)
        ((call.toToolRequest, result.decision, .ok result.auditRecord) :: l)

lemma Recorded.logged {calls : List ProposedToolCall} {results : List InterceptorResult} {l : List LogCall}
    (h : Recorded calls results l) : Logged calls l := by
  induction h with
  | nil => exact .nil []
  | cons _ _ ih => exact .cons _ _ _ ih

/-- The loop logs the calls one after the other. -/
theorem logged_of_handled {calls : List ProposedToolCall} {t : List PipelineEvent} {tr : List (SystemEvent S)}
    {r : Except Exc (List InterceptorResult)} (h : Handled context calls t r)
    (himpl : Implements Anything (interceptCall S rt ic) () t tr ()) :
    Logged calls (logCalls tr) ∧ ∀ results, r = .ok results → Recorded calls results (logCalls tr) := by
  induction h generalizing tr with
  | nil =>
    cases himpl
    refine ⟨.nil [], fun results hresults => ?_⟩
    obtain rfl := Except.ok.inj hresults
    exact .nil
  | raised call calls e =>
    rcases himpl with _ | ⟨hcall, ⟨⟩⟩
    obtain ⟨seg, rfl, hrun⟩ := runs_interceptCall_handle hcall
    obtain ⟨outer, hruns, hcalls⟩ := runs_link_iff.1 hrun.anything
    refine ⟨?_, by simp⟩
    rw [List.append_nil, logCalls_governed hcalls]
    rcases (handle_path hruns).logged_once with ⟨hnone, -⟩ | ⟨d, a, hone, -, -⟩
    · rw [hnone]
      exact .nil _
    · rw [hone]
      cases a with
      | error e' => exact .raised call calls d e'
      | ok record => exact .cons call d record (.nil calls)
  | @cons calls t r call result _ ih =>
    rcases himpl with _ | ⟨hcall, hrest⟩
    obtain ⟨seg, rfl, hrun⟩ := runs_interceptCall_handle hcall
    obtain ⟨outer, hruns, hcalls⟩ := runs_link_iff.1 hrun.anything
    rw [logCalls_append, logCalls_governed hcalls]
    rcases (handle_path hruns).logged_once with ⟨-, e, he⟩ | ⟨d, a, hone, hresult, -⟩
    · cases he
    · obtain ⟨rfl, rfl, hallowed⟩ := hresult result rfl
      rw [hone]
      refine ⟨.cons call _ _ (ih hrest).1, fun results hresults => ?_⟩
      cases r with
      | error e => cases hresults
      | ok rest =>
        obtain rfl := Except.ok.inj hresults
        exact .cons hallowed ((ih hrest).2 rest rfl)

/-- At every moment, what a pipeline has logged are the first of the proposed calls. -/
theorem logged_of_advances {call : PipelineCall} {p : Coro (SystemOp S) SystemOp.Answer Exc PipelineResult}
    {tr : List (SystemEvent S)} (h : Advances (call.program S u rt) tr p) : Logged (proposals tr) (logCalls tr) := by
  rcases stages_of_advances h with ⟨g, later, hg⟩ | ⟨g, g', now, loop, t, r', heq, ⟨later, hnow⟩, hhandled, himpl⟩
  · -- nothing is logged yet
    have hall := logCalls_piped (S := S) g
    rw [← hg, logCalls_append] at hall
    rw [(List.append_eq_nil_iff.1 hall).1]
    exact .nil _
  · have hloop : logCalls now <+: logCalls loop := by
      have hall := congrArg logCalls hnow
      rw [logCalls_append, logCalls_append, logCalls_piped, List.append_nil] at hall
      exact ⟨_, hall⟩
    have hnowLogged := (logged_of_handled hhandled himpl).1.beginning hloop
    rwa [← List.nil_append (logCalls now), ← logCalls_piped g, ← logCalls_append, ← heq] at hnowLogged

/-- A pipeline that has returned has logged all of them. -/
theorem recorded_of_runs {call : PipelineCall} {tr : List (SystemEvent S)} {result : PipelineResult}
    (h : Runs Anything () (call.program S u rt) tr (.ok result) ()) :
    Recorded (proposals tr) result.toolCallResults (logCalls tr) := by
  obtain ⟨g, g', loop, t, r', rfl, hnone, hhandled, himpl, hr⟩ := run_stages h
  obtain rfl := hr result rfl
  have hrecorded := (logged_of_handled hhandled himpl).2 _ rfl
  rwa [proposals_append, hnone, List.append_nil, logCalls_append, logCalls_append, logCalls_piped, logCalls_piped,
    List.nil_append, List.append_nil]

end Pipeline

/-! ## Any number of pipelines -/

/-- The collaborators answer as they like, and raise what they like; `log_call` is the logger's own. -/
inductive SystemAnswering (S : BaseSandbox) (P : Platform) (py : PyStr) :
    LogState → (q : SystemOp S) → q.Answer → LogState → Prop
  | other (s : LogState) (q : SystemOp S) (a : q.Answer) : systemLogCall? ⟨q, a⟩ = none →
      SystemAnswering S P py s q a s
  | logged {s : LogState} {context : ExecutionContext} {request : ToolRequest} {decision : PolicyDecision}
      {sandboxResult : Option (List (String × PyVal))} {recordId timestamp : String} {file : Option String}
      {logger : HashChainedJSONLLogger} {record : AuditRecord} :
      s.logger.logCall P py s.file context request decision sandboxResult recordId timestamp
        = .ok (file, logger, record) →
      SystemAnswering S P py s (.governed (.collaborator (.logCall context request decision sandboxResult))) (.ok record)
        ⟨file, logger⟩
  | refused {s : LogState} {context : ExecutionContext} {request : ToolRequest} {decision : PolicyDecision}
      {sandboxResult : Option (List (String × PyVal))} {recordId timestamp : String} {e : Exc} :
      s.logger.logCall P py s.file context request decision sandboxResult recordId timestamp = .error e →
      SystemAnswering S P py s (.governed (.collaborator (.logCall context request decision sandboxResult))) (.error e) s

section System

variable {S : BaseSandbox} {u : CharTable} {rt : Runtime} {P : Platform} {py : PyStr} {ι : Type}

/-- No dictionary that is handed to `log_call` holds a key twice. -/
def WellKeyedHanded : SystemEvent S → Prop
  | ⟨.governed (.collaborator q), a⟩ => WellKeyedLogged ⟨q, a⟩
  | _ => True

/-- What is handed to `log_call` is faithful. -/
def FaithfullyHanded : SystemEvent S → Prop
  | ⟨.governed (.collaborator q), a⟩ => FaithfullyLogged ⟨q, a⟩
  | _ => True

/-- The record that a call of `log_call` returned. -/
def systemRecord? (e : SystemEvent S) : Option AuditRecord := (systemLogCall? e).bind fun l => l.2.2.toOption

/-- The records that were written, with the pipelines that wrote them. -/
abbrev systemWritten (past : List (Moment ι LogState (SystemOp S) SystemOp.Answer)) : List (ι × AuditRecord) :=
  seen systemRecord? past

/-- An answer of `log_call` is about what was handed over. -/
def AboutItsCall (l : LogCall) : Prop :=
  ∀ record, l.2.2 = .ok record → record.callId = l.1.callId ∧ record.Says l.2.1.allowed

lemma aboutItsCall_of_answering {w w' : LogState} {q : SystemOp S} {a : q.Answer}
    (h : SystemAnswering S P py w q a w') {l : LogCall} (hl : systemLogCall? ⟨q, a⟩ = some l) : AboutItsCall l := by
  cases h with
  | other _ _ hnone => exact absurd (hnone.symm.trans hl) (by simp)
  | logged hlog =>
    obtain rfl := Option.some.inj hl
    rintro record ⟨⟩
    obtain ⟨hid, hdecision, -⟩ := logCall_record hlog
    exact ⟨hid, by rw [AuditRecord.Says, hdecision]; rfl⟩
  | refused =>
    obtain rfl := Option.some.inj hl
    rintro record ⟨⟩

/-- The records of calls that were logged in order name them in order. -/
lemma Logged.callIds {calls : List ProposedToolCall} {l : List LogCall} (h : Logged calls l)
    (habout : ∀ x ∈ l, AboutItsCall x) : ∃ done, done <+: calls ∧
      (l.filterMap fun x => x.2.2.toOption).map AuditRecord.callId = done.map ProposedToolCall.callId := by
  induction h with
  | nil calls => exact ⟨[], List.nil_prefix, rfl⟩
  | raised => exact ⟨[], List.nil_prefix, rfl⟩
  | cons call d record _ ih =>
    obtain ⟨hfirst, hrest⟩ := List.forall_mem_cons.1 habout
    obtain ⟨done, hdone, hids⟩ := ih hrest
    refine ⟨call :: done, List.prefix_cons_inj call |>.2 hdone, ?_⟩
    rw [List.filterMap_cons]
    show record.callId :: _ = call.callId :: _
    rw [hids, (hfirst record rfl).1]
    rfl

/-- The records of calls that have returned are those of their results. -/
lemma Recorded.results {calls : List ProposedToolCall} {results : List InterceptorResult} {l : List LogCall}
    (h : Recorded calls results l) (habout : ∀ x ∈ l, AboutItsCall x) :
    l.filterMap (fun x => x.2.2.toOption) = results.map InterceptorResult.auditRecord ∧
      List.Forall₂ (fun call result => result.auditRecord.callId = call.callId ∧
        result.auditRecord.Says result.allowed) calls results := by
  induction h with
  | nil => exact ⟨rfl, .nil⟩
  | cons hallowed _ ih =>
    obtain ⟨hfirst, hrest⟩ := List.forall_mem_cons.1 habout
    obtain ⟨hrecords, hresults⟩ := ih hrest
    obtain ⟨hid, hsays⟩ := hfirst _ rfl
    refine ⟨?_, .cons ⟨hid, by rwa [hallowed]⟩ hresults⟩
    rw [List.filterMap_cons]
    show _ :: _ = _
    rw [hrecords]
    rfl

variable [DecidableEq ι] {suspends : SystemOp S → Bool} {calls : ι → PipelineCall} {log : LogState}
  {s : Loop ι LogState (SystemOp S) SystemOp.Answer Exc PipelineResult} {rs : List AuditRecord}

/-- The states of any number of pipelines on one logger. -/
abbrev Governing (suspends : SystemOp S → Bool) (u : CharTable) (rt : Runtime) (P : Platform) (py : PyStr)
    (calls : ι → PipelineCall) (log : LogState) :
    Loop ι LogState (SystemOp S) SystemOp.Answer Exc PipelineResult → Prop :=
  Reached suspends (SystemAnswering S P py) (fun _ _ => False) (fun i => (calls i).program S u rt) log

/-- The file holds the chain of what was written. -/
theorem holds_systemWritten (hP : P.Stores) (hlog : Holds P log.file log.logger.prevHash rs)
    (h : Governing suspends u rt P py calls log s) (hkeys : ∀ m ∈ s.past, WellKeyedHanded m.event)
    (hfaithful : ∀ m ∈ s.past, FaithfullyHanded m.event) :
    Holds P s.world.file s.world.logger.prevHash (rs ++ (systemWritten s.past).map fun w => w.2.reread) := by
  induction h with
  | init => simpa [seen] using hlog
  | start _ _ _ _ ih => exact ih hkeys hfaithful
  | @resume s i q k a w _ _ _ hE ih =>
    obtain ⟨hkeysBefore, hkeysNow⟩ := List.forall_mem_append.1 hkeys
    obtain ⟨hbefore, hnow⟩ := List.forall_mem_append.1 hfaithful
    have hkeyed : WellKeyedHanded ⟨q, a⟩ := hkeysNow _ (List.mem_singleton_self _)
    have hfaithfully : FaithfullyHanded ⟨q, a⟩ := hnow _ (List.mem_singleton_self _)
    have hchain := ih hkeysBefore hbefore
    rw [systemWritten, seen_append, List.map_append, ← List.append_assoc]
    cases hE with
    | other _ _ hsilent => simpa [seen, systemRecord?, hsilent] using hchain
    | logged happended => exact logCall_faithful (by exact hkeyed) (by exact hfaithfully) happended hP hchain
    | refused => simpa [seen, systemRecord?, systemLogCall?, logCall?, Except.toOption] using hchain
  | moved _ hmoved _ => exact hmoved.elim

/-- **The log of any number of pipelines.**  At every moment the file is one chain.  The records of a pipeline are
those of the first calls that its LLM proposed, in their order; once it has returned, of all of them, and its results
are what was recorded. -/
theorem pipelines_audited (hP : P.Stores) (hlog : Holds P log.file log.logger.prevHash rs)
    (h : Governing suspends u rt P py calls log s) (hkeys : ∀ m ∈ s.past, WellKeyedHanded m.event)
    (hfaithful : ∀ m ∈ s.past, FaithfullyHanded m.event) :
    verifyChain P s.world.file = .ok ⟨true, rs.length + (systemWritten s.past).length, none⟩ ∧
      Reads P (lines s.world.file) (rs ++ (systemWritten s.past).map fun w => w.2.reread) ∧
      ∀ i, ∃ done records, (systemWritten s.past).filter (fun w => w.1 = i) = records.map (fun record => (i, record)) ∧
        done <+: proposals (own i s.past) ∧ records.map AuditRecord.callId = done.map ProposedToolCall.callId ∧
        ∀ result, (s.tasks i).bind result? = some (.ok result) →
          records = result.toolCallResults.map InterceptorResult.auditRecord ∧
            List.Forall₂ (fun call result => result.auditRecord.callId = call.callId ∧
              result.auditRecord.Says result.allowed) (proposals (own i s.past)) result.toolCallResults := by
  have hholds := holds_systemWritten hP hlog h hkeys hfaithful
  refine ⟨by simpa using hholds.verify, hholds.reads, fun i => ?_⟩
  have habout : ∀ x ∈ logCalls (own i s.past), AboutItsCall x := by
    intro x hx
    obtain ⟨e, he, hx⟩ := List.mem_filterMap.1 hx
    obtain ⟨m, hm, -, rfl⟩ := mem_own.1 he
    exact aboutItsCall_of_answering (h.answered m hm) hx
  have hrecords : (own i s.past).filterMap systemRecord? =
      (logCalls (own i s.past)).filterMap fun x => x.2.2.toOption := by
    rw [logCalls, List.filterMap_filterMap]
    rfl
  cases hp : s.tasks i with
  | none =>
    refine ⟨[], [], ?_, List.nil_prefix, rfl, by simp⟩
    rw [systemWritten, seen_own, h.own_advances.2 hp]
    rfl
  | some p =>
    obtain ⟨done, hdone, hids⟩ := (logged_of_advances (h.advances hp)).callIds habout
    refine ⟨done, (own i s.past).filterMap systemRecord?, seen_own _ _ _, hdone, by rw [hrecords, hids], ?_⟩
    intro result hresult
    rw [hrecords]
    exact (recorded_of_runs ((h.advances hp).runs_of_result hresult)).results habout

end System

/-! ### One pipeline, from the prompt to its record -/

/-- What the tool returns. -/
def sampleFound : SandboxResult where
  stdout := "found"
  stderr := ""
  exitCode := 0
  durationMs := sampleRuntime.elapsedMs .nan .nan

def sampleAllowed : PolicyDecision := { allowed := true, reason := "ok" }

/-- What is handed to the log when the call was executed. -/
def foundRecord (recordId : String) : AuditRecord :=
  recordOfCall sampleContext ⟨"t", "f", "c1", []⟩ sampleAllowed (some sampleFound.modelDump) recordId
    "2024-01-01T00:00:00+00:00"

lemma found_handed {P : Platform} (hP : P.Stores) (log : LogState) (recordId : String) : ∃ record log',
    SystemAnswering sampleSandbox P samplePy log (.governed (.collaborator (.logCall sampleContext
      sampleProposal.toToolRequest sampleAllowed (some sampleFound.modelDump)))) (.ok record) log' ∧
      log.logger.append P log.file (foundRecord recordId) = .ok (log'.file, log'.logger, record) := by
  have hredacted : HashChainedJSONLLogger.redactRequest P samplePy log.logger sampleProposal.toToolRequest =
      .ok ⟨"t", "f", "c1", []⟩ := by
    cases hredact : log.logger.redactParameters <;> simp [HashChainedJSONLLogger.redactRequest, hredact] <;> rfl
  obtain ⟨file, logger, record, happ⟩ := append_succeeds hP log.logger log.file
    (stable_of_isNative_record (rfl : (foundRecord recordId).isNative = true))
  exact ⟨record, ⟨file, logger⟩, .logged ((logCall_of_redacted hredacted ..).trans happ), happ⟩

/-- The call is executed; `record` is what is written. -/
def governedTrace (record : AuditRecord) : List (SystemEvent sampleSandbox) :=
  [piped _ ⟨.verify "token" sampleContext, .ok true⟩, piped _ ⟨.countCall "a", (1 : ℤ)⟩,
    piped _ ⟨.proposeToolCalls "Find it." sampleContext, .ok [sampleProposal]⟩,
    handled _ (collaborated _ ⟨.evaluateToolCall sampleContext sampleProposal.toToolRequest
      (sampleInterceptor false).decisionTimeoutS, .returned sampleAllowed⟩),
    handled _ (collaborated _ ⟨.monotonic, JFloat.nan⟩),
    handled _ (sandboxed _ ⟨Sandbox.SandboxOp.monotonic, JFloat.nan⟩), handled _ (sandboxed _ sampleCall),
    handled _ (sandboxed _ ⟨Sandbox.SandboxOp.monotonic, JFloat.nan⟩),
    handled _ (collaborated _ ⟨.logCall sampleContext sampleProposal.toToolRequest sampleAllowed
      (some sampleFound.modelDump), .ok record⟩),
    piped _ ⟨.complete "Find it." sampleContext, .ok "Done."⟩]

lemma governed_run {P : Platform} {log log' : LogState} {record : AuditRecord}
    (hlog : SystemAnswering sampleSandbox P samplePy log
      (.governed (.collaborator (.logCall sampleContext sampleProposal.toToolRequest sampleAllowed
        (some sampleFound.modelDump)))) (.ok record) log') :
    Runs (SystemAnswering sampleSandbox P samplePy) log
      (samplePipelineCall.program sampleSandbox .ascii sampleRuntime) (governedTrace record)
      (.ok ⟨"Done.", [⟨true, sampleAllowed, some sampleFound, record⟩]⟩) log' := by
  unfold governedTrace
  exact .call (.other _ _ _ rfl) <| .call (.other _ _ _ rfl) <| .call (.other _ _ _ rfl) <|
    .call (.other _ _ _ rfl) <| .call (.other _ _ _ rfl) <| .call (.other _ _ _ rfl) <| .call (.other _ _ _ rfl) <|
    .call (.other _ _ _ rfl) <| .call hlog <| .call (.other _ _ _ rfl) (.ret _ _)

lemma systemWritten_governed {s : Loop Unit LogState (SystemOp sampleSandbox) SystemOp.Answer Exc PipelineResult}
    {record : AuditRecord} (hown : own () s.past = governedTrace record) : systemWritten s.past = [((), record)] := by
  have hseen := seen_own systemRecord? () s.past
  rw [hown] at hseen
  exact (List.filter_eq_self.2 fun x _ => by simp).symm.trans hseen

lemma governed_faithful (record : AuditRecord) :
    ∀ e ∈ governedTrace record, WellKeyedHanded e ∧ FaithfullyHanded e := by
  have hdecision : (PyVal.ofItems sampleAllowed.modelDump).isWellKeyed = true ∧
      (PyVal.ofItems sampleAllowed.modelDump).isFaithful = true := by decide +kernel
  have hsandbox : (PyVal.ofItems? (some sampleFound.modelDump)).isWellKeyed = true ∧
      (PyVal.ofItems? (some sampleFound.modelDump)).isFaithful = true := by decide +kernel
  intro e he
  simp only [governedTrace, List.mem_cons, List.not_mem_nil, or_false] at he
  rcases he with rfl | rfl | rfl | rfl | rfl | rfl | rfl | rfl | rfl | rfl
  case inr.inr.inr.inr.inr.inr.inr.inr.inl => exact ⟨⟨hdecision.1, hsandbox.1⟩, hdecision.2, hsandbox.2⟩
  all_goals exact ⟨trivial, trivial⟩

lemma governed_reached : ∃ s record,
    Governing (S := sampleSandbox) (fun _ => true) .ascii sampleRuntime (storingPlatform sampleSha256) samplePy
      (alone samplePipelineCall) sampleLog s ∧ own () s.past = governedTrace record := by
  obtain ⟨record, log, hlog, -⟩ := found_handed (storingPlatform_stores sampleSha256) sampleLog "r1"
  obtain ⟨s, hreached, hown, -⟩ := reached_alone _ (governed_run hlog)
  exact ⟨s, record, hreached, hown⟩

theorem pipelines_audited_governed : ∃ s record,
    Governing (S := sampleSandbox) (fun _ => true) .ascii sampleRuntime (storingPlatform sampleSha256) samplePy
      (alone samplePipelineCall) sampleLog s ∧ systemWritten s.past = [((), record)] ∧
      verifyChain (storingPlatform sampleSha256) s.world.file = .ok ⟨true, 1, none⟩ := by
  obtain ⟨s, record, h, hown⟩ := governed_reached
  have hfaithful : ∀ m ∈ s.past, WellKeyedHanded m.event ∧ FaithfullyHanded m.event := fun m hm =>
    governed_faithful record m.event (hown ▸ mem_own.2 ⟨m, hm, rfl, rfl⟩)
  have hwritten := systemWritten_governed hown
  have hverify := (pipelines_audited (storingPlatform_stores sampleSha256) (sampleLog_holds _) h
    (fun m hm => (hfaithful m hm).1) fun m hm => (hfaithful m hm).2).1
  rw [hwritten] at hverify
  exact ⟨s, record, h, hwritten, hverify⟩

end Aimw
