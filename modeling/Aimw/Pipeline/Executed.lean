import Aimw.Pipeline.System

/-!
# What a pipeline executes

* `HandlePath.returned` — a call of `handle` that returns says whether its sandbox was started, and how it ended;
* `Executed` — the calls that are allowed are executed one after the other, and the others are not;
* `pipelines_execute` — at every moment a pipeline has executed what the results of its first calls say, in the order of
  the proposals, and perhaps a part of the next.
-/

namespace Aimw

open Lib Audit Coro Guardrails Interceptor

/-! ## One call -/

namespace Interceptor

/-- What the result of the call says about how the sandbox ended. -/
inductive Reports : Except Exc SandboxResult → SandboxResult → Prop
  | returned (s : SandboxResult) : Reports (.ok s) s
  | raised {exc : Exc} (elapsed : JFloat) : exc.isException = true →
      Reports (.error exc) { stdout := "", stderr := exc.text, exitCode := 1, durationMs := elapsed }

variable {ic : ToolCallInterceptor} {context : ExecutionContext} {request : ToolRequest}

lemma Execution.reports {u : Trace} {s : SandboxResult} (h : Execution context request u (.ok s)) :
    ∃ before out after, u = before ++ ⟨.execute request context, out⟩ :: after ∧ executions before = [] ∧
      executions after = [] ∧ Reports out s := by
  generalize hr : (Except.ok s : Except Exc SandboxResult) = r at h
  cases h with
  | returned start s' =>
    obtain rfl := Except.ok.inj hr
    exact ⟨[⟨.monotonic, start⟩], .ok s, [], rfl, rfl, rfl, .returned s⟩
  | @raised start now elapsed exc he =>
    obtain rfl := Except.ok.inj hr
    exact ⟨[⟨.monotonic, start⟩], .error exc, [⟨.monotonic, now⟩], rfl, rfl, rfl, .raised elapsed he⟩
  | interrupted => cases hr

lemma wrapped_eq_ok {d : PolicyDecision} {s : Option SandboxResult} {a : Except Exc AuditRecord}
    {result : InterceptorResult} (h : wrapped d s a = .ok result) :
    a = .ok result.auditRecord ∧ result.decision = d ∧ result.allowed = d.allowed ∧ result.sandboxResult = s := by
  cases a with
  | error e => cases h
  | ok record =>
    obtain rfl := Except.ok.inj h
    exact ⟨rfl, rfl, rfl, rfl⟩

/-- **A call that returns says what became of its sandbox.** -/
theorem HandlePath.returned {tr : Trace} {result : InterceptorResult} (h : HandlePath ic context request tr (.ok result)) :
    (result.allowed = false ∧ result.sandboxResult = none ∧ executions tr = []) ∨
      ∃ before out after s, result.allowed = true ∧ result.sandboxResult = some s ∧ Reports out s ∧
        tr = before ++ ⟨.execute request context, out⟩ :: after ∧ executions before = [] ∧ executions after = [] := by
  generalize hr : (Except.ok result : Except Exc InterceptorResult) = r at h
  cases h with
  | gateRaised => cases hr
  | circuitOpen hgate hd =>
    obtain ⟨-, -, hallowed, hnone⟩ := wrapped_eq_ok hr.symm
    refine Or.inl ⟨hallowed.trans hd, hnone, ?_⟩
    rw [executions_append, hgate.calls.2.2.1]
    rfl
  | @decided g t v out a hgate hbody =>
    obtain ⟨res, hres, hout⟩ : ∃ res, wrapped v.decision v.sandboxResult a = .ok res ∧ (out.map fun _ => res) = .ok result := by
      cases hwrapped : wrapped v.decision v.sandboxResult a with
      | error e =>
        rw [hwrapped] at hr
        cases hr
      | ok res =>
        rw [hwrapped] at hr
        exact ⟨res, rfl, hr.symm⟩
    obtain ⟨rfl, rfl⟩ : out = .ok () ∧ res = result := by
      cases out with
      | error e => cases hout
      | ok _ => exact ⟨rfl, Except.ok.inj hout⟩
    obtain ⟨-, -, hallowed, hsandbox⟩ := wrapped_eq_ok hres
    have hwhole : ∀ {t : Trace}, executions t = [] →
        executions (g ++ t ++ [logged context request v.decision v.sandboxResult a]) = [] := by
      intro t ht
      rw [executions_append, executions_append, hgate.calls.2.2.1, ht]
      rfl
    generalize ho : (Except.ok () : Except Exc Unit) = o at hbody
    cases hbody with
    | undecided => cases ho
    | denied _ hd => exact Or.inl ⟨hallowed.trans hd, hsandbox, hwhole rfl⟩
    | unresolved => cases ho
    | refused _ hresolution hd' =>
      refine Or.inl ⟨hallowed.trans hd', hsandbox, hwhole ?_⟩
      rw [(evaluated_calls ..).2.2.2.1, hresolution.calls.2.2.1]
    | interrupted => cases ho
    | @executed d d' t u w s _ hd hresolution hd' hexecution houtcome =>
      obtain ⟨before, out, after, rfl, hbefore, hafter, hreports⟩ := hexecution.reports
      refine Or.inr ⟨g ++ evaluated ic context request (.returned d) :: (t ++ before), out,
        after ++ w ++ [logged context request d' (some s) a], s, hallowed.trans hd', hsandbox, hreports, ?_, ?_, ?_⟩
      · simp only [List.append_assoc, List.cons_append]
      · rw [executions_append, hgate.calls.2.2.1, (evaluated_calls ..).2.2.2.1, executions_append,
          hresolution.calls.2.2.1, hbefore]
        rfl
      · rw [executions_append, executions_append, hafter, houtcome.calls.2.2.2.1]
        rfl

end Interceptor

/-! ## What the sandbox has done -/

section Events

variable {S : BaseSandbox}

/-- The calls that the sandbox made. -/
def sandboxEvents (tr : List (SystemEvent S)) : List ((q : S.Op) × S.Answer q) :=
  tr.filterMap fun
    | ⟨.governed (.sandbox q), a⟩ => some ⟨q, a⟩
    | _ => none

/-- The calls that the LLM proposed. -/
def proposals (tr : List (SystemEvent S)) : List ProposedToolCall :=
  tr.flatMap fun
    | ⟨.pipeline (.proposeToolCalls _ _), .ok calls⟩ => calls
    | _ => []

@[simp] lemma sandboxEvents_append (t u : List (SystemEvent S)) :
    sandboxEvents (t ++ u) = sandboxEvents t ++ sandboxEvents u := List.filterMap_append

lemma sandboxEvents_prefix {t u : List (SystemEvent S)} (h : t <+: u) : sandboxEvents t <+: sandboxEvents u := by
  obtain ⟨v, rfl⟩ := h
  rw [sandboxEvents_append]
  exact List.prefix_append ..

@[simp] lemma proposals_append (t u : List (SystemEvent S)) : proposals (t ++ u) = proposals t ++ proposals u :=
  List.flatMap_append

lemma sandboxEvents_piped (t : List PipelineEvent) : sandboxEvents (t.map (piped S)) = [] := by
  simp [sandboxEvents]

lemma sandboxEvents_collaborated (t : Trace) :
    sandboxEvents ((t.map (collaborated S)).map (handled S)) = [] := by
  simp [sandboxEvents]

lemma sandboxEvents_sandboxed (t : List ((q : S.Op) × S.Answer q)) :
    sandboxEvents ((t.map (sandboxed S)).map (handled S)) = t := by
  simp [sandboxEvents, List.filterMap_map, Function.comp_def]

lemma proposals_handled (t : List (GovernedEvent S)) : proposals (t.map (handled S)) = [] := by
  simp [proposals, List.flatMap_map]

end Events

variable {S : BaseSandbox} {u : CharTable} {rt : Runtime} {ic : ToolCallInterceptor} {context : ExecutionContext}
  {request : ToolRequest}

/-- Calls of the interceptor with one execution among them. -/
lemma sandboxEvents_of_execution {before after : Trace} {out : Except Exc SandboxResult} {seg : List (GovernedEvent S)}
    (h : Implements Anything (carryOut S) () (before ++ ⟨.execute request context, out⟩ :: after) seg ())
    (hbefore : executions before = []) (hafter : executions after = []) :
    Runs Anything () (S.execute request context) (sandboxEvents (seg.map (handled S))) out () := by
  obtain ⟨_, t₁, t₂, rfl, h₁, h₂⟩ := implements_append_iff.1 h
  rcases h₂ with _ | ⟨hexecute, h₂⟩
  obtain ⟨t, rfl, hrun⟩ := runs_carryOut_execute hexecute
  rw [implements_without_execute h₁ (not_execute_of_executions hbefore),
    implements_without_execute h₂ (not_execute_of_executions hafter)]
  simpa only [List.map_append, sandboxEvents_append, sandboxEvents_collaborated, sandboxEvents_sandboxed,
    List.nil_append, List.append_nil] using hrun.anything

variable (S context request) in
/-- What the sandbox did for a call, read off the call's result. -/
inductive Outcomes : Except Exc InterceptorResult → List ((q : S.Op) × S.Answer q) → Prop
  | denied {result : InterceptorResult} : result.allowed = false → result.sandboxResult = none →
      Outcomes (.ok result) []
  | executed {result : InterceptorResult} {t : List ((q : S.Op) × S.Answer q)} {out : Except Exc SandboxResult}
      {s : SandboxResult} : result.allowed = true → Runs Anything () (S.execute request context) t out () →
      result.sandboxResult = some s → Reports out s → Outcomes (.ok result) t
  | idle (e : Exc) : Outcomes (.error e) []
  | raised {t : List ((q : S.Op) × S.Answer q)} {out : Except Exc SandboxResult} (e : Exc) :
      Runs Anything () (S.execute request context) t out () → Outcomes (.error e) t

theorem outcomes_of_governed {seg : List (GovernedEvent S)} {r : Except Exc InterceptorResult}
    (h : Runs Anything () (ic.governed S rt context request) seg r ()) :
    Outcomes S context request r (sandboxEvents (seg.map (handled S))) := by
  obtain ⟨outer, hruns, himpl⟩ := runs_link_iff.1 h
  have hpath := handle_path hruns
  have hidle : executions outer = [] → sandboxEvents (seg.map (handled S)) = [] := by
    intro hnone
    rw [implements_without_execute himpl (not_execute_of_executions hnone), sandboxEvents_collaborated]
  cases r with
  | ok result =>
    rcases hpath.returned with ⟨hallowed, hresult, hnone⟩ |
        ⟨before, out, after, s, hallowed, hresult, hreports, rfl, hbefore, hafter⟩
    · rw [hidle hnone]
      exact .denied hallowed hresult
    · exact .executed hallowed (sandboxEvents_of_execution himpl hbefore hafter) hresult hreports
  | error e =>
    by_cases hnone : executions outer = []
    · rw [hidle hnone]
      exact .idle e
    · obtain ⟨before, out, after, rfl, -, hbefore, hafter⟩ := hpath.execute_split hnone
      exact .raised e (sandboxEvents_of_execution himpl hbefore hafter)

/-! ## The whole run -/

variable (S context) in
/-- Each of the calls has its result, and what the sandbox did is what the results say, one after the other. -/
inductive Executed : List ProposedToolCall → List InterceptorResult → List ((q : S.Op) × S.Answer q) → Prop
  | nil : Executed [] [] []
  | cons {call : ProposedToolCall} {result : InterceptorResult} {calls : List ProposedToolCall}
      {results : List InterceptorResult} {t ts : List ((q : S.Op) × S.Answer q)} :
      Outcomes S context call.toToolRequest (.ok result) t → Executed calls results ts →
      Executed (call :: calls) (result :: results) (t ++ ts)

/-- The loop proposes nothing, and executes what its results say. -/
theorem executed_of_handled {calls : List ProposedToolCall} {t : List PipelineEvent} {tr : List (SystemEvent S)}
    {r : Except Exc (List InterceptorResult)} (h : Handled context calls t r)
    (himpl : Implements Anything (interceptCall S rt ic) () t tr ()) :
    proposals tr = [] ∧ ∀ results, r = .ok results → Executed S context calls results (sandboxEvents tr) := by
  induction h generalizing tr with
  | nil =>
    cases himpl
    refine ⟨rfl, fun results hresults => ?_⟩
    obtain rfl := Except.ok.inj hresults
    exact .nil
  | raised call calls e =>
    rcases himpl with _ | ⟨hcall, ⟨⟩⟩
    obtain ⟨seg, rfl, -⟩ := runs_interceptCall_handle hcall
    rw [List.append_nil]
    exact ⟨proposals_handled seg, by simp⟩
  | @cons calls t r call result _ ih =>
    rcases himpl with _ | ⟨hcall, hrest⟩
    obtain ⟨seg, rfl, hrun⟩ := runs_interceptCall_handle hcall
    obtain ⟨hnone, hloop⟩ := ih hrest
    refine ⟨by rw [proposals_append, proposals_handled, hnone]; rfl, fun results hresults => ?_⟩
    cases r with
    | error e => cases hresults
    | ok rest =>
      obtain rfl := Except.ok.inj hresults
      rw [sandboxEvents_append]
      exact .cons (outcomes_of_governed hrun.anything) (hloop rest rfl)

/-! ## The stages of a run -/

section Stages

variable {prompt bearerToken : String} {gateway : LiteLLMGatewayShim}

/-- The gateway proposes nothing. -/
lemma GatewayPath.no_proposal {g : List PipelineEvent} {r : Except Exc String}
    (h : GatewayPath u prompt bearerToken context gateway g r) : proposals (g.map (piped S)) = [] := by
  cases h <;> rfl

/-- **A run has three stages**: the calls up to the proposal, the loop over the proposed calls, and the last answer. -/
theorem run_stages {call : PipelineCall} {tr : List (SystemEvent S)} {r : Except Exc PipelineResult}
    (h : Runs Anything () (call.program S u rt) tr r ()) :
    ∃ (g g' : List PipelineEvent) (loop : List (SystemEvent S)) (t : List PipelineEvent)
        (r' : Except Exc (List InterceptorResult)), tr = g.map (piped S) ++ (loop ++ g'.map (piped S)) ∧
      proposals (loop ++ g'.map (piped S)) = [] ∧ Handled call.context (proposals (g.map (piped S))) t r' ∧
      Implements Anything (interceptCall S rt call.interceptor) () t loop () ∧
      ∀ result, r = .ok result → r' = .ok result.toolCallResults := by
  obtain ⟨outer, hruns, himpl⟩ := runs_link_iff.1 h
  have hnothing : ∀ {g : List PipelineEvent} {e : Exc}, Implements Anything (interceptCall S rt call.interceptor) () g tr () →
      (∀ e ∈ g, isHandle e.1 = false) → proposals (g.map (piped S)) = [] → r = .error e →
      ∃ (g g' : List PipelineEvent) (loop : List (SystemEvent S)) (t : List PipelineEvent)
        (r' : Except Exc (List InterceptorResult)), tr = g.map (piped S) ++ (loop ++ g'.map (piped S)) ∧
        proposals (loop ++ g'.map (piped S)) = [] ∧ Handled call.context (proposals (g.map (piped S))) t r' ∧
        Implements Anything (interceptCall S rt call.interceptor) () t loop () ∧
        ∀ result, r = .ok result → r' = .ok result.toolCallResults := by
    intro g e hcalls hg hnone hr
    refine ⟨g, [], [], [], .ok [], ?_, rfl, ?_, .nil (), fun result hresult => ?_⟩
    · rw [implements_without_handle hcalls hg]
      simp
    · rw [hnone]
      exact .nil
    · rw [hr] at hresult
      cases hresult
  cases run_path hruns with
  | turnedAway hgateway => exact hnothing himpl hgateway.not_handle hgateway.no_proposal rfl
  | rejected hgateway _ => exact hnothing himpl hgateway.not_handle hgateway.no_proposal rfl
  | @unproposed g masked clean e hgateway _ =>
    refine hnothing himpl (List.forall_mem_append.2 ⟨hgateway.not_handle, by simp [isHandle]⟩) ?_ rfl
    rw [List.map_append, proposals_append, hgateway.no_proposal]
    rfl
  | @stopped g t masked clean calls e hgateway _ hhandled =>
    obtain ⟨_, t₁, t₂, rfl, h₁, h₂⟩ := implements_append_iff.1 himpl
    obtain rfl := implements_without_handle h₁ hgateway.not_handle
    rcases h₂ with _ | ⟨hpropose, hloop⟩
    obtain rfl := runs_interceptCall rfl hpropose
    refine ⟨g ++ [⟨.proposeToolCalls clean call.context, .ok calls⟩], [], _, t, .error e, by simp, ?_, ?_, hloop, by simp⟩
    · rw [List.map_nil, List.append_nil]
      exact (executed_of_handled hhandled hloop).1
    · rw [List.map_append, proposals_append, hgateway.no_proposal]
      simpa [proposals] using hhandled
  | @completed g t masked clean calls results a hgateway _ hhandled =>
    obtain ⟨_, t₁, t₂, rfl, h₁, h₂⟩ := implements_append_iff.1 himpl
    obtain rfl := implements_without_handle h₁ hgateway.not_handle
    rcases h₂ with _ | ⟨hpropose, hrest⟩
    obtain rfl := runs_interceptCall rfl hpropose
    obtain ⟨_, t₃, t₄, rfl, hloop, hcomplete⟩ := implements_append_iff.1 hrest
    obtain rfl := implements_without_handle hcomplete (by simp [isHandle])
    refine ⟨g ++ [⟨.proposeToolCalls clean call.context, .ok calls⟩], [⟨.complete clean call.context, a⟩], t₃, t,
      .ok results, by simp, ?_, ?_, hloop, fun result hresult => ?_⟩
    · rw [proposals_append, (executed_of_handled hhandled hloop).1]
      rfl
    · rw [List.map_append, proposals_append, hgateway.no_proposal]
      simpa [proposals] using hhandled
    · cases hfinal : a.bind fun raw => call.pipeline.guardrail.inspectOutput raw call.context with
      | error e =>
        rw [hfinal] at hresult
        cases hresult
      | ok final =>
        rw [hfinal] at hresult
        obtain rfl := Except.ok.inj hresult
        rfl

/-- A pipeline on its way is at the first stage, or has proposed what it is to handle. -/
theorem stages_of_advances {call : PipelineCall} {p : Coro (SystemOp S) SystemOp.Answer Exc PipelineResult}
    {tr : List (SystemEvent S)} (h : Advances (call.program S u rt) tr p) :
    (∃ g : List PipelineEvent, tr <+: g.map (piped S)) ∨
      ∃ (g g' : List PipelineEvent) (now loop : List (SystemEvent S)) (t : List PipelineEvent)
        (r' : Except Exc (List InterceptorResult)), tr = g.map (piped S) ++ now ∧ now <+: loop ++ g'.map (piped S) ∧
        Handled call.context (proposals tr) t r' ∧
        Implements Anything (interceptCall S rt call.interceptor) () t loop () := by
  obtain ⟨tr', r, hrest⟩ := Coro.exists_runs p
  obtain ⟨g, g', loop, t, r', hsplit, hnone, hhandled, himpl, -⟩ := run_stages (h.runs hrest)
  rcases List.prefix_or_prefix_of_prefix (List.prefix_append tr tr') ⟨_, hsplit.symm⟩ with hfirst | ⟨now, rfl⟩
  · exact Or.inl ⟨g, hfirst⟩
  · rw [List.append_assoc] at hsplit
    have hlater := List.append_cancel_left hsplit
    have hnow : proposals now = [] := by
      rw [← hlater, proposals_append] at hnone
      exact (List.append_eq_nil_iff.1 hnone).1
    refine Or.inr ⟨g, g', now, loop, t, r', rfl, ⟨tr', hlater⟩, ?_, himpl⟩
    rwa [proposals_append, hnow, List.append_nil]

end Stages

/-! ## One execution after the other -/

variable (S context) in
/-- Runs of `execute`, one after the other. -/
inductive Serial : List ((q : S.Op) × S.Answer q) → Prop
  | nil : Serial []
  | cons {request : ToolRequest} {t ts : List ((q : S.Op) × S.Answer q)} {out : Except Exc SandboxResult} :
      Runs Anything () (S.execute request context) t out () → Serial ts → Serial (t ++ ts)

lemma Outcomes.serial {r : Except Exc InterceptorResult} {t ts : List ((q : S.Op) × S.Answer q)}
    (h : Outcomes S context request r t) (hts : Serial S context ts) : Serial S context (t ++ ts) := by
  cases h with
  | denied => exact hts
  | executed _ hrun => exact .cons hrun hts
  | idle => exact hts
  | raised _ hrun => exact .cons hrun hts

/-- The loop starts an execution when the one before it is over, however the loop ends. -/
theorem serial_of_handled {calls : List ProposedToolCall} {t : List PipelineEvent} {tr : List (SystemEvent S)}
    {r : Except Exc (List InterceptorResult)} (h : Handled context calls t r)
    (himpl : Implements Anything (interceptCall S rt ic) () t tr ()) : Serial S context (sandboxEvents tr) := by
  induction h generalizing tr with
  | nil =>
    cases himpl
    exact .nil
  | raised call calls e =>
    rcases himpl with _ | ⟨hcall, ⟨⟩⟩
    obtain ⟨seg, rfl, hrun⟩ := runs_interceptCall_handle hcall
    rw [sandboxEvents_append]
    exact (outcomes_of_governed hrun.anything).serial .nil
  | cons call result _ ih =>
    rcases himpl with _ | ⟨hcall, hrest⟩
    obtain ⟨seg, rfl, hrun⟩ := runs_interceptCall_handle hcall
    rw [sandboxEvents_append]
    exact (outcomes_of_governed hrun.anything).serial (ih hrest)

/-- A beginning of serial executions ends in the middle of one. -/
lemma Serial.beginning {ts l : List ((q : S.Op) × S.Answer q)} (h : Serial S context ts) (hl : l <+: ts) :
    ∃ now last, l = now ++ last ∧ Serial S context now ∧
      (last ≠ [] → ∃ request t out, last <+: t ∧ Runs Anything () (S.execute request context) t out ()) := by
  induction h generalizing l with
  | nil =>
    obtain rfl := List.prefix_nil.1 hl
    exact ⟨[], [], rfl, .nil, by simp⟩
  | @cons request t ts out hrun _ ih =>
    rcases List.prefix_or_prefix_of_prefix hl (List.prefix_append ..) with hfirst | ⟨later, rfl⟩
    · exact ⟨[], l, rfl, .nil, fun _ => ⟨request, t, out, hfirst, hrun⟩⟩
    · obtain ⟨now, last, rfl, hnow, hlast⟩ := ih ((List.prefix_append_right_inj _).1 hl)
      exact ⟨t ++ now, last, (List.append_assoc ..).symm, .cons hrun hnow, hlast⟩

/-- **A pipeline has at most one execution under way**, and none when it has ended. -/
theorem serial_of_advances {call : PipelineCall} {p : Coro (SystemOp S) SystemOp.Answer Exc PipelineResult}
    {tr : List (SystemEvent S)} (h : Advances (call.program S u rt) tr p) :
    ∃ now last, sandboxEvents tr = now ++ last ∧ Serial S call.context now ∧ (last ≠ [] → p.result? = none ∧
      ∃ request t out, last <+: t ∧ Runs Anything () (S.execute request call.context) t out ()) := by
  cases hended : p.result? with
  | some r =>
    obtain ⟨g, g', loop, t, r', rfl, -, hhandled, himpl, -⟩ := run_stages (h.runs_of_result hended)
    refine ⟨sandboxEvents loop, [], ?_, serial_of_handled hhandled himpl, by simp⟩
    simp [sandboxEvents_piped]
  | none =>
    have hserial : ∃ ts, Serial S call.context ts ∧ sandboxEvents tr <+: ts := by
      rcases stages_of_advances h with ⟨g, hg⟩ | ⟨g, g', now, loop, t, r', rfl, hnow, hhandled, himpl⟩
      · have hnone := sandboxEvents_prefix hg
        rw [sandboxEvents_piped] at hnone
        exact ⟨[], .nil, hnone⟩
      · have hloop := sandboxEvents_prefix hnow
        rw [sandboxEvents_append, sandboxEvents_piped, List.append_nil] at hloop
        refine ⟨sandboxEvents loop, serial_of_handled hhandled himpl, ?_⟩
        rwa [sandboxEvents_append, sandboxEvents_piped, List.nil_append]
    obtain ⟨ts, hts, hbeginning⟩ := hserial
    obtain ⟨now, last, heq, hnow, hlast⟩ := hts.beginning hbeginning
    exact ⟨now, last, heq, hnow, fun hne => ⟨rfl, hlast hne⟩⟩

/-! ## Any number of pipelines -/

variable (S context) in
/-- What the sandbox has done so far: what the results of the first calls say, and the beginning of the next call. -/
def ExecutedSoFar (calls : List ProposedToolCall) (ts : List ((q : S.Op) × S.Answer q)) : Prop :=
  ∃ done rest results now last, calls = done ++ rest ∧ ts = now ++ last ∧ Executed S context done results now ∧
    (last ≠ [] → ∃ next rest' r t, rest = next :: rest' ∧ last <+: t ∧ Outcomes S context next.toToolRequest r t)

lemma ExecutedSoFar.nil (calls : List ProposedToolCall) : ExecutedSoFar S context calls [] :=
  ⟨[], calls, [], [], [], rfl, rfl, .nil, fun hne => absurd rfl hne⟩

lemma ExecutedSoFar.one {call : ProposedToolCall} {r : Except Exc InterceptorResult} {t l : List ((q : S.Op) × S.Answer q)}
    (calls : List ProposedToolCall) (h : Outcomes S context call.toToolRequest r t) (hl : l <+: t) :
    ExecutedSoFar S context (call :: calls) l :=
  ⟨[], call :: calls, [], [], l, rfl, rfl, .nil, fun _ => ⟨call, calls, r, t, rfl, hl, h⟩⟩

lemma ExecutedSoFar.cons {call : ProposedToolCall} {result : InterceptorResult} {calls : List ProposedToolCall}
    {t ts : List ((q : S.Op) × S.Answer q)} (h : Outcomes S context call.toToolRequest (.ok result) t)
    (hts : ExecutedSoFar S context calls ts) : ExecutedSoFar S context (call :: calls) (t ++ ts) := by
  obtain ⟨done, rest, results, now, last, rfl, rfl, hexecuted, hlast⟩ := hts
  exact ⟨call :: done, rest, result :: results, t ++ now, last, rfl, (List.append_assoc ..).symm, .cons h hexecuted, hlast⟩

/-- A beginning of what the sandbox does in the loop. -/
theorem so_far_of_handled {calls : List ProposedToolCall} {t : List PipelineEvent} {tr : List (SystemEvent S)}
    {r : Except Exc (List InterceptorResult)} (h : Handled context calls t r)
    (himpl : Implements Anything (interceptCall S rt ic) () t tr ()) {l : List ((q : S.Op) × S.Answer q)}
    (hl : l <+: sandboxEvents tr) : ExecutedSoFar S context calls l := by
  induction h generalizing tr l with
  | nil =>
    cases himpl
    obtain rfl := List.prefix_nil.1 hl
    exact .nil []
  | raised call calls e =>
    rcases himpl with _ | ⟨hcall, ⟨⟩⟩
    obtain ⟨seg, rfl, hrun⟩ := runs_interceptCall_handle hcall
    rw [List.append_nil] at hl
    exact .one calls (outcomes_of_governed hrun.anything) hl
  | @cons calls _ _ call result _ ih =>
    rcases himpl with _ | ⟨hcall, hrest⟩
    obtain ⟨seg, rfl, hrun⟩ := runs_interceptCall_handle hcall
    have houtcome := outcomes_of_governed hrun.anything
    rw [sandboxEvents_append] at hl
    rcases List.prefix_or_prefix_of_prefix hl (List.prefix_append ..) with hfirst | ⟨later, rfl⟩
    · exact .one calls houtcome hfirst
    · exact .cons houtcome (ih hrest ((List.prefix_append_right_inj _).1 hl))

theorem so_far_of_advances {call : PipelineCall} {p : Coro (SystemOp S) SystemOp.Answer Exc PipelineResult}
    {tr : List (SystemEvent S)} (h : Advances (call.program S u rt) tr p) :
    ExecutedSoFar S call.context (proposals tr) (sandboxEvents tr) := by
  rcases stages_of_advances h with ⟨g, later, hg⟩ | ⟨g, g', now, loop, t, r', heq, hnow, hhandled, himpl⟩
  · have hnone : sandboxEvents tr = [] := by
      have hall := sandboxEvents_piped (S := S) g
      rw [← hg, sandboxEvents_append] at hall
      exact (List.append_eq_nil_iff.1 hall).1
    rw [hnone]
    exact .nil _
  · refine so_far_of_handled hhandled himpl ?_
    rw [heq, sandboxEvents_append, sandboxEvents_piped, List.nil_append]
    have hloop := sandboxEvents_prefix hnow
    rwa [sandboxEvents_append, sandboxEvents_piped, List.append_nil] at hloop

/-- A run that returns has executed what its results say. -/
theorem executed_of_runs {call : PipelineCall} {tr : List (SystemEvent S)} {result : PipelineResult}
    (h : Runs Anything () (call.program S u rt) tr (.ok result) ()) :
    Executed S call.context (proposals tr) result.toolCallResults (sandboxEvents tr) := by
  obtain ⟨g, g', loop, t, r', rfl, hnone, hhandled, himpl, hr⟩ := run_stages h
  obtain rfl := hr result rfl
  have hexecuted := (executed_of_handled hhandled himpl).2 _ rfl
  rw [proposals_append, hnone, List.append_nil, sandboxEvents_append, sandboxEvents_append, sandboxEvents_piped,
    sandboxEvents_piped, List.nil_append, List.append_nil]
  exact hexecuted

/-- A result that tells of a sandbox tells of the execution of its own call, which comes right after those of the calls
before it. -/
theorem Executed.get {calls : List ProposedToolCall} {results : List InterceptorResult}
    {ts : List ((q : S.Op) × S.Answer q)} (h : Executed S context calls results ts) {n : ℕ} {result : InterceptorResult}
    (hn : results[n]? = some result) {s : SandboxResult} (hs : result.sandboxResult = some s) :
    ∃ call before t after out, calls[n]? = some call ∧ ts = before ++ (t ++ after) ∧
      Executed S context (calls.take n) (results.take n) before ∧
      Runs Anything () (S.execute call.toToolRequest context) t out () ∧ Reports out s := by
  induction h generalizing n with
  | nil => cases hn
  | @cons call result' calls results t ts houtcome _ ih =>
    cases n with
    | zero =>
      obtain rfl := Option.some.inj hn
      cases houtcome with
      | denied _ hnone =>
        rw [hnone] at hs
        cases hs
      | executed _ hrun hsome hreports =>
        rw [hsome] at hs
        obtain rfl := Option.some.inj hs
        exact ⟨call, [], t, ts, _, rfl, rfl, .nil, hrun, hreports⟩
    | succ n =>
      obtain ⟨call', before, t', after, out, hcall, rfl, hbefore, hrun, hreports⟩ := ih hn
      exact ⟨call', t ++ before, t', after, out, hcall, (List.append_assoc ..).symm, .cons houtcome hbefore, hrun, hreports⟩

section Loop

variable {ι World : Type} [DecidableEq ι] {suspends : SystemOp S → Bool}
  {E : World → (q : SystemOp S) → q.Answer → World → Prop} {outside : World → World → Prop} {calls : ι → PipelineCall}
  {world : World} {s : Loop ι World (SystemOp S) SystemOp.Answer Exc PipelineResult}

/-- **Pipelines execute what their results say**: at every moment the sandbox has carried out the first of the proposed
calls, one after the other, and perhaps a part of the next; and of a pipeline that has returned, the calls that are
allowed, and no others. -/
theorem pipelines_execute (h : Reached suspends E outside (fun i => (calls i).program S u rt) world s) (i : ι) :
    ExecutedSoFar S (calls i).context (proposals (own i s.past)) (sandboxEvents (own i s.past)) ∧
      ∀ result, (s.tasks i).bind result? = some (.ok result) →
        Executed S (calls i).context (proposals (own i s.past)) result.toolCallResults (sandboxEvents (own i s.past)) := by
  cases hp : s.tasks i with
  | none =>
    rw [h.own_advances.2 hp]
    exact ⟨.nil [], by simp⟩
  | some p =>
    have hadvances := h.advances hp
    exact ⟨so_far_of_advances hadvances, fun result hresult => executed_of_runs (hadvances.runs_of_result hresult)⟩

end Loop

theorem pipelines_execute_granted : ∃ result, sampleRun.2.1 = .ok result ∧ result.finalResponse = "Done." ∧
    Executed sampleSandbox sampleContext [sampleProposal] result.toolCallResults (sandboxEvents sampleRun.1) := by
  obtain ⟨s, hreached, hown, hended⟩ := granted_alone sampleSandbox .ascii sampleRuntime samplePipelineCall sampleProposal
    sampleAnswer
  obtain ⟨result, hresult, hfinal⟩ : ∃ result, sampleRun.2.1 = .ok result ∧ result.finalResponse = "Done." :=
    ⟨_, rfl, rfl⟩
  have hexecuted := (pipelines_execute hreached ()).2 result (hended.trans (congrArg some hresult))
  rw [hown] at hexecuted
  exact ⟨result, hresult, hfinal, hexecuted⟩

end Aimw
