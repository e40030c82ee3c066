import Aimw.Pipeline.Executed

/-!
# What has opened the gates

When a sandbox does something, its pipeline has done a handful of calls that let it through (`opened_of_executing`).  A
deployment says who answers these calls, and thereby what the answers mean.
-/

namespace Aimw

open Lib Audit Coro Interceptor

/-! ## Answers in a trace -/

lemma mem_of_checks {tr : Trace} {agentId toolName : String} {a : Except Exc Bool}
    (h : (agentId, toolName, a) ∈ checks tr) : ⟨.check agentId toolName, a⟩ ∈ tr := by
  obtain ⟨⟨q, b⟩, he, heq⟩ := List.mem_filterMap.1 h
  cases q <;> cases heq
  exact he

lemma mem_of_engineAnswers {tr : Trace} {context : ExecutionContext} {request : ToolRequest} {a : Awaited PolicyDecision}
    (h : (context, request, a) ∈ engineAnswers tr) : ∃ timeout, ⟨.evaluateToolCall context request timeout, a⟩ ∈ tr := by
  obtain ⟨⟨q, b⟩, he, heq⟩ := List.mem_filterMap.1 h
  cases q <;> cases heq
  exact ⟨_, he⟩

lemma mem_of_approvals {tr : Trace} {context : ExecutionContext} {request : ToolRequest} {d : PolicyDecision}
    {a : Except Exc Bool} (h : (context, request, d, a) ∈ approvals tr) : ⟨.approvalCallback context request d, a⟩ ∈ tr := by
  obtain ⟨⟨q, b⟩, he, heq⟩ := List.mem_filterMap.1 h
  cases q <;> cases heq
  exact he

/-! ## On the loop -/

/-- The sandbox makes the call `e` while it executes the request, for which it has made the calls `t` so far. -/
def Executing (S : BaseSandbox) (context : ExecutionContext) (request : ToolRequest) (t : List ((q : S.Op) × S.Answer q))
    (e : (q : S.Op) × S.Answer q) : Prop :=
  ∃ t' out, Runs Anything () (S.execute request context) (t ++ e :: t') out ()

/-- The call `e` of the sandbox executes the request. -/
def Executes (S : BaseSandbox) (context : ExecutionContext) (request : ToolRequest) (e : (q : S.Op) × S.Answer q) : Prop :=
  ∃ t, Executing S context request t e

/-- The events that let a request through: the token was found good at the beginning, and since the calls before were
done, the circuit was found closed, and the engine allowed the request and asked for nothing that was not granted. -/
structure Opened (S : BaseSandbox) (call : PipelineCall) (request : ToolRequest) (begun since : List (SystemEvent S)) :
    Prop where
  verified : piped S ⟨.verify call.bearerToken call.context, .ok true⟩ ∈ begun
  closed : call.interceptor.circuitBreaker = true →
    handled S (collaborated S ⟨.check call.context.agentId request.toolName, .ok true⟩) ∈ since
  allowed : ∃ timeout d, d.allowed = true ∧
    handled S (collaborated S ⟨.evaluateToolCall call.context request timeout, .returned d⟩) ∈ since ∧
    (d.actionRequirements ≠ [] → handled S (collaborated S ⟨.approvalCallback call.context request d, .ok true⟩) ∈ since)

variable {S : BaseSandbox} {u : CharTable} {rt : Interceptor.Runtime} {ι World : Type} [DecidableEq ι]
  {suspends : SystemOp S → Bool} {E : World → (q : SystemOp S) → q.Answer → World → Prop} {outside : World → World → Prop}
  {calls : ι → PipelineCall} {world : World} {s : Loop ι World (SystemOp S) SystemOp.Answer Exc PipelineResult} {i : ι}

/-- What the pipeline of a call of the sandbox has done before it: the sandbox has done nothing but execute the request
since the gates were asked about it. -/
lemma opened_of_cleared {call : PipelineCall} {pre : List (SystemEvent S)} {e : (q : S.Op) × S.Answer q}
    (h : Cleared S u call pre e) :
    ∃ begun since, pre = begun ++ since ∧ ∃ proposed ∈ proposals begun,
      Executing S call.context proposed.toToolRequest (sandboxEvents since) e ∧
        Opened S call proposed.toToolRequest begun since := by
  obtain ⟨n, clean, done, proposed, rest, earlier, before, t, t', out, rfl, -, -,
    ⟨hcheck, d, hengine, hd, -, hgranted⟩, -, hrun⟩ := h
  have hbefore : ∀ e' ∈ before, handled S (collaborated S e') ∈
      (before.map (collaborated S) ++ t.map (sandboxed S)).map (handled S) := fun e' he' =>
    List.mem_map_of_mem (List.mem_append_left _ (List.mem_map_of_mem he'))
  obtain ⟨timeout, hevaluated⟩ := mem_of_engineAnswers hengine
  refine ⟨piped S ⟨.verify call.bearerToken call.context, .ok true⟩ :: piped S ⟨.countCall call.context.agentId, n⟩ ::
    piped S ⟨.proposeToolCalls clean call.context, .ok (done ++ proposed :: rest)⟩ :: earlier, _, rfl, proposed, ?_, ?_,
    List.mem_cons_self, fun hbreaker => ?_, timeout, d, hd, hbefore _ hevaluated, fun hrequired => ?_⟩
  · simp [proposals]
  · rw [List.map_append, sandboxEvents_append, sandboxEvents_collaborated, sandboxEvents_sandboxed, List.nil_append]
    exact ⟨t', out, hrun⟩
  · exact hbefore _ (mem_of_checks (hcheck hbreaker))
  · exact hbefore _ (mem_of_approvals (hgranted hrequired).2)

lemma opened_of_executing (h : Reached suspends E outside (fun i => (calls i).program S u rt) world s)
    {pre post : List (SystemEvent S)} {e : (q : S.Op) × S.Answer q}
    (hevent : own i s.past = pre ++ handled S (sandboxed S e) :: post) :
    ∃ begun since, pre = begun ++ since ∧ ∃ proposed ∈ proposals begun,
      Executing S (calls i).context proposed.toToolRequest (sandboxEvents since) e ∧
        Opened S (calls i) proposed.toToolRequest begun since := by
  obtain ⟨p, -, hadvances⟩ := h.advances_of_mem (hevent ▸ List.mem_append_right pre List.mem_cons_self)
  exact opened_of_cleared (cleared_of_advances (hevent ▸ hadvances))

/-- The gates were opened at moments before the one at which the sandbox does something. -/
theorem opened_before (h : Reached suspends E outside (fun i => (calls i).program S u rt) world s)
    {pre post : List (SystemEvent S)} {e : (q : S.Op) × S.Answer q}
    (hevent : own i s.past = pre ++ handled S (sandboxed S e) :: post) :
    ∃ begun since m later, s.past = begun ++ (since ++ m :: later) ∧ m.task = i ∧ m.event = handled S (sandboxed S e) ∧
      own i begun ++ own i since = pre ∧ ∃ proposed ∈ proposals (own i begun),
        Executing S (calls i).context proposed.toToolRequest (sandboxEvents (own i since)) e ∧
          Opened S (calls i) proposed.toToolRequest (own i begun) (own i since) := by
  obtain ⟨_, _, rfl, hopened⟩ := opened_of_executing h hevent
  obtain ⟨before, after, hpast, hbefore, hafter⟩ := own_eq_append hevent
  obtain ⟨begun, since, rfl, rfl, rfl⟩ := own_eq_append hbefore
  obtain ⟨between, m, later, rfl, hbetween, htask, hm, -⟩ := own_eq_cons hafter
  have hsince : own i (since ++ between) = own i since := by rw [own_append, hbetween, List.append_nil]
  refine ⟨begun, since ++ between, m, later, ?_, htask, hm, by rw [hsince], ?_⟩
  · simpa only [List.append_assoc] using hpast
  · rwa [hsince]

/-- An event of a task happened at a moment that the environment accounts for. -/
lemma moment_of_mem_own (h : Reached suspends E outside (fun i => (calls i).program S u rt) world s) {e : SystemEvent S}
    (he : e ∈ own i s.past) : ∃ m ∈ s.past, m.task = i ∧ m.event = e ∧ E m.before e.1 e.2 m.after := by
  obtain ⟨m, hm, htask, rfl⟩ := mem_own.1 he
  exact ⟨m, hm, htask, rfl, h.answered m hm⟩

end Aimw
