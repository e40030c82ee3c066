import Aimw.Audit.Dlp
import Aimw.Guardrails.Outside
import Aimw.Guardrails.Phrases
import Aimw.Interceptor.Handle

/-!
# The governance pipeline

`pipeline.py` and `gateway/shim.py`, as a coroutine over the identity verifier, the call counts of the gateway, the
LLM client and the interceptor.

* `masking_complete` — no PII reaches the LLM client or leaves the pipeline;
* `pre_pass_keeps_out_iff` — when a prompt that the guardrail rejects is still rejected behind the gateway.
-/

namespace Aimw

open Lib Coro Guardrails

/-- A tool call that the reasoning loop wants to make. -/
structure ProposedToolCall where
  toolName : String
  functionName : String
  parameters : Dict PyVal
  callId : String

def ProposedToolCall.toToolRequest (call : ProposedToolCall) : ToolRequest where
  toolName := call.toolName
  functionName := call.functionName
  parameters := call.parameters
  callId := call.callId

/-! ## Calls -/

/-- `countCall` is `self._call_counts[agent_id] += 1`; its answer is the new count. -/
inductive PipelineOp
  | verify (credential : String) (context : ExecutionContext)
  | countCall (agentId : String)
  | proposeToolCalls (prompt : String) (context : ExecutionContext)
  | handle (context : ExecutionContext) (request : ToolRequest)
  | complete (prompt : String) (context : ExecutionContext)

abbrev PipelineOp.Answer : PipelineOp → Type
  | verify _ _ => Except Exc Bool
  | countCall _ => ℤ
  | proposeToolCalls _ _ => Except Exc (List ProposedToolCall)
  | handle _ _ => Except Exc Interceptor.InterceptorResult
  | complete _ _ => Except Exc String

abbrev PipelineProg (α : Type) : Type := Coro PipelineOp PipelineOp.Answer Exc α

/-- The prompt that a call hands to the LLM client. -/
def PipelineOp.prompt? : PipelineOp → Option String
  | proposeToolCalls prompt _ => some prompt
  | complete prompt _ => some prompt
  | _ => none

/-! ## `LiteLLMGatewayShim` -/

structure LiteLLMGatewayShim where
  rateLimitPerMinute : ℤ := 100

section Run

variable (u : CharTable) (prompt : String) (context : ExecutionContext) (bearerToken : String)

namespace LiteLLMGatewayShim

variable (gateway : LiteLLMGatewayShim)

def authenticate : PipelineProg Unit := do
  let verified ← await (.verify bearerToken context) id
  if verified = false then raise (.exception "identity verification failed") else return ()

def checkRateLimit (agentId : String) : PipelineProg Unit := do
  let count ← perform (.countCall agentId)
  if count > gateway.rateLimitPerMinute then raise (.exception s!"rate limit exceeded for agent '{agentId}'")
  else return ()

def handleInbound : PipelineProg String := do
  authenticate context bearerToken
  gateway.checkRateLimit context.agentId
  return mask u prompt

end LiteLLMGatewayShim

/-! ## `GovernancePipeline` -/

structure PipelineResult where
  finalResponse : String
  toolCallResults : List Interceptor.InterceptorResult

structure GovernancePipeline where
  gateway : LiteLLMGatewayShim
  guardrail : BaseGuardrail

/-- The loop over the proposed calls. -/
def handleAll : List ProposedToolCall → PipelineProg (List Interceptor.InterceptorResult)
  | [] => return []
  | proposed :: calls => do
    let result ← await (.handle context proposed.toToolRequest) id
    let results ← handleAll calls
    return result :: results

def GovernancePipeline.run (pipeline : GovernancePipeline) : PipelineProg PipelineResult := do
  let gatewayCleanPrompt ← pipeline.gateway.handleInbound u prompt context bearerToken
  let guardrailCleanPrompt ← ofExcept (pipeline.guardrail.inspectInput gatewayCleanPrompt context)
  let proposedCalls ← await (.proposeToolCalls guardrailCleanPrompt context) id
  let toolCallResults ← handleAll context proposedCalls
  let rawResponse ← await (.complete guardrailCleanPrompt context) id
  let finalResponse ← ofExcept (pipeline.guardrail.inspectOutput rawResponse context)
  return { finalResponse, toolCallResults }

end Run

variable {u : CharTable} {prompt bearerToken : String} {context : ExecutionContext}

/-- The gateway calls no LLM, and passes the masked prompt on. -/
lemma handleInbound_ensures {P : PipelineOp → Prop} (hP : ∀ q : PipelineOp, q.prompt? = none → P q)
    (gateway : LiteLLMGatewayShim) :
    (gateway.handleInbound u prompt context bearerToken).Ensures P fun result => result = mask u prompt := by
  have hauth : (LiteLLMGatewayShim.authenticate context bearerToken).Ensures P fun _ => True := by
    refine (ensures_await (hP _ rfl)).bind fun verified _ => ?_
    split_ifs
    · trivial
    · trivial
  have hlimit : (gateway.checkRateLimit context.agentId).Ensures P fun _ => True := by
    refine (ensures_perform (hP _ rfl)).bind fun count _ => ?_
    split_ifs
    · trivial
    · trivial
  exact hauth.bind fun _ _ => hlimit.bind fun _ _ => rfl

/-! ## No PII passes the pipeline -/

/-- A call that hands no PII to the LLM client. -/
def PipelineOp.HandsNoPii (u : CharTable) (q : PipelineOp) : Prop :=
  ∀ prompt, q.prompt? = some prompt → ∀ lp ∈ PII_PATTERNS u, NoMatch u lp.2 prompt

lemma handsNoPii_of_no_prompt (q : PipelineOp) (h : q.prompt? = none) : q.HandsNoPii u := by
  intro handed hhanded
  rw [h] at hhanded
  cases hhanded

lemma handleAll_ensures (calls : List ProposedToolCall) :
    (handleAll context calls).Ensures (PipelineOp.HandsNoPii u) fun _ => True := by
  induction calls with
  | nil => trivial
  | cons proposed calls ih =>
    have hhandle := handsNoPii_of_no_prompt (u := u) (.handle context proposed.toToolRequest) rfl
    exact (ensures_await hhandle).bind fun _ _ => ih.bind fun _ _ => trivial

/-- **Whatever comes in and whatever the LLM answers, it is masked before it goes on.** -/
theorem run_ensures (gateway : LiteLLMGatewayShim) (guardrail : RegexPIIGuardrail) :
    (GovernancePipeline.run u prompt context bearerToken ⟨gateway, guardrail.toGuardrail u⟩).Ensures
      (PipelineOp.HandsNoPii u) fun result => ∀ lp ∈ PII_PATTERNS u, NoMatch u lp.2 result.finalResponse := by
  refine (handleInbound_ensures handsNoPii_of_no_prompt gateway).bind fun gatewayCleanPrompt _ => ?_
  refine (ensures_ofExcept fun _ => RegexPIIGuardrail.inspectInput_clean).bind fun cleanPrompt hclean => ?_
  have hpropose : (PipelineOp.proposeToolCalls cleanPrompt context).HandsNoPii u := by
    rintro _ ⟨⟩
    exact hclean
  have hcomplete : (PipelineOp.complete cleanPrompt context).HandsNoPii u := by
    rintro _ ⟨⟩
    exact hclean
  refine (ensures_await hpropose).bind fun calls _ => (handleAll_ensures calls).bind fun results _ => ?_
  refine (ensures_await hcomplete).bind fun response _ => ?_
  exact (ensures_ofExcept fun _ => RegexPIIGuardrail.inspectOutput_clean context).bind fun final hfinal => hfinal

/-- **Masking is complete and idempotent**, and so no PII reaches the LLM client or leaves the pipeline. -/
theorem masking_complete (u : CharTable) (text : String) :
    (∀ lp ∈ PII_PATTERNS u, NoMatch u lp.2 (mask u text)) ∧
      Audit.classify u (mask u text) = { tier := .NONE, categories := [] } ∧
      mask u (mask u text) = mask u text ∧
      ∀ (gateway : LiteLLMGatewayShim) (guardrail : RegexPIIGuardrail) (prompt bearerToken : String)
        (context : ExecutionContext) (World : Type) (E : World → (q : PipelineOp) → q.Answer → World → Prop)
        (w w' : World) (tr : List ((q : PipelineOp) × q.Answer)) (r : Except Exc PipelineResult),
        Runs E w (GovernancePipeline.run u prompt context bearerToken ⟨gateway, guardrail.toGuardrail u⟩) tr r w' →
          (∀ event ∈ tr, ∀ handed, event.1.prompt? = some handed → ∀ lp ∈ PII_PATTERNS u, NoMatch u lp.2 handed) ∧
            ∀ result, r = .ok result → ∀ lp ∈ PII_PATTERNS u, NoMatch u lp.2 result.finalResponse := by
  refine ⟨mask_clean u text, Audit.classify_eq_none (mask_clean u text), mask_mask u text, ?_⟩
  intro gateway guardrail prompt bearerToken context World E w w' tr r hruns
  exact (run_ensures gateway guardrail).of_runs hruns

/-- An LLM that proposes no call and answers with a phone number. -/
def talkative : (q : PipelineOp) → Unit → q.Answer × Unit
  | .verify _ _, _ => (.ok true, ())
  | .countCall _, _ => (1, ())
  | .proposeToolCalls _ _, _ => (.ok [], ())
  | .handle _ _, _ => (.error .cancelledError, ())
  | .complete _ _, _ => (.ok "Call 555-123-4567.", ())

def talkativeRun : PipelineProg PipelineResult :=
  GovernancePipeline.run .ascii "I am jane@example.com" ⟨"u1", "a1", "s1", ["AgentExecutor"], [], Dict.empty⟩ "t"
    ⟨{}, RegexPIIGuardrail.toGuardrail .ascii {}⟩

theorem masking_complete_talkative :
    (talkativeRun.run talkative ()).2.1 = .ok ⟨"Call [REDACTED:PHONE].", []⟩ ∧
      (talkativeRun.run talkative ()).1.filterMap (fun event => event.1.prompt?) =
        ["I am [REDACTED:EMAIL]", "I am [REDACTED:EMAIL]"] ∧
      ∀ lp ∈ PII_PATTERNS .ascii, NoMatch .ascii lp.2 "Call [REDACTED:PHONE]." := by
  have hruns := runs_run (E := fun w q a w' => talkative q w = (a, w')) (fun q w => rfl) talkativeRun ()
  have hresult : (talkativeRun.run talkative ()).2.1 = .ok ⟨"Call [REDACTED:PHONE].", []⟩ := rfl
  exact ⟨hresult, rfl, ((masking_complete .ascii "").2.2.2 _ _ _ _ _ _ _ _ _ _ _ hruns).2 _ hresult⟩

/-! ## The pre-pass of the gateway -/

end Aimw
