import Aimw.Deployment.Gates
import Aimw.Gateway.Quota
import Aimw.Policy.Migration

/-!
# A deployment on local stand-ins

`examples/run_demo.py`: pipelines that share a `StaticBearerTokenVerifier`, a `FakeLLMClient`, a `StaticPolicyEngine`
and an `InMemoryApprovalQueue`, while an operator decides on calls and scripts others.

* `local_gate` — what runs was permitted by the rules, and granted by the operator where they ask for an approval;
* `reviewer_sees` — the queue holds every question once, in order, and asks for nothing but what the rules permit.
-/

namespace Aimw

open Lib Audit Coro Interceptor

/-! ## The stand-ins -/

/-- `validTokens` is a set; if it is empty, any token will do. -/
structure StaticBearerTokenVerifier where
  validTokens : Finset String := ∅

def StaticBearerTokenVerifier.verify (verifier : StaticBearerTokenVerifier) (credential : String)
    (_context : ExecutionContext) : Bool :=
  if verifier.validTokens = ∅ then true else credential ∈ verifier.validTokens

structure FakeLLMClient where
  scriptedToolCalls : List ProposedToolCall := []
  finalResponse : String := "acknowledged"

namespace FakeLLMClient

variable (client : FakeLLMClient)

def scriptToolCall (call : ProposedToolCall) : FakeLLMClient :=
  { client with scriptedToolCalls := client.scriptedToolCalls ++ [call] }

def clearScriptedCalls : FakeLLMClient := { client with scriptedToolCalls := [] }

def setFinalResponse (response : String) : FakeLLMClient := { client with finalResponse := response }

def proposeToolCalls (_prompt : String) (_context : ExecutionContext) : List ProposedToolCall := client.scriptedToolCalls

def complete (_prompt : String) (_context : ExecutionContext) : String := client.finalResponse

end FakeLLMClient

/-- What a reviewer is shown. -/
abbrev Question : Type := ExecutionContext × ToolRequest × PolicyDecision

/-- `default` is what is decided on a call without a decision of its own. -/
structure InMemoryApprovalQueue where
  decisions : Dict Bool := Dict.empty
  default : Bool := false
  received : List Question := []

namespace InMemoryApprovalQueue

variable (queue : InMemoryApprovalQueue)

def setDecision (callId : String) (approved : Bool) : InMemoryApprovalQueue :=
  { queue with decisions := queue.decisions.set callId approved }

/-- `self._decisions.get(call_id, self._default)`. -/
def decision (callId : String) : Bool := (queue.decisions.get? callId).getD queue.default

/-- `__call__`. -/
def call (context : ExecutionContext) (request : ToolRequest) (decision : PolicyDecision) :
    Bool × InMemoryApprovalQueue :=
  let queue := { queue with received := queue.received ++ [(context, request, decision)] }
  (queue.decision request.callId, queue)

variable {queue} {callId callId' : String} {approved : Bool}

@[simp] lemma decision_setDecision_self : (queue.setDecision callId approved).decision callId = approved := by
  rw [decision, setDecision, Dict.get?_set, if_pos rfl, Option.getD_some]

lemma decision_setDecision_of_ne (h : callId ≠ callId') :
    (queue.setDecision callId' approved).decision callId = queue.decision callId := by
  rw [decision, setDecision, Dict.get?_set, if_neg h, decision]

end InMemoryApprovalQueue

/-! ## The deployment -/

/-- What the pipelines share and change; `callCounter` answers how many calls a session has made. -/
structure LocalWorld where
  callCounts : Gateway.CallCounts := fun _ => 0
  callCounter : String → ℤ := fun _ => 0
  client : FakeLLMClient := {}
  approvals : InMemoryApprovalQueue := {}

/-- The calls that a stand-in answers. -/
def answeredLocally {S : BaseSandbox} : SystemOp S → Bool
  | .pipeline (.handle _ _) => false
  | .pipeline _ => true
  | .governed (.collaborator (.evaluateToolCall _ _ _)) => true
  | .governed (.collaborator (.approvalCallback _ _ _)) => true
  | .governed _ => false

/-- The engine, as its counter counts now. -/
def LocalWorld.engine (ruleset : Policy.PolicyRuleSet) (w : LocalWorld) : Policy.StaticPolicyEngine :=
  ⟨ruleset, w.callCounter⟩

/-- The stand-ins answer, but that the engine may raise or be too slow; all other calls are answered in any way. -/
inductive LocalAnswers (S : BaseSandbox) (prt : Policy.Runtime) (verifier : StaticBearerTokenVerifier)
    (ruleset : Policy.PolicyRuleSet) : LocalWorld → (q : SystemOp S) → q.Answer → LocalWorld → Prop
  | verified (w : LocalWorld) (credential : String) (context : ExecutionContext) :
      LocalAnswers S prt verifier ruleset w (.pipeline (.verify credential context))
        (.ok (verifier.verify credential context)) w
  | counted (w : LocalWorld) (agentId : String) :
      LocalAnswers S prt verifier ruleset w (.pipeline (.countCall agentId)) (w.callCounts agentId + 1)
        { w with callCounts := Function.update w.callCounts agentId (w.callCounts agentId + 1) }
  | proposed (w : LocalWorld) (prompt : String) (context : ExecutionContext) :
      LocalAnswers S prt verifier ruleset w (.pipeline (.proposeToolCalls prompt context))
        (.ok (w.client.proposeToolCalls prompt context)) w
  | completed (w : LocalWorld) (prompt : String) (context : ExecutionContext) :
      LocalAnswers S prt verifier ruleset w (.pipeline (.complete prompt context))
        (.ok (w.client.complete prompt context)) w
  | decided (w : LocalWorld) (context : ExecutionContext) (request : ToolRequest) (timeout : JFloat) :
      LocalAnswers S prt verifier ruleset w (.governed (.collaborator (.evaluateToolCall context request timeout)))
        (.returned ((w.engine ruleset).evaluate prt context request)) w
  | undecided (w : LocalWorld) (context : ExecutionContext) (request : ToolRequest) (timeout : JFloat)
      {a : Awaited PolicyDecision} : (∀ d, a ≠ .returned d) →
      LocalAnswers S prt verifier ruleset w (.governed (.collaborator (.evaluateToolCall context request timeout))) a w
  | asked (w : LocalWorld) (context : ExecutionContext) (request : ToolRequest) (d : PolicyDecision) :
      LocalAnswers S prt verifier ruleset w (.governed (.collaborator (.approvalCallback context request d)))
        (.ok (w.approvals.call context request d).1) { w with approvals := (w.approvals.call context request d).2 }
  | other (w : LocalWorld) {q : SystemOp S} (a : q.Answer) : answeredLocally q = false →
      LocalAnswers S prt verifier ruleset w q a w

/-- The operator decides on a call, and grants only the calls of `grants`, or scripts the client, or calls are counted. -/
inductive Operated (grants : String → Prop) : LocalWorld → LocalWorld → Prop
  | decided (w : LocalWorld) (callId : String) (approved : Bool) : (approved = true → grants callId) →
      Operated grants w { w with approvals := w.approvals.setDecision callId approved }
  | scripted (w : LocalWorld) (client : FakeLLMClient) : Operated grants w { w with client }
  | counted (w : LocalWorld) (callCounter : String → ℤ) : Operated grants w { w with callCounter }

section Answers

variable {S : BaseSandbox} {prt : Policy.Runtime} {verifier : StaticBearerTokenVerifier}
  {ruleset : Policy.PolicyRuleSet} {w w' : LocalWorld} {context : ExecutionContext} {request : ToolRequest}

variable (prt ruleset w context request) in
/-- The identity is complete and every layer of the rules lets the request through, as calls are counted now. -/
def Permitted : Prop :=
  Policy.missingField prt context ruleset.identityRequiredFields = none ∧
    (ruleset.access prt).Permits (Policy.roleSet context) (Policy.invocation prt request) (w.callCounter context.sessionId)

variable (ruleset request) in
def NeedsApproval : Prop := ruleset.needsApproval request.toolName request.functionName = true

/-- What the engine allows is permitted, and the decision asks for an approval where the rules do. -/
lemma permitted_of_allowed (h : ((w.engine ruleset).evaluate prt context request).allowed = true) :
    Permitted prt ruleset w context request ∧
      (w.engine ruleset).evaluate prt context request =
        Policy.approve (ruleset.needsApproval request.toolName request.functionName) := by
  rcases Policy.static_evaluate_cases prt context request (w.engine ruleset) with ⟨hfields, hpermits, heq⟩ | ⟨-, reason, heq⟩
  · exact ⟨⟨hfields, hpermits⟩, heq⟩
  · rw [heq] at h
    cases h

lemma LocalAnswers.decision {timeout : JFloat} {d : PolicyDecision} (h : LocalAnswers S prt verifier ruleset w
    (.governed (.collaborator (.evaluateToolCall context request timeout))) (.returned d) w') :
    d = (w.engine ruleset).evaluate prt context request := by
  cases h with
  | decided => rfl
  | undecided _ _ _ hnot => exact absurd rfl (hnot d)
  | other _ hlocal => cases hlocal

/-- The answer to a question is the decision on the call's id, and the question is kept. -/
lemma LocalAnswers.approval {d : PolicyDecision} {a : Except Exc Bool} (h : LocalAnswers S prt verifier ruleset w
    (.governed (.collaborator (.approvalCallback context request d))) a w') :
    a = .ok (w.approvals.decision request.callId) ∧
      w'.approvals.received = w.approvals.received ++ [(context, request, d)] := by
  cases h with
  | asked => exact ⟨rfl, rfl⟩
  | other _ hlocal => cases hlocal

lemma LocalAnswers.verification {credential : String} {a : Except Exc Bool}
    (h : LocalAnswers S prt verifier ruleset w (.pipeline (.verify credential context)) a w') :
    a = .ok (verifier.verify credential context) := by
  cases h with
  | verified => rfl
  | other _ hlocal => cases hlocal

/-- No answer changes a decision. -/
lemma LocalAnswers.decisions {q : SystemOp S} {a : q.Answer} (h : LocalAnswers S prt verifier ruleset w q a w')
    (callId : String) : w'.approvals.decision callId = w.approvals.decision callId := by
  cases h <;> rfl

lemma Operated.stays_ungranted {grants : String → Prop} (h : Operated grants w w') {callId : String}
    (hnot : ¬ grants callId) (hw : w.approvals.decision callId = false) : w'.approvals.decision callId = false := by
  cases h with
  | scripted | counted => exact hw
  | decided id approved hgrant =>
    by_cases hid : callId = id
    · subst hid
      rw [InMemoryApprovalQueue.decision_setDecision_self]
      exact Bool.eq_false_iff.2 fun happroved => hnot (hgrant happroved)
    · rwa [InMemoryApprovalQueue.decision_setDecision_of_ne hid]

end Answers

/-! ## What runs -/

section Runs

variable {S : BaseSandbox} {u : CharTable} {rt : Interceptor.Runtime} {prt : Policy.Runtime}
  {verifier : StaticBearerTokenVerifier} {ruleset : Policy.PolicyRuleSet} {grants : String → Prop} {ι : Type}
  [DecidableEq ι] {suspends : SystemOp S → Bool} {calls : ι → PipelineCall} {world : LocalWorld}
  {s : Loop ι LocalWorld (SystemOp S) SystemOp.Answer Exc PipelineResult} {i : ι}

variable (S prt ruleset i) in
/-- The engine allowed the request of the task `i`, and the rules permitted it then. -/
def DecidedLocally (context : ExecutionContext) (request : ToolRequest)
    (m : Moment ι LocalWorld (SystemOp S) SystemOp.Answer) : Prop :=
  m.task = i ∧ (∃ timeout, m.event = handled S (collaborated S ⟨.evaluateToolCall context request timeout,
      .returned (Policy.approve (ruleset.needsApproval request.toolName request.functionName))⟩)) ∧
    Permitted prt ruleset m.before context request

/-- The question whether a call may run, with its answer. -/
abbrev question (S : BaseSandbox) (context : ExecutionContext) (request : ToolRequest) (a : Except Exc Bool) :
    SystemEvent S :=
  handled S (collaborated S ⟨.approvalCallback context request (Policy.approve true), a⟩)

omit [DecidableEq ι] in
/-- An allowed decision was made on rules that permitted the request. -/
lemma decidedLocally_of_returned {m : Moment ι LocalWorld (SystemOp S) SystemOp.Answer} {context : ExecutionContext}
    {request : ToolRequest} {timeout : JFloat} {d : PolicyDecision} (htask : m.task = i)
    (hevent : m.event = handled S (collaborated S ⟨.evaluateToolCall context request timeout, .returned d⟩))
    (hanswer : LocalAnswers S prt verifier ruleset m.before m.event.1 m.event.2 m.after) (hd : d.allowed = true) :
    DecidedLocally S prt ruleset i context request m ∧
      d = Policy.approve (ruleset.needsApproval request.toolName request.functionName) := by
  rw [hevent] at hanswer
  obtain rfl := hanswer.decision
  obtain ⟨hpermitted, hd'⟩ := permitted_of_allowed hd
  rw [hd'] at hevent
  exact ⟨⟨htask, ⟨timeout, hevent⟩, hpermitted⟩, hd'⟩

/-- What has happened before a call of the sandbox, as the stand-ins have answered it. -/
theorem cleared_locally (h : Reached suspends (LocalAnswers S prt verifier ruleset) (Operated grants)
      (fun i => (calls i).program S u rt) world s) {pre post : List (SystemEvent S)} {e : (q : S.Op) × S.Answer q}
    (hevent : own i s.past = pre ++ handled S (sandboxed S e) :: post) :
    ∃ proposed ∈ proposals pre, Executes S (calls i).context proposed.toToolRequest e ∧
      verifier.verify (calls i).bearerToken (calls i).context = true ∧
      (∃ m ∈ s.past, DecidedLocally S prt ruleset i (calls i).context proposed.toToolRequest m) ∧
      (NeedsApproval ruleset proposed.toToolRequest → ∃ m ∈ s.past, m.task = i ∧
        m.event = question S (calls i).context proposed.toToolRequest (.ok true) ∧
        m.before.approvals.decision proposed.callId = true) := by
  obtain ⟨begun, since, rfl, proposed, hmem, hexecuting, hopened⟩ := opened_of_executing h hevent
  have hbefore : begun ++ since ⊆ own i s.past := by
    rw [hevent]
    exact List.subset_append_left _ _
  obtain ⟨m, -, -, -, hverify⟩ := moment_of_mem_own h (hbefore (List.mem_append_left _ hopened.verified))
  have hverified : verifier.verify (calls i).bearerToken (calls i).context = true :=
    (Except.ok.inj hverify.verification).symm
  obtain ⟨timeout, d, hd, hevaluated, hgranted⟩ := hopened.allowed
  obtain ⟨m, hm, htask, hdecided, hanswer⟩ := moment_of_mem_own h (hbefore (List.mem_append_right _ hevaluated))
  rw [← hdecided] at hanswer
  obtain ⟨hdecides, rfl⟩ := decidedLocally_of_returned htask hdecided hanswer hd
  refine ⟨proposed, ?_, ⟨_, hexecuting⟩, hverified, ⟨m, hm, hdecides⟩, fun hneeds => ?_⟩
  · rw [proposals_append]
    exact List.mem_append_left _ hmem
  rw [show ruleset.needsApproval proposed.toToolRequest.toolName proposed.toToolRequest.functionName = true
    from hneeds] at hgranted
  obtain ⟨m, hm, htask, hquestion, hanswer⟩ :=
    moment_of_mem_own h (hbefore (List.mem_append_right _ (hgranted (by simp [Policy.approve]))))
  exact ⟨m, hm, htask, hquestion, (Except.ok.inj hanswer.approval.1).symm⟩

/-- A call that is not granted at first and that the operator does not grant has never been granted. -/
lemma ungranted (h : Reached suspends (LocalAnswers S prt verifier ruleset) (Operated grants)
      (fun i => (calls i).program S u rt) world s) {callId : String} (hnot : ¬ grants callId)
    (hworld : world.approvals.decision callId = false) :
    s.world.approvals.decision callId = false ∧ ∀ m ∈ s.past, m.before.approvals.decision callId = false := by
  refine h.always (I := fun w => w.approvals.decision callId = false) hworld (fun _ _ _ _ hw hE => ?_) fun _ _ hw hout => ?_
  · exact (hE.decisions callId).trans hw
  · exact hout.stays_ungranted hnot hw

/-- **Only what the rules permit runs.**  Whatever the sandbox does, it does for a proposed call of a pipeline whose token
is good, and which the rules permit.  Where they ask for an approval, the reviewer was asked about this very request and
the queue said yes, because the operator had granted the call or it was granted from the start. -/
theorem local_gate (h : Reached suspends (LocalAnswers S prt verifier ruleset) (Operated grants)
      (fun i => (calls i).program S u rt) world s) (i : ι) (pre post : List (SystemEvent S))
    (e : (q : S.Op) × S.Answer q) (hevent : own i s.past = pre ++ handled S (sandboxed S e) :: post) :
    ∃ proposed ∈ proposals pre, Executes S (calls i).context proposed.toToolRequest e ∧
      verifier.verify (calls i).bearerToken (calls i).context = true ∧
      (∃ m ∈ s.past, DecidedLocally S prt ruleset i (calls i).context proposed.toToolRequest m) ∧
      (NeedsApproval ruleset proposed.toToolRequest →
        question S (calls i).context proposed.toToolRequest (.ok true) ∈ own i s.past ∧
          (grants proposed.callId ∨ world.approvals.decision proposed.callId = true)) := by
  obtain ⟨proposed, hmem, hexecutes, hverified, hpermitted, hneeds⟩ := cleared_locally h hevent
  refine ⟨proposed, hmem, hexecutes, hverified, hpermitted, fun hasks => ?_⟩
  obtain ⟨m, hm, htask, hquestion, hdecision⟩ := hneeds hasks
  refine ⟨mem_own.2 ⟨m, hm, htask, hquestion⟩, ?_⟩
  by_contra hungranted
  obtain ⟨hnot, hworld⟩ := not_or.1 hungranted
  have hnever := (ungranted h hnot (Bool.eq_false_iff.2 hworld)).2 m hm
  rw [hnever] at hdecision
  cases hdecision

/-! ## What the reviewer sees -/

/-- What an event shows the reviewer. -/
def question? : SystemEvent S → Option Question
  | ⟨.governed (.collaborator (.approvalCallback context request d)), _⟩ => some (context, request, d)
  | _ => none

lemma of_question {e : SystemEvent S} {q : Question} (h : question? e = some q) : ∃ context request d a,
    q = (context, request, d) ∧ e = handled S (collaborated S ⟨.approvalCallback context request d, a⟩) := by
  unfold question? at h
  split at h
  · exact ⟨_, _, _, _, (Option.some.inj h).symm, rfl⟩
  · cases h

lemma received_of_answers {q : SystemOp S} {a : q.Answer} {w w' : LocalWorld}
    (h : LocalAnswers S prt verifier ruleset w q a w') :
    w'.approvals.received = w.approvals.received ++ (question? ⟨q, a⟩).toList := by
  cases h with
  | asked => rfl
  | @other q a hlocal =>
    cases hquestion : question? (⟨q, a⟩ : SystemEvent S) with
    | none => exact (List.append_nil _).symm
    | some _ =>
      obtain ⟨_, _, _, _, -, heq⟩ := of_question hquestion
      obtain ⟨rfl, -⟩ := Sigma.mk.inj heq
      cases hlocal
  | verified => exact (List.append_nil _).symm
  | counted => exact (List.append_nil _).symm
  | proposed => exact (List.append_nil _).symm
  | completed => exact (List.append_nil _).symm
  | decided => exact (List.append_nil _).symm
  | undecided => exact (List.append_nil _).symm

lemma Operated.received {w w' : LocalWorld} (h : Operated grants w w') :
    w'.approvals.received = w.approvals.received := by
  cases h <;> rfl

/-- A question is about a proposed call, after the engine has allowed it. -/
lemma question_of_advances {call : PipelineCall} {p : Coro (SystemOp S) SystemOp.Answer Exc PipelineResult}
    {pre post : List (SystemEvent S)} {context : ExecutionContext} {request : ToolRequest} {d : PolicyDecision}
    {a : Except Exc Bool} (h : Advances (call.program S u rt)
      (pre ++ handled S (collaborated S ⟨.approvalCallback context request d, a⟩) :: post) p) :
    ∃ proposed ∈ proposals pre, context = call.context ∧ request = proposed.toToolRequest ∧ d.allowed = true ∧
      d.actionRequirements ≠ [] ∧
      handled S (collaborated S (evaluated call.interceptor context request (.returned d))) ∈ pre := by
  obtain ⟨n, clean, done, proposed, rest, earlier, c, c', r, rfl, -, -, hgoverned⟩ := governed_of_advances h
  obtain ⟨before, rfl, d', hquestion, hd, hrequired, hmem, -⟩ := governed_question hgoverned
  obtain ⟨rfl, rfl, rfl⟩ : context = call.context ∧ request = proposed.toToolRequest ∧ d = d' := by
    simpa using hquestion
  refine ⟨proposed, by simp [proposals], rfl, rfl, hd, hrequired, ?_⟩
  refine List.mem_cons_of_mem _ (List.mem_cons_of_mem _ (List.mem_cons_of_mem _ (List.mem_append_right _ ?_)))
  exact List.mem_map_of_mem (List.mem_map_of_mem hmem)

/-- **The reviewer sees every question, and nothing else**: the queue holds what was asked, once and in order, and each of
it is a call that was proposed to that pipeline, as it was proposed, which the rules permit but for an approval. -/
theorem reviewer_sees (h : Reached suspends (LocalAnswers S prt verifier ruleset) (Operated grants)
      (fun i => (calls i).program S u rt) world s) :
    s.world.approvals.received = world.approvals.received ++ (seen question? s.past).map Prod.snd ∧
      ∀ i q, (i, q) ∈ seen question? s.past → ∃ proposed ∈ proposals (own i s.past),
        q = ((calls i).context, proposed.toToolRequest, Policy.approve true) ∧
          (∃ m ∈ s.past, DecidedLocally S prt ruleset i (calls i).context proposed.toToolRequest m) ∧
          NeedsApproval ruleset proposed.toToolRequest := by
  constructor
  · induction h with
    | init => exact (List.append_nil _).symm
    | start _ _ _ _ ih => exact ih
    | @resume s i q k a w _ _ _ hE ih =>
      rw [received_of_answers hE, ih, seen_append, List.map_append, List.append_assoc]
      congr 2
      cases hquestion : question? (⟨q, a⟩ : SystemEvent S) <;> simp [seen, hquestion]
    | moved _ hout ih => exact hout.received.trans ih
  · intro i q hq
    obtain ⟨m, hm, heq⟩ := List.mem_filterMap.1 hq
    obtain ⟨_, hquestion, heq⟩ := Option.map_eq_some_iff.1 heq
    obtain ⟨rfl, rfl⟩ := Prod.mk.inj heq
    obtain ⟨context, request, d, a, rfl, hevent⟩ := of_question hquestion
    have hown := mem_own.2 ⟨m, hm, rfl, hevent⟩
    obtain ⟨p, -, hadvances⟩ := h.advances_of_mem hown
    obtain ⟨pre, post, hsplit⟩ := List.append_of_mem hown
    rw [hsplit] at hadvances
    obtain ⟨proposed, hmem, rfl, rfl, hd, hrequired, hevaluated⟩ := question_of_advances hadvances
    have hearlier := List.mem_append_left
      (handled S (collaborated S ⟨.approvalCallback (calls m.task).context proposed.toToolRequest d, a⟩) :: post) hevaluated
    rw [← hsplit] at hearlier
    obtain ⟨m', hm', htask', hdecided, hanswer⟩ := moment_of_mem_own h hearlier
    rw [← hdecided] at hanswer
    obtain ⟨hdecides, rfl⟩ := decidedLocally_of_returned htask' hdecided hanswer hd
    have hneeds : ruleset.needsApproval proposed.toToolRequest.toolName proposed.toToolRequest.functionName = true := by
      by_contra hnot
      rw [Bool.eq_false_iff.2 hnot] at hrequired
      exact hrequired rfl
    refine ⟨proposed, ?_, ?_, ⟨m', hm', hdecides⟩, hneeds⟩
    · rw [hsplit, proposals_append]
      exact List.mem_append_left _ hmem
    · rw [hneeds]

end Runs

/-! ### A deployment to production -/

section Sample

def deployCall : ProposedToolCall := ⟨"deploy_tool", "deploy", Dict.empty.set "environment" (.str "production"), "c1"⟩

def deployPipeline : PipelineCall := { samplePipelineCall with context := Policy.productionAdmin }

/-- The operator has decided before the pipeline starts. -/
def decidedWorld : LocalWorld where
  client := FakeLLMClient.scriptToolCall {} deployCall
  approvals := InMemoryApprovalQueue.setDecision {} "c1" true

/-- The stand-ins, with the example rules; the rest is answered as in `granting`. -/
def answerLocally : (q : SystemOp sampleSandbox) → LocalWorld → q.Answer × LocalWorld
  | .pipeline (.verify credential context), w => (.ok (StaticBearerTokenVerifier.verify {} credential context), w)
  | .pipeline (.countCall agentId), w =>
    (w.callCounts agentId + 1, { w with callCounts := Function.update w.callCounts agentId (w.callCounts agentId + 1) })
  | .pipeline (.proposeToolCalls prompt context), w => (.ok (w.client.proposeToolCalls prompt context), w)
  | .pipeline (.handle context request), w =>
    ((granting deployCall sampleAnswer (.pipeline (.handle context request)) ()).1, w)
  | .pipeline (.complete prompt context), w => (.ok (w.client.complete prompt context), w)
  | .governed (.collaborator (.evaluateToolCall context request _)), w =>
    (.returned ((w.engine Policy.exampleRuleset).evaluate Policy.plainRuntime context request), w)
  | .governed (.collaborator (.approvalCallback context request d)), w =>
    (.ok (w.approvals.call context request d).1, { w with approvals := (w.approvals.call context request d).2 })
  | .governed (.collaborator q), w =>
    ((granting deployCall sampleAnswer (.governed (.collaborator q)) ()).1, w)
  | .governed (.sandbox q), w => (sampleAnswer q, w)

lemma answerLocally_answers (q : SystemOp sampleSandbox) (w : LocalWorld) :
    LocalAnswers sampleSandbox Policy.plainRuntime {} Policy.exampleRuleset w q (answerLocally q w).1 (answerLocally q w).2 := by
  cases q with
  | pipeline q =>
    cases q with
    | verify => exact .verified ..
    | countCall => exact .counted ..
    | proposeToolCalls => exact .proposed ..
    | handle => exact .other _ _ rfl
    | complete => exact .completed ..
  | governed q =>
    cases q with
    | sandbox q => exact .other _ _ rfl
    | collaborator q =>
      cases q with
      | evaluateToolCall => exact .decided ..
      | approvalCallback => exact .asked ..
      | _ => exact .other _ _ rfl

abbrev deployRun : List (SystemEvent sampleSandbox) × Except Exc PipelineResult × LocalWorld :=
  (deployPipeline.program sampleSandbox .ascii sampleRuntime).run answerLocally decidedWorld

lemma deploy_reached : ∃ s, Reached (fun _ => true)
    (LocalAnswers sampleSandbox Policy.plainRuntime {} Policy.exampleRuleset) (Operated fun _ => False)
    (fun i => (alone deployPipeline i).program sampleSandbox .ascii sampleRuntime) decidedWorld s ∧
      own () s.past = deployRun.1 ∧ s.world = deployRun.2.2 := by
  obtain ⟨s, hreached, hown, -, hworld⟩ := reached_alone (Operated fun _ => False)
    (runs_run answerLocally_answers (deployPipeline.program sampleSandbox .ascii sampleRuntime) decidedWorld)
  exact ⟨s, hreached, hown, hworld⟩

theorem local_gate_deploy : ∃ (s : Loop Unit LocalWorld (SystemOp sampleSandbox) SystemOp.Answer Exc PipelineResult),
    own () s.past = deployRun.1 ∧
    ∃ pre e post, deployRun.1 = pre ++ handled sampleSandbox (sandboxed sampleSandbox e) :: post ∧
      ∃ proposed ∈ proposals pre,
      Executes sampleSandbox Policy.productionAdmin (ProposedToolCall.toToolRequest proposed) e ∧
      (∃ m ∈ s.past, DecidedLocally sampleSandbox Policy.plainRuntime Policy.exampleRuleset () Policy.productionAdmin
        proposed.toToolRequest m) ∧
      question sampleSandbox Policy.productionAdmin proposed.toToolRequest (.ok true) ∈ deployRun.1 := by
  obtain ⟨s, hreached, hown, -⟩ := deploy_reached
  have hsplit : deployRun.1 = deployRun.1.take 7 ++ handled sampleSandbox (sandboxed sampleSandbox
      ⟨.waitFor .default deployCall.toToolRequest Policy.productionAdmin .nan, .returned "found"⟩) :: deployRun.1.drop 8 := rfl
  obtain ⟨proposed, hmem, hexecutes, -, hdecided, hneeds⟩ := local_gate hreached () _ _ _ (hown.trans hsplit)
  have hproposals : proposals (deployRun.1.take 7) = [deployCall] := rfl
  obtain rfl : proposed = deployCall := List.mem_singleton.1 (hproposals ▸ hmem)
  have hquestion := (hneeds (show Policy.exampleRuleset.needsApproval "deploy_tool" "deploy" = true from rfl)).1
  rw [hown] at hquestion
  exact ⟨s, hown, _, _, _, hsplit, deployCall, hmem, hexecutes, hdecided, hquestion⟩

theorem reviewer_sees_deploy : ∃ q ∈ deployRun.2.2.approvals.received,
    q = (Policy.productionAdmin, deployCall.toToolRequest, Policy.approve true) ∧
      NeedsApproval Policy.exampleRuleset deployCall.toToolRequest := by
  obtain ⟨s, hreached, hown, hworld⟩ := deploy_reached
  obtain ⟨hreceived, hpermitted⟩ := reviewer_sees hreached
  have hasked : question sampleSandbox Policy.productionAdmin deployCall.toToolRequest (.ok true) ∈ own () s.past := by
    rw [hown]
    exact List.mem_of_getElem? (show deployRun.1[4]? = some _ from rfl)
  obtain ⟨m, hm, -, hevent⟩ := mem_own.1 hasked
  have hseen : ((), (Policy.productionAdmin, deployCall.toToolRequest, Policy.approve true)) ∈ seen question? s.past :=
    List.mem_filterMap.2 ⟨m, hm, by rw [hevent]; rfl⟩
  obtain ⟨proposed, -, heq, -, hneeds⟩ := hpermitted _ _ hseen
  refine ⟨_, ?_, rfl, ?_⟩
  · rw [← hworld, hreceived]
    exact List.mem_append_right _ (List.mem_map_of_mem hseen)
  · rwa [(Prod.mk.inj (Prod.mk.inj heq).2).1]

end Sample

end Aimw
