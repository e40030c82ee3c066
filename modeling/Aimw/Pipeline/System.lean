import Aimw.Interceptor.Linked
import Aimw.Pipeline.Paths

/-!
# The whole pipeline

The pipeline with the interceptor linked in, and the interceptor with its sandbox: one program, over the calls that
leave the process.

* `handle_split` — a call made for a proposed call, and what the pipeline has done before it;
* `system_gate` — at any number of pipelines on one event loop, no sandbox does anything before the credential is
  verified, the rate checked, the prompt accepted, the call proposed and the gate of the interceptor opened.
-/

namespace Aimw

open Lib Audit Coro Guardrails Interceptor

/-! ## The program -/

inductive SystemOp (S : BaseSandbox)
  | pipeline (q : PipelineOp)
  | governed (q : GovernedOp S)

abbrev SystemOp.Answer {S : BaseSandbox} : SystemOp S → Type
  | pipeline q => q.Answer
  | governed q => q.Answer

instance {S : BaseSandbox} : (q : SystemOp S) → Nonempty q.Answer
  | .pipeline (.verify _ _) => ⟨.ok true⟩
  | .pipeline (.countCall _) => ⟨(0 : ℤ)⟩
  | .pipeline (.proposeToolCalls _ _) => ⟨.ok []⟩
  | .pipeline (.handle _ _) => ⟨.error .cancelledError⟩
  | .pipeline (.complete _ _) => ⟨.ok ""⟩
  | .governed q => inferInstanceAs (Nonempty q.Answer)

abbrev SystemEvent (S : BaseSandbox) : Type := (q : SystemOp S) × q.Answer

/-- The pipeline hands the proposed calls to the interceptor; the others answer for themselves. -/
def interceptCall (S : BaseSandbox) (rt : Runtime) (ic : ToolCallInterceptor) :
    (q : PipelineOp) → Coro (SystemOp S) SystemOp.Answer Empty q.Answer
  | .handle context request => (rename SystemOp.governed (ic.governed S rt context request)).attempt
  | q => perform (SystemOp.pipeline q)

/-- A call of `run`, on a pipeline and an interceptor of its own. -/
structure PipelineCall where
  prompt : String
  context : ExecutionContext
  bearerToken : String
  pipeline : GovernancePipeline
  interceptor : ToolCallInterceptor

/-- `run`, down to the calls of the sandbox. -/
def PipelineCall.program (S : BaseSandbox) (u : CharTable) (rt : Runtime) (call : PipelineCall) :
    Coro (SystemOp S) SystemOp.Answer Exc PipelineResult :=
  (GovernancePipeline.run u call.prompt call.context call.bearerToken call.pipeline).link
    (interceptCall S rt call.interceptor)

section Events

variable (S : BaseSandbox)

/-- A call of the pipeline itself. -/
abbrev piped (e : PipelineEvent) : SystemEvent S := ⟨.pipeline e.1, e.2⟩

/-- A call that is made while a proposed call is handled. -/
abbrev handled (e : GovernedEvent S) : SystemEvent S := ⟨.governed e.1, e.2⟩

end Events

variable {S : BaseSandbox} {u : CharTable} {rt : Runtime} {ic : ToolCallInterceptor}

def isHandle : PipelineOp → Bool
  | .handle _ _ => true
  | _ => false

lemma interceptCall_of_not_handle {q : PipelineOp} (h : isHandle q = false) :
    interceptCall S rt ic q = perform (SystemOp.pipeline q) := by
  cases q <;> first | rfl | cases h

section Runs

variable {World : Type} {E : World → (q : SystemOp S) → q.Answer → World → Prop} {w w' : World}
  {tr : List (SystemEvent S)}

lemma runs_interceptCall {q : PipelineOp} {a : q.Answer} (h : isHandle q = false)
    (hruns : Runs E w (interceptCall S rt ic q) tr (.ok a) w') : tr = [piped S ⟨q, a⟩] := by
  rw [interceptCall_of_not_handle h] at hruns
  obtain ⟨b, rfl, -, hb⟩ := runs_perform_iff.1 hruns
  obtain rfl := Except.ok.inj hb
  rfl

lemma runs_interceptCall_handle {context : ExecutionContext} {request : ToolRequest}
    {a : Except Exc InterceptorResult}
    (hruns : Runs E w (interceptCall S rt ic (.handle context request)) tr (.ok a) w') :
    ∃ t, tr = t.map (handled S) ∧
      Runs (fun w q a w' => E w (.governed q) a w') w (ic.governed S rt context request) t a w' := by
  obtain ⟨t, rfl, hrun⟩ := runs_rename_iff.1 (runs_attempt_iff.1 hruns)
  exact ⟨t, rfl, hrun⟩

/-- Calls that hand nothing to the interceptor are carried out as they stand. -/
lemma implements_without_handle {outer : List PipelineEvent}
    (h : Implements E (interceptCall S rt ic) w outer tr w') (hnone : ∀ e ∈ outer, isHandle e.1 = false) :
    tr = outer.map (piped S) := by
  induction h with
  | nil => rfl
  | cons hinner _ ih =>
    obtain ⟨hq, hrest⟩ := List.forall_mem_cons.1 hnone
    rw [runs_interceptCall hq hinner, ih hrest]
    rfl

end Runs

/-! ## Before a proposed call -/

section Before

variable {prompt bearerToken : String} {context : ExecutionContext} {gateway : LiteLLMGatewayShim}
  {guardrail : BaseGuardrail}

lemma GatewayPath.not_handle {g : List PipelineEvent} {r : Except Exc String}
    (h : GatewayPath u prompt bearerToken context gateway g r) : ∀ e ∈ g, isHandle e.1 = false := by
  cases h <;> simp [isHandle]

/-- A gateway that passes the prompt on has verified the credential and counted the call. -/
lemma GatewayPath.passed_eq {g : List PipelineEvent} {masked : String}
    (h : GatewayPath u prompt bearerToken context gateway g (.ok masked)) : masked = mask u prompt ∧
      ∃ n ≤ gateway.rateLimitPerMinute,
        g = [⟨.verify bearerToken context, .ok true⟩, ⟨.countCall context.agentId, n⟩] := by
  generalize hr : (Except.ok masked : Except Exc String) = r at h
  cases h with
  | raised => cases hr
  | unverified => cases hr
  | limited => cases hr
  | passed hn => exact ⟨Except.ok.inj hr, _, hn, rfl⟩

/-- A call in the loop is a proposed one, and the earlier ones have returned. -/
lemma Handled.split {calls : List ProposedToolCall} {t : List PipelineEvent} {r : Except Exc (List InterceptorResult)}
    (h : Handled context calls t r) {t₁ t₂ : List PipelineEvent} {event : PipelineEvent} (ht : t = t₁ ++ event :: t₂) :
    ∃ done call rest a, calls = done ++ call :: rest ∧ event = ⟨.handle context call.toToolRequest, a⟩ ∧
      ∃ results, Handled context done t₁ (.ok results) := by
  induction h generalizing t₁ with
  | nil => simp at ht
  | raised call calls e =>
    cases t₁ with
    | nil =>
      obtain ⟨rfl, -⟩ := List.cons.inj ht
      exact ⟨[], call, calls, .error e, rfl, rfl, [], .nil⟩
    | cons e' t₁ =>
      obtain ⟨-, ht⟩ := List.cons.inj ht
      simp at ht
  | @cons calls t r call result _ ih =>
    cases t₁ with
    | nil =>
      obtain ⟨rfl, -⟩ := List.cons.inj ht
      exact ⟨[], call, calls, .ok result, rfl, rfl, [], .nil⟩
    | cons e' t₁ =>
      obtain ⟨rfl, htail⟩ := List.cons.inj ht
      obtain ⟨done, call', rest, a, rfl, rfl, results, hdone⟩ := ih htail
      exact ⟨call :: done, call', rest, a, rfl, rfl, result :: results, .cons call result hdone⟩

/-- **Before a proposed call is handled**, the gateway has passed the prompt, the guardrail has accepted it, the LLM has
proposed the call, and the calls proposed before it have returned. -/
theorem handle_split {t₁ t₂ : List PipelineEvent} {event : PipelineEvent} {r : Except Exc PipelineResult}
    (h : RunPath u prompt bearerToken context gateway guardrail (t₁ ++ event :: t₂) r) (hhandle : isHandle event.1 = true) :
    ∃ n clean done call rest a t results, event = ⟨.handle context call.toToolRequest, a⟩ ∧
      t₁ = ⟨.verify bearerToken context, .ok true⟩ :: ⟨.countCall context.agentId, n⟩ ::
        ⟨.proposeToolCalls clean context, .ok (done ++ call :: rest)⟩ :: t ∧
      n ≤ gateway.rateLimitPerMinute ∧ guardrail.inspectInput (mask u prompt) context = .ok clean ∧
      Handled context done t (.ok results) := by
  have hnot : ∀ {l : List PipelineEvent}, (∀ e ∈ l, isHandle e.1 = false) → event ∉ l := by
    intro l hl hmem
    exact absurd ((hl event hmem).symm.trans hhandle) (by simp)
  -- a call in what follows the proposal
  have hloop : ∀ {g t after : List PipelineEvent} {masked clean : String} {calls : List ProposedToolCall}
      {r : Except Exc (List InterceptorResult)}, GatewayPath u prompt bearerToken context gateway g (.ok masked) →
      guardrail.inspectInput masked context = .ok clean → Handled context calls t r → event ∉ after →
      t₁ ++ event :: t₂ = g ++ ⟨.proposeToolCalls clean context, .ok calls⟩ :: (t ++ after) →
      ∃ n clean done call rest a t results, event = ⟨.handle context call.toToolRequest, a⟩ ∧
        t₁ = ⟨.verify bearerToken context, .ok true⟩ :: ⟨.countCall context.agentId, n⟩ ::
          ⟨.proposeToolCalls clean context, .ok (done ++ call :: rest)⟩ :: t ∧
        n ≤ gateway.rateLimitPerMinute ∧ guardrail.inspectInput (mask u prompt) context = .ok clean ∧
        Handled context done t (.ok results) := by
    intro g t after masked clean calls r hgateway hclean hhandled hafter heq
    obtain ⟨rfl, n, hn, rfl⟩ := hgateway.passed_eq
    have hfirst : event ∉ [⟨.verify bearerToken context, .ok true⟩, ⟨.countCall context.agentId, n⟩,
        (⟨.proposeToolCalls clean context, .ok calls⟩ : PipelineEvent)] := hnot (by simp [isHandle])
    obtain ⟨c, rfl, hc⟩ := split_right_of_not_mem hfirst heq
    obtain ⟨d, rfl, -⟩ := split_left_of_not_mem hafter hc.symm
    obtain ⟨done, call, rest, a, rfl, hevent, results, hdone⟩ := hhandled.split rfl
    exact ⟨n, clean, done, call, rest, a, c, results, hevent, rfl, hn, hclean, hdone⟩
  generalize htr : t₁ ++ event :: t₂ = tr at h
  cases h with
  | turnedAway hgateway => exact absurd (htr ▸ List.mem_append_right t₁ List.mem_cons_self) (hnot hgateway.not_handle)
  | rejected hgateway _ => exact absurd (htr ▸ List.mem_append_right t₁ List.mem_cons_self) (hnot hgateway.not_handle)
  | unproposed hgateway _ =>
    refine absurd (htr ▸ List.mem_append_right t₁ List.mem_cons_self) (hnot (List.forall_mem_append.2 ⟨hgateway.not_handle, ?_⟩))
    simp [isHandle]
  | stopped hgateway hclean hhandled => 
    have hnone : event ∉ ([] : List PipelineEvent) := List.not_mem_nil
    exact hloop hgateway hclean hhandled hnone (by simpa using htr)
  | completed a hgateway hclean hhandled =>
    exact hloop hgateway hclean hhandled (hnot (by simp [isHandle])) htr

end Before

/-! ## The gates -/

variable (S u) in
/-- When the sandbox makes the call `e`, this is what the pipeline has done: the credential was verified, the rate was
kept, the guardrail accepted the prompt, the LLM proposed a call, the interceptor's gate was opened for it, and the
sandbox is executing it. -/
def Cleared (call : PipelineCall) (pre : List (SystemEvent S)) (e : (q : S.Op) × S.Answer q) : Prop :=
  ∃ n clean done proposed rest earlier before t t' out,
    pre = piped S ⟨.verify call.bearerToken call.context, .ok true⟩ ::
      piped S ⟨.countCall call.context.agentId, n⟩ ::
      piped S ⟨.proposeToolCalls clean call.context, .ok (done ++ proposed :: rest)⟩ ::
      (earlier ++ (before.map (collaborated S) ++ t.map (sandboxed S)).map (handled S)) ∧
    n ≤ call.pipeline.gateway.rateLimitPerMinute ∧
    call.pipeline.guardrail.inspectInput (mask u call.prompt) call.context = .ok clean ∧
    GateOpen call.interceptor call.context proposed.toToolRequest before ∧ executions before = [] ∧
    Runs Anything () (S.execute proposed.toToolRequest call.context) (t ++ e :: t') out ()

/-- A call that is made while a proposed call is handled, with what the pipeline has done before. -/
theorem governed_of_advances {call : PipelineCall} {p : Coro (SystemOp S) SystemOp.Answer Exc PipelineResult}
    {pre post : List (SystemEvent S)} {e : GovernedEvent S}
    (h : Advances (call.program S u rt) (pre ++ handled S e :: post) p) :
    ∃ n clean done proposed rest earlier t t' r,
      pre = piped S ⟨.verify call.bearerToken call.context, .ok true⟩ ::
        piped S ⟨.countCall call.context.agentId, n⟩ ::
        piped S ⟨.proposeToolCalls clean call.context, .ok (done ++ proposed :: rest)⟩ ::
        (earlier ++ t.map (handled S)) ∧
      n ≤ call.pipeline.gateway.rateLimitPerMinute ∧
      call.pipeline.guardrail.inspectInput (mask u call.prompt) call.context = .ok clean ∧
      Runs Anything () (call.interceptor.governed S rt call.context proposed.toToolRequest) (t ++ e :: t') r () := by
  obtain ⟨outer₁, q, a, outer₂, r, t, s, s', hruns, rfl, hearlier, hinner⟩ := h.link_split
  have hhandle : isHandle q = true := by
    by_contra hnot
    have hone := runs_interceptCall (by simpa using hnot) hinner
    have hmem : handled S e ∈ [piped S ⟨q, a⟩] := hone ▸ List.mem_append_right s List.mem_cons_self
    cases List.mem_singleton.1 hmem
  obtain ⟨n, clean, done, proposed, rest, b, th, results, hevent, rfl, hn, hclean, -⟩ :=
    handle_split (run_path hruns) hhandle
  obtain ⟨rfl, hb⟩ := Sigma.mk.inj hevent
  obtain rfl := eq_of_heq hb
  -- the first three calls stand for themselves
  rcases hearlier with _ | ⟨hverify, hearlier⟩
  obtain rfl := runs_interceptCall rfl hverify
  rcases hearlier with _ | ⟨hcount, hearlier⟩
  obtain rfl := runs_interceptCall rfl hcount
  rcases hearlier with _ | ⟨hpropose, hearlier⟩
  obtain rfl := runs_interceptCall rfl hpropose
  obtain ⟨c, hc, hgoverned⟩ := runs_interceptCall_handle hinner
  obtain ⟨c₁, c₂, rfl, rfl, hc₂⟩ := List.map_eq_append_iff.1 hc.symm
  obtain ⟨e', c₃, rfl, he, rfl⟩ := List.map_eq_cons_iff.1 hc₂
  obtain ⟨he₁, he₂⟩ := Sigma.mk.inj he
  obtain ⟨q', a'⟩ := e'
  obtain rfl := SystemOp.governed.inj he₁
  obtain rfl := eq_of_heq he₂
  exact ⟨n, clean, done, proposed, rest, _, c₁, c₃, a, rfl, hn, hclean, hgoverned.anything⟩

/-- A pipeline on its way. -/
theorem cleared_of_advances {call : PipelineCall} {p : Coro (SystemOp S) SystemOp.Answer Exc PipelineResult}
    {pre post : List (SystemEvent S)} {e : (q : S.Op) × S.Answer q}
    (h : Advances (call.program S u rt) (pre ++ handled S (sandboxed S e) :: post) p) : Cleared S u call pre e := by
  obtain ⟨n, clean, done, proposed, rest, earlier, c, c', r, rfl, hn, hclean, hgoverned⟩ := governed_of_advances h
  obtain ⟨before, t, t', out, rfl, hgate, hbefore, hsandbox⟩ := governed_split hgoverned
  exact ⟨n, clean, done, proposed, rest, earlier, before, t, t', out, rfl, hn, hclean, hgate, hbefore, hsandbox⟩

section Loop

variable {ι World : Type} [DecidableEq ι] {suspends : SystemOp S → Bool}
  {E : World → (q : SystemOp S) → q.Answer → World → Prop} {outside : World → World → Prop} {calls : ι → PipelineCall}
  {world : World} {s : Loop ι World (SystemOp S) SystemOp.Answer Exc PipelineResult}

/-- **Nothing reaches a sandbox past a gate**, at any number of pipelines that take turns, whatever they are answered. -/
theorem system_gate (h : Reached suspends E outside (fun i => (calls i).program S u rt) world s) (i : ι)
    (pre post : List (SystemEvent S)) (e : (q : S.Op) × S.Answer q)
    (hevent : own i s.past = pre ++ handled S (sandboxed S e) :: post) : Cleared S u (calls i) pre e := by
  obtain ⟨p, -, hadvances⟩ := h.advances_of_mem (hevent ▸ List.mem_append_right pre List.mem_cons_self)
  rw [hevent] at hadvances
  exact cleared_of_advances hadvances

end Loop

/-! ### A call that is executed -/

section Sample

def sampleSandbox : BaseSandbox :=
  subprocessSandbox ⟨sampleRuntime.elapsedMs, fun _ => "5.0"⟩ (Sandbox.registered .nan [⟨"t", "f", .callable 1⟩])

def sampleProposal : ProposedToolCall := ⟨"t", "f", Dict.empty, "c1"⟩

/-- The pipeline is asked for a call that needs no approval. -/
def samplePipelineCall : PipelineCall where
  prompt := "Find it."
  context := sampleContext
  bearerToken := "token"
  pipeline := ⟨{}, RegexPIIGuardrail.toGuardrail .ascii {}⟩
  interceptor := sampleInterceptor false

/-- What the log may have returned. -/
def samplePipelineRecord : AuditRecord where
  recordId := "r1"
  timestamp := "2024-01-01T00:00:00Z"
  callId := "c1"
  context := { userId := "u", agentId := "a", sessionId := "s", roles := ["dev"] }
  request := { toolName := "t", functionName := "f", callId := "c1", parameters := [] }
  decision := []
  prevHash := GENESIS_HASH

/-- Everything is granted, and the sandbox gets its answers. -/
def granting {S : BaseSandbox} (proposed : ProposedToolCall) (answer : (q : S.Op) → S.Answer q) :
    (q : SystemOp S) → Unit → q.Answer × Unit
  | .pipeline (.verify _ _), _ => (.ok true, ())
  | .pipeline (.countCall _), _ => ((1 : ℤ), ())
  | .pipeline (.proposeToolCalls _ _), _ => (.ok [proposed], ())
  | .pipeline (.handle _ _), _ => (.error .cancelledError, ())
  | .pipeline (.complete _ _), _ => (.ok "Done.", ())
  | .governed (.collaborator (.check _ _)), _ => (.ok true, ())
  | .governed (.collaborator (.evaluateToolCall _ _ _)), _ => (.returned { allowed := true, reason := "ok" }, ())
  | .governed (.collaborator (.approvalCallback _ _ _)), _ => (.ok false, ())
  | .governed (.collaborator .monotonic), _ => (.nan, ())
  | .governed (.collaborator (.execute _ _)), _ => (.error .cancelledError, ())
  | .governed (.collaborator (.recordResult _ _ _)), _ => (.ok (), ())
  | .governed (.collaborator (.logCall _ _ _ _)), _ => (.ok samplePipelineRecord, ())
  | .governed (.sandbox q), _ => (answer q, ())

/-- The tool returns. -/
def sampleAnswer : (q : Sandbox.SandboxOp) → q.Answer
  | .monotonic => .nan
  | .waitFor _ _ _ _ => .returned "found"

abbrev sampleRun : List (SystemEvent sampleSandbox) × Except Exc PipelineResult × Unit :=
  (samplePipelineCall.program sampleSandbox .ascii sampleRuntime).run (granting sampleProposal sampleAnswer) ()

/-- What the sandbox is asked for, with its answer. -/
def sampleCall : (q : sampleSandbox.Op) × sampleSandbox.Answer q :=
  ⟨Sandbox.SandboxOp.waitFor (.callable 1) sampleProposal.toToolRequest sampleContext .nan, Awaited.returned "found"⟩

/-- One pipeline, on a loop of its own. -/
def alone (call : PipelineCall) : Unit → PipelineCall := fun _ => call

lemma reached_alone {S : BaseSandbox} {u : CharTable} {rt : Runtime} {World : Type}
    {E : World → (q : SystemOp S) → q.Answer → World → Prop} {w w' : World} {call : PipelineCall}
    {tr : List (SystemEvent S)} {r : Except Exc PipelineResult} (outside : World → World → Prop)
    (h : Runs E w (call.program S u rt) tr r w') :
    ∃ s, Reached (fun _ => true) E outside (fun i => (alone call i).program S u rt) w s ∧
      own () s.past = tr ∧ (s.tasks ()).bind result? = some r ∧ s.world = w' := by
  have hinit : Reached (fun _ => true) E outside (fun i => (alone call i).program S u rt) w
      ⟨w, fun _ => none, []⟩ := .init
  obtain ⟨p, past, hended, hown, -, hreached⟩ := hinit.run_through (i := ()) rfl (fun _ _ h => by cases h) h
  refine ⟨_, hreached, hown, ?_, rfl⟩
  have htask : Function.update (fun _ : Unit => none) () (some p) () = some p := Function.update_self ..
  exact (congrArg (Option.bind · result?) htask).trans hended

lemma granted_alone (S : BaseSandbox) (u : CharTable) (rt : Runtime) (call : PipelineCall) (proposed : ProposedToolCall)
    (answer : (q : S.Op) → S.Answer q) :
    ∃ s, Reached (fun _ => true) (fun w q a w' => granting proposed answer q w = (a, w')) (fun _ _ => False)
        (fun i => (alone call i).program S u rt) () s ∧
      own () s.past = ((call.program S u rt).run (granting proposed answer) ()).1 ∧
      (s.tasks ()).bind result? = some ((call.program S u rt).run (granting proposed answer) ()).2.1 := by
  have hruns := runs_run (E := fun w q a w' => granting proposed answer q w = (a, w')) (fun q w => rfl)
    (call.program S u rt) ()
  obtain ⟨s, hreached, hown, hended, -⟩ := reached_alone (fun _ _ => False) hruns
  exact ⟨s, hreached, hown, hended⟩

theorem system_gate_granted : ∃ pre post, sampleRun.1 = pre ++ handled _ (sandboxed _ sampleCall) :: post ∧
    Cleared sampleSandbox .ascii samplePipelineCall pre sampleCall := by
  obtain ⟨s, hreached, hown, -⟩ := granted_alone sampleSandbox .ascii sampleRuntime samplePipelineCall
    sampleProposal sampleAnswer
  have hsplit : sampleRun.1 = sampleRun.1.take 6 ++ handled _ (sandboxed _ sampleCall) :: sampleRun.1.drop 7 := rfl
  exact ⟨_, _, hsplit, system_gate hreached () _ _ _ (hown.trans hsplit)⟩

end Sample

end Aimw
