import Aimw.Pipeline

/-!
# The paths through the pipeline

What a run of `GovernancePipeline.run` can be, whatever its calls are answered: the gateway, the guardrail, the LLM, the
proposed calls one after the other, the LLM again, and the guardrail again.

* `GatewayPath` — the gateway turns the prompt away, or passes it on;
* `Handled` — the proposed calls, until `handle` raises;
* `RunPath`, `run_path` — the whole method.
-/

namespace Aimw

open Lib Coro Guardrails Interceptor

abbrev PipelineEvent : Type := (q : PipelineOp) × q.Answer

variable {u : CharTable} {prompt bearerToken : String} {context : ExecutionContext} {gateway : LiteLLMGatewayShim}
  {guardrail : BaseGuardrail}

/-! ## The gateway -/

variable (u prompt bearerToken context gateway) in
/-- The credential is verified and the call is counted. -/
inductive GatewayPath : List PipelineEvent → Except Exc String → Prop
  | raised (e : Exc) : GatewayPath [⟨.verify bearerToken context, .error e⟩] (.error e)
  | unverified (e : Exc) : GatewayPath [⟨.verify bearerToken context, .ok false⟩] (.error e)
  | limited {n : ℤ} (e : Exc) : gateway.rateLimitPerMinute < n →
      GatewayPath [⟨.verify bearerToken context, .ok true⟩, ⟨.countCall context.agentId, n⟩] (.error e)
  | passed {n : ℤ} : n ≤ gateway.rateLimitPerMinute →
      GatewayPath [⟨.verify bearerToken context, .ok true⟩, ⟨.countCall context.agentId, n⟩] (.ok (mask u prompt))

section Runs

variable {World : Type} {E : World → (q : PipelineOp) → q.Answer → World → Prop} {w w' : World} {tr : List PipelineEvent}

theorem gatewayPath_of_runs {r : Except Exc String}
    (h : Runs E w (gateway.handleInbound u prompt context bearerToken) tr r w') :
    GatewayPath u prompt bearerToken context gateway tr r := by
  have hauth : ∀ {t : List PipelineEvent} {w w' : World} {r : Except Exc Unit},
      Runs E w (LiteLLMGatewayShim.authenticate context bearerToken) t r w' →
      (∃ e, t = [⟨.verify bearerToken context, .error e⟩] ∧ r = .error e) ∨
        (∃ e, t = [⟨.verify bearerToken context, .ok false⟩] ∧ r = .error e) ∨
          (t = [⟨.verify bearerToken context, .ok true⟩] ∧ r = .ok ()) := by
    intro t w w' r hruns
    rcases runs_bind_iff.1 hruns with ⟨e, hverify, rfl⟩ | ⟨verified, w₁, t₁, t₂, rfl, hverify, hrest⟩
    · obtain ⟨a, rfl, -, ha⟩ := runs_await_iff.1 hverify
      obtain rfl : Except.error e = a := ha
      exact Or.inl ⟨e, rfl, rfl⟩
    · obtain ⟨a, rfl, -, ha⟩ := runs_await_iff.1 hverify
      obtain rfl : Except.ok verified = a := ha
      cases verified with
      | false =>
        obtain ⟨rfl, rfl, -⟩ := runs_raise_iff.1 hrest
        exact Or.inr (Or.inl ⟨_, rfl, rfl⟩)
      | true =>
        obtain ⟨rfl, rfl, -⟩ := runs_ret_iff.1 hrest
        exact Or.inr (Or.inr ⟨rfl, rfl⟩)
  rcases runs_bind_iff.1 h with ⟨e, hverify, rfl⟩ | ⟨⟨⟩, w₁, t₁, t₂, rfl, hverify, hrest⟩
  · rcases hauth hverify with ⟨e', rfl, he⟩ | ⟨e', rfl, -⟩ | ⟨-, he⟩
    · obtain rfl := Except.error.inj he
      exact .raised e
    · exact .unverified e
    · cases he
  · rcases hauth hverify with ⟨e', -, he⟩ | ⟨e', -, he⟩ | ⟨rfl, -⟩
    · cases he
    · cases he
    obtain ⟨n, w₂, t, rfl, -, hlimit⟩ := runs_call_iff.1 hrest
    have hcounted : Runs E w₂ ((if n > gateway.rateLimitPerMinute then
        raise (.exception s!"rate limit exceeded for agent '{context.agentId}'") else ret ()).bind
          fun _ => ret (mask u prompt)) t r w' := hlimit
    by_cases hn : n > gateway.rateLimitPerMinute
    · rw [if_pos hn] at hcounted
      obtain ⟨rfl, rfl, -⟩ := runs_raise_iff.1 hcounted
      exact .limited _ hn
    · rw [if_neg hn] at hcounted
      obtain ⟨rfl, rfl, -⟩ := runs_ret_iff.1 hcounted
      exact .passed (not_lt.1 hn)

end Runs

/-! ## The proposed calls -/

variable (context) in
/-- The proposed calls are handled in their order, and a call that raises is the last. -/
inductive Handled : List ProposedToolCall → List PipelineEvent → Except Exc (List InterceptorResult) → Prop
  | nil : Handled [] [] (.ok [])
  | raised (call : ProposedToolCall) (calls : List ProposedToolCall) (e : Exc) :
      Handled (call :: calls) [⟨.handle context call.toToolRequest, .error e⟩] (.error e)
  | cons {calls : List ProposedToolCall} {t : List PipelineEvent} {r : Except Exc (List InterceptorResult)}
      (call : ProposedToolCall) (result : InterceptorResult) : Handled calls t r →
      Handled (call :: calls) (⟨.handle context call.toToolRequest, .ok result⟩ :: t) (r.map (result :: ·))

section Runs

variable {World : Type} {E : World → (q : PipelineOp) → q.Answer → World → Prop} {w w' : World} {tr : List PipelineEvent}

theorem handled_of_runs {calls : List ProposedToolCall} {r : Except Exc (List InterceptorResult)}
    (h : Runs E w (handleAll context calls) tr r w') : Handled context calls tr r := by
  induction calls generalizing w tr r with
  | nil =>
    obtain ⟨rfl, rfl, -⟩ := runs_ret_iff.1 h
    exact .nil
  | cons call calls ih =>
    rcases runs_bind_iff.1 h with ⟨e, hcall, rfl⟩ | ⟨result, w₁, t₁, t₂, rfl, hcall, hrest⟩
    · obtain ⟨a, rfl, -, ha⟩ := runs_await_iff.1 hcall
      obtain rfl : Except.error e = a := ha
      exact .raised call calls e
    · obtain ⟨a, rfl, -, ha⟩ := runs_await_iff.1 hcall
      obtain rfl : Except.ok result = a := ha
      rcases runs_bind_iff.1 hrest with ⟨e, hcalls, rfl⟩ | ⟨results, w₂, t₃, t₄, rfl, hcalls, hlast⟩
      · exact .cons call result (ih hcalls)
      · obtain ⟨rfl, rfl, rfl⟩ := runs_ret_iff.1 hlast
        rw [List.append_nil]
        exact .cons call result (ih hcalls)

/-! ## The method -/

variable (u prompt bearerToken context gateway guardrail) in
/-- A run of the pipeline. -/
inductive RunPath : List PipelineEvent → Except Exc PipelineResult → Prop
  | turnedAway {g : List PipelineEvent} {e : Exc} :
      GatewayPath u prompt bearerToken context gateway g (.error e) → RunPath g (.error e)
  | rejected {g : List PipelineEvent} {masked : String} {e : Exc} :
      GatewayPath u prompt bearerToken context gateway g (.ok masked) →
      guardrail.inspectInput masked context = .error e → RunPath g (.error e)
  | unproposed {g : List PipelineEvent} {masked clean : String} {e : Exc} :
      GatewayPath u prompt bearerToken context gateway g (.ok masked) →
      guardrail.inspectInput masked context = .ok clean →
      RunPath (g ++ [⟨.proposeToolCalls clean context, .error e⟩]) (.error e)
  | stopped {g t : List PipelineEvent} {masked clean : String} {calls : List ProposedToolCall} {e : Exc} :
      GatewayPath u prompt bearerToken context gateway g (.ok masked) →
      guardrail.inspectInput masked context = .ok clean → Handled context calls t (.error e) →
      RunPath (g ++ ⟨.proposeToolCalls clean context, .ok calls⟩ :: t) (.error e)
  | completed {g t : List PipelineEvent} {masked clean : String} {calls : List ProposedToolCall}
      {results : List InterceptorResult} (a : Except Exc String) :
      GatewayPath u prompt bearerToken context gateway g (.ok masked) →
      guardrail.inspectInput masked context = .ok clean → Handled context calls t (.ok results) →
      RunPath (g ++ ⟨.proposeToolCalls clean context, .ok calls⟩ :: (t ++ [⟨.complete clean context, a⟩]))
        ((a.bind fun raw => guardrail.inspectOutput raw context).map fun final => ⟨final, results⟩)

/-- **Every run of the pipeline is one of the paths.** -/
theorem run_path {r : Except Exc PipelineResult}
    (h : Runs E w (GovernancePipeline.run u prompt context bearerToken ⟨gateway, guardrail⟩) tr r w') :
    RunPath u prompt bearerToken context gateway guardrail tr r := by
  rcases runs_bind_iff.1 h with ⟨e, hgateway, rfl⟩ | ⟨masked, w₁, g, t₁, rfl, hgateway, hguarded⟩
  · exact .turnedAway (gatewayPath_of_runs hgateway)
  have hpassed := gatewayPath_of_runs hgateway
  rcases runs_bind_iff.1 hguarded with ⟨e, hinput, rfl⟩ | ⟨clean, w₂, t₂, t₃, rfl, hinput, hloop⟩
  · obtain ⟨rfl, he, -⟩ := runs_ofExcept_iff.1 hinput
    rw [List.append_nil]
    exact .rejected hpassed he.symm
  obtain ⟨rfl, hclean, rfl⟩ := runs_ofExcept_iff.1 hinput
  rcases runs_bind_iff.1 hloop with ⟨e, hpropose, rfl⟩ | ⟨calls, w₃, t₄, t₅, rfl, hpropose, hproposed⟩
  · obtain ⟨a, rfl, -, ha⟩ := runs_await_iff.1 hpropose
    obtain rfl : Except.error e = a := ha
    exact .unproposed hpassed hclean.symm
  obtain ⟨a, rfl, -, ha⟩ := runs_await_iff.1 hpropose
  obtain rfl : Except.ok calls = a := ha
  rcases runs_bind_iff.1 hproposed with ⟨e, hcalls, rfl⟩ | ⟨results, w₄, t₆, t₇, rfl, hcalls, hanswer⟩
  · exact .stopped hpassed hclean.symm (handled_of_runs hcalls)
  have hcompleted := fun a => RunPath.completed a hpassed hclean.symm (handled_of_runs hcalls)
  rcases runs_bind_iff.1 hanswer with ⟨e, hcomplete, rfl⟩ | ⟨raw, w₅, t₈, t₉, rfl, hcomplete, hraw⟩
  · obtain ⟨a, rfl, -, ha⟩ := runs_await_iff.1 hcomplete
    obtain rfl : Except.error e = a := ha
    exact hcompleted (.error e)
  obtain ⟨a, rfl, -, ha⟩ := runs_await_iff.1 hcomplete
  obtain rfl : Except.ok raw = a := ha
  have hanswered := hcompleted (.ok raw)
  rcases runs_bind_iff.1 hraw with ⟨e, houtput, rfl⟩ | ⟨final, w₆, t₁₀, t₁₁, rfl, houtput, hlast⟩
  · obtain ⟨rfl, he, -⟩ := runs_ofExcept_iff.1 houtput
    have hraised : guardrail.inspectOutput raw context = .error e := he.symm
    simpa [Except.bind, hraised, Except.map] using hanswered
  · obtain ⟨rfl, hfinal, rfl⟩ := runs_ofExcept_iff.1 houtput
    obtain ⟨rfl, rfl, -⟩ := runs_ret_iff.1 hlast
    have hreturned : guardrail.inspectOutput raw context = .ok final := hfinal.symm
    simpa [Except.bind, hreturned, Except.map] using hanswered

end Runs

end Aimw
