import Aimw.Lib.Unwinding
import Aimw.Pipeline

/-!
# The quota of an agent

`_call_counts` over runs of `handle_inbound`.  A call counts when its credential verifies, whatever becomes of it then,
and no count is ever reset:

* `accepted_iff` — what every call of a run gets, and that calls of others do not change it;
* `rate_limit_iff` — when agents that keep to the limit in every minute are never rejected for it.
-/

namespace Aimw.Gateway

open Lib Coro Guardrails

/-- `_call_counts`, a `defaultdict(int)`. -/
abbrev CallCounts : Type := String → ℤ

/-- `BaseIdentityVerifier.verify`, at a clock time. -/
abbrev Verifier : Type := ℚ → String → ExecutionContext → Except Exc Bool

structure InboundCall where
  time : ℚ
  prompt : String
  context : ExecutionContext
  bearerToken : String

/-- What answers the gateway at the time `now`; the other operations are not performed by it. -/
def gatewayWorld (verify : Verifier) (now : ℚ) : (q : PipelineOp) → CallCounts → q.Answer × CallCounts
  | .verify credential context, counts => (verify now credential context, counts)
  | .countCall agentId, counts => (counts agentId + 1, Function.update counts agentId (counts agentId + 1))
  | .proposeToolCalls _ _, counts => (.ok [], counts)
  | .handle _ _, counts => (.error .cancelledError, counts)
  | .complete _ _, counts => (.ok "", counts)

def identityFailed : Exc := .exception "identity verification failed"

def rateLimitExceeded (agentId : String) : Exc := .exception s!"rate limit exceeded for agent '{agentId}'"

section Serve

variable (u : CharTable) (gateway : LiteLLMGatewayShim) (verify : Verifier)

/-- One call of `handle_inbound`. -/
def serve (counts : CallCounts) (call : InboundCall) : Except Exc String × CallCounts :=
  ((gateway.handleInbound u call.prompt call.context call.bearerToken).run (gatewayWorld verify call.time) counts).2

/-- The calls of a run with what they got, from a fresh gateway. -/
def served (calls : List InboundCall) : List (InboundCall × Except Exc String) :=
  transcript (serve u gateway verify) (fun _ => 0) calls

end Serve

variable {u : CharTable} {gateway : LiteLLMGatewayShim} {verify : Verifier} {counts : CallCounts} {call : InboundCall}

/-! ## One call -/

lemma serve_of_error {e : Exc} (h : verify call.time call.bearerToken call.context = .error e) :
    serve u gateway verify counts call = (.error e, counts) := by
  simp [serve, LiteLLMGatewayShim.handleInbound, LiteLLMGatewayShim.authenticate, Bind.bind, await, Coro.bind, run,
    gatewayWorld, h, Coro.ofExcept]

lemma serve_of_false (h : verify call.time call.bearerToken call.context = .ok false) :
    serve u gateway verify counts call = (.error identityFailed, counts) := by
  simp [serve, LiteLLMGatewayShim.handleInbound, LiteLLMGatewayShim.authenticate, Bind.bind, await, Coro.bind, run,
    gatewayWorld, h, Coro.ofExcept, identityFailed]

/-- A call that verifies is counted first and compared then. -/
lemma serve_of_true (h : verify call.time call.bearerToken call.context = .ok true) :
    serve u gateway verify counts call =
      (if gateway.rateLimitPerMinute < counts call.context.agentId + 1 then
          .error (rateLimitExceeded call.context.agentId)
        else .ok (mask u call.prompt),
        Function.update counts call.context.agentId (counts call.context.agentId + 1)) := by
  by_cases hlimit : gateway.rateLimitPerMinute < counts call.context.agentId + 1
  · simp [serve, LiteLLMGatewayShim.handleInbound, LiteLLMGatewayShim.authenticate,
      LiteLLMGatewayShim.checkRateLimit, Bind.bind, Pure.pure, await, perform, Coro.bind, run, gatewayWorld, h,
      Coro.ofExcept, hlimit, rateLimitExceeded]
  · simp [serve, LiteLLMGatewayShim.handleInbound, LiteLLMGatewayShim.authenticate,
      LiteLLMGatewayShim.checkRateLimit, Bind.bind, Pure.pure, await, perform, Coro.bind, run, gatewayWorld, h,
      Coro.ofExcept, hlimit]

/-- The call is one of the agent, and its credential verifies. -/
def spends (verify : Verifier) (agentId : String) (call : InboundCall) : Bool :=
  call.context.agentId == agentId &&
    match verify call.time call.bearerToken call.context with
    | .ok verified => verified
    | .error _ => false

/-- **What a call does to the counts.** -/
lemma serve_counts (agentId : String) :
    (serve u gateway verify counts call).2 agentId = counts agentId + if spends verify agentId call then 1 else 0 := by
  unfold spends
  cases h : verify call.time call.bearerToken call.context with
  | error e => simp [serve_of_error h]
  | ok verified =>
    cases verified with
    | false => simp [serve_of_false h]
    | true =>
      rw [serve_of_true h]
      by_cases hagent : call.context.agentId = agentId
      · subst hagent
        simp
      · simp [hagent, Function.update_of_ne (Ne.symm hagent)]

/-- A call sees the count of its own agent only. -/
lemma serve_congr {counts' : CallCounts} (h : counts call.context.agentId = counts' call.context.agentId) :
    (serve u gateway verify counts call).1 = (serve u gateway verify counts' call).1 := by
  cases hverify : verify call.time call.bearerToken call.context with
  | error e => rw [serve_of_error hverify, serve_of_error hverify]
  | ok verified =>
    cases verified with
    | false => rw [serve_of_false hverify, serve_of_false hverify]
    | true => rw [serve_of_true hverify, serve_of_true hverify, h]

/-! ## Runs -/

/-- The count of an agent is the number of its calls that verified. -/
theorem runFrom_counts (agentId : String) (calls : List InboundCall) :
    runFrom (serve u gateway verify) counts calls agentId = counts agentId + calls.countP (spends verify agentId) := by
  induction calls using List.reverseRecOn with
  | nil => simp
  | append_singleton calls call ih =>
    rw [runFrom_concat, serve_counts, ih, List.countP_append, List.countP_singleton]
    push_cast
    ring

/-- A call that verifies is rejected when its agent has had as many as the limit before it. -/
lemma serve_after (before : List InboundCall) (h : verify call.time call.bearerToken call.context = .ok true) :
    (serve u gateway verify (runFrom (serve u gateway verify) (fun _ => 0) before) call).1 =
      if (before.countP (spends verify call.context.agentId) : ℤ) < gateway.rateLimitPerMinute then
        .ok (mask u call.prompt)
      else .error (rateLimitExceeded call.context.agentId) := by
  rw [serve_of_true h, runFrom_counts, zero_add]
  split_ifs
  · omega
  · rfl
  · rfl
  · omega

/-! ## The limit of a minute -/

section Minute

variable (calls : List InboundCall) (agentId : String)

/-- At most `limit` calls of the agent in every span of 60 seconds. -/
def WithinLimit (limit : ℤ) : Prop :=
  ∀ start : ℚ, (calls.countP fun call =>
    call.context.agentId = agentId ∧ start ≤ call.time ∧ call.time < start + 60 : ℤ) ≤ limit

variable (u gateway verify) in
/-- A call of the agent is rejected for the rate limit. -/
def RateLimited : Prop :=
  ∃ call : InboundCall, call.context.agentId = agentId ∧
    (call, .error (rateLimitExceeded agentId)) ∈ served u gateway verify calls

end Minute

lemma countP_spends {calls : List InboundCall} (agentId : String)
    (hverify : ∀ call ∈ calls, verify call.time call.bearerToken call.context = .ok true) :
    calls.countP (spends verify agentId) = calls.countP fun call => call.context.agentId = agentId := by
  refine List.countP_congr fun call hcall => ?_
  simp [spends, hverify call hcall]

/-- The first calls of an agent are served, as many as the limit, and no other. -/
theorem rateLimited_iff {calls : List InboundCall} {agentId : String} (hlimit : 0 ≤ gateway.rateLimitPerMinute)
    (hverify : ∀ call ∈ calls, verify call.time call.bearerToken call.context = .ok true) :
    RateLimited u gateway verify calls agentId ↔
      gateway.rateLimitPerMinute < (calls.countP fun call => call.context.agentId = agentId : ℕ) := by
  rw [← countP_spends agentId hverify]
  constructor
  · rintro ⟨call, rfl, hmem⟩
    obtain ⟨before, after, rfl, hanswer⟩ := mem_transcript_iff.1 hmem
    have hcall := hverify call (by simp)
    rw [serve_after before hcall] at hanswer
    split_ifs at hanswer with hbefore
    have hspends : spends verify call.context.agentId call = true := by simp [spends, hcall]
    rw [List.countP_append, List.countP_cons_of_pos hspends]
    push_cast
    omega
  · intro hmany
    induction calls using List.reverseRecOn with
    | nil => exact absurd hmany (not_lt.2 hlimit)
    | append_singleton calls call ih =>
      by_cases hbefore : gateway.rateLimitPerMinute < (calls.countP (spends verify agentId) : ℕ)
      · obtain ⟨rejected, hagent, hmem⟩ := ih (fun c hc => hverify c (List.mem_append_left _ hc)) hbefore
        refine ⟨rejected, hagent, ?_⟩
        rw [served, transcript_append]
        exact List.mem_append_left _ hmem
      · -- the limit is passed by the last call
        rw [List.countP_append, List.countP_singleton] at hmany
        have hspends : spends verify agentId call = true := by
          by_contra hspends
          rw [if_neg hspends, add_zero] at hmany
          exact hbefore hmany
        have hagent : call.context.agentId = agentId := by
          simp only [spends, Bool.and_eq_true, beq_iff_eq] at hspends
          exact hspends.1
        refine ⟨call, hagent, mem_transcript_iff.2 ⟨calls, [], rfl, ?_⟩⟩
        rw [serve_after calls (hverify call (by simp)), hagent, if_neg]
        rw [if_pos hspends] at hmany
        push_cast at hmany
        omega

/-- **A limit of one minute, and a count for ever**: an agent that makes at most `limit` calls in every span of 60
seconds is never rejected for the limit iff it makes at most `limit` calls in all. -/
theorem rate_limit_iff (u : CharTable) (gateway : LiteLLMGatewayShim) (verify : Verifier) (calls : List InboundCall)
    (hverify : ∀ call ∈ calls, verify call.time call.bearerToken call.context = .ok true) (agentId : String) :
    (WithinLimit calls agentId gateway.rateLimitPerMinute → ¬ RateLimited u gateway verify calls agentId) ↔
      (WithinLimit calls agentId gateway.rateLimitPerMinute →
        (calls.countP fun call => call.context.agentId = agentId : ℕ) ≤ gateway.rateLimitPerMinute) := by
  refine imp_congr_right fun hwithin => ?_
  have hlimit : 0 ≤ gateway.rateLimitPerMinute := (Int.natCast_nonneg _).trans (hwithin 0)
  rw [rateLimited_iff hlimit hverify, not_lt]

def hourlyCall (time : ℚ) : InboundCall :=
  ⟨time, "hello", ⟨"u1", "a1", "s1", ["AgentExecutor"], [], Dict.empty⟩, "t"⟩

/-- A call, and another one an hour later. -/
def hourlyCalls : List InboundCall := [hourlyCall 0, hourlyCall 3600]

lemma hourlyCalls_within : WithinLimit hourlyCalls "a1" 1 := by
  intro start
  by_cases hfirst : 0 < start + 60
  · by_cases hsecond : start ≤ 0
    · have hlate : ¬ (3600 : ℚ) < start + 60 := by linarith
      simp [hourlyCalls, hourlyCall, hfirst, hsecond, hlate]
    · simp [hourlyCalls, hourlyCall, hsecond, List.countP_cons]
      split_ifs <;> simp
  · have hlate : ¬ (3600 : ℚ) < start + 60 := by linarith
    simp [hourlyCalls, hourlyCall, hfirst, hlate]

/-- One call in a minute is allowed, and the call an hour later is the second. -/
theorem hourly_call_is_limited :
    (hourlyCalls.map InboundCall.time).Pairwise (· ≤ ·) ∧ WithinLimit hourlyCalls "a1" 1 ∧
      RateLimited .ascii { rateLimitPerMinute := 1 } (fun _ _ _ => .ok true) hourlyCalls "a1" := by
  refine ⟨by norm_num [hourlyCalls, hourlyCall], hourlyCalls_within, hourlyCall 3600, rfl, ?_⟩
  exact List.mem_cons_of_mem _ List.mem_cons_self

/-- Three calls, of which two lie in one minute and the third an hour later, are as many as the limit. -/
theorem rate_limit_three :
    ¬ RateLimited .ascii { rateLimitPerMinute := 3 } (fun _ _ _ => .ok true)
      [hourlyCall 0, hourlyCall 30, hourlyCall 3600] "a1" := by
  refine (rate_limit_iff .ascii { rateLimitPerMinute := 3 } (fun _ _ _ => .ok true)
    [hourlyCall 0, hourlyCall 30, hourlyCall 3600] (fun call hcall => rfl) "a1").2 (fun _ => by decide) fun start => ?_
  exact Int.ofNat_le.2 List.countP_le_length

/-! ## The calls of others -/

/-- What does not spend the quota of an agent can be taken out of a run, and its other calls get the same. -/
theorem unwinds_others {agentId : String} {others : InboundCall → Bool}
    (hothers : ∀ call, others call = true → spends verify agentId call = false) :
    Unwinds (serve u gateway verify) (fun call => call.context.agentId == agentId && !others call) others
      fun s t => s agentId = t agentId where
  hidden := by
    intro s t call hremoved hst
    rw [serve_counts, hothers call hremoved, hst]
    exact add_zero _
  kept := by
    intro s t call _ hst
    rw [serve_counts, serve_counts, hst]
  answer := by
    intro s t call hobserved hst
    simp only [Bool.and_eq_true, beq_iff_eq] at hobserved
    refine serve_congr ?_
    rw [hobserved.1]
    exact hst
  disjoint := by
    intro call hobserved
    simp only [Bool.and_eq_true, Bool.not_eq_true'] at hobserved
    exact hobserved.2

/-- A verifier that always answers, and does so from the credential and the context. -/
def fixedVerifier (verifies : String → ExecutionContext → Bool) : Verifier :=
  fun _ credential context => .ok (verifies credential context)

/-- The earlier calls that carried the agent id of the call and verified. -/
def verifiedBefore (verifies : String → ExecutionContext → Bool) (before : List InboundCall) (call : InboundCall) : ℕ :=
  before.countP fun earlier => earlier.context.agentId = call.context.agentId ∧
    verifies earlier.bearerToken earlier.context = true

lemma serve_fixed (verifies : String → ExecutionContext → Bool) (before : List InboundCall) (call : InboundCall) :
    (serve u gateway (fixedVerifier verifies)
        (runFrom (serve u gateway (fixedVerifier verifies)) (fun _ => 0) before) call).1 =
      if verifies call.bearerToken call.context = true then
        if verifiedBefore verifies before call < gateway.rateLimitPerMinute then .ok (mask u call.prompt)
        else .error (rateLimitExceeded call.context.agentId)
      else .error identityFailed := by
  have hanswer : fixedVerifier verifies call.time call.bearerToken call.context =
      .ok (verifies call.bearerToken call.context) := rfl
  cases h : verifies call.bearerToken call.context with
  | false =>
    rw [h] at hanswer
    rw [serve_of_false hanswer, if_neg Bool.false_ne_true]
  | true =>
    rw [h] at hanswer
    have hcount : before.countP (spends (fixedVerifier verifies) call.context.agentId) =
        verifiedBefore verifies before call := by
      refine List.countP_congr fun earlier _ => ?_
      simp [spends, fixedVerifier]
    rw [serve_after before hanswer, hcount, if_pos rfl]

/-- **Nobody spends the quota of another**: a call is accepted iff its credential verifies and fewer calls of its agent
than the limit verified before; calls of other agents and calls that do not verify can be taken out of a run. -/
theorem accepted_iff (u : CharTable) (gateway : LiteLLMGatewayShim) (verifies : String → ExecutionContext → Bool) :
    (∀ (before after : List InboundCall) (call : InboundCall), ∃ outcome,
      (served u gateway (fixedVerifier verifies) (before ++ call :: after))[before.length]? = some (call, outcome) ∧
        ((∃ prompt, outcome = .ok prompt) ↔ verifies call.bearerToken call.context = true ∧
          verifiedBefore verifies before call < gateway.rateLimitPerMinute) ∧
        outcome = if verifies call.bearerToken call.context = true then
            if verifiedBefore verifies before call < gateway.rateLimitPerMinute then .ok (mask u call.prompt)
            else .error (rateLimitExceeded call.context.agentId)
          else .error identityFailed) ∧
    ∀ (agentId : String) (others : InboundCall → Bool),
      (∀ call, others call = true →
        call.context.agentId ≠ agentId ∨ verifies call.bearerToken call.context = false) →
      ∀ calls : List InboundCall,
        (served u gateway (fixedVerifier verifies) calls).filter
            (fun p => p.1.context.agentId == agentId && !others p.1) =
          (served u gateway (fixedVerifier verifies) (calls.filter fun call => !others call)).filter
            (fun p => p.1.context.agentId == agentId && !others p.1) := by
  constructor
  · intro before after call
    refine ⟨_, transcript_getElem? _ before after call, ?_, serve_fixed verifies before call⟩
    rw [serve_fixed]
    split_ifs with hverifies hlimit
    · exact iff_of_true ⟨_, rfl⟩ ⟨hverifies, hlimit⟩
    · exact iff_of_false (fun ⟨_, h⟩ => by cases h) fun h => hlimit h.2
    · exact iff_of_false (fun ⟨_, h⟩ => by cases h) fun h => hverifies h.1
  · intro agentId others hothers calls
    refine Unwinds.observations (unwinds_others fun call hremoved => ?_) rfl calls
    rcases hothers call hremoved with hagent | hfails
    · simp [spends, hagent]
    · simp [spends, fixedVerifier, hfails]

/-- A bad credential and another agent before the one call that is allowed. -/
theorem accepted_after_others :
    (served .ascii { rateLimitPerMinute := 1 } (fixedVerifier fun credential _ => credential == "t")
        [{ hourlyCall 0 with bearerToken := "x" },
          { hourlyCall 0 with context := { (hourlyCall 0).context with agentId := "a2" } }, hourlyCall 0]).filter
      (fun p => p.1.context.agentId == "a1" && !(p.1.bearerToken == "x" || p.1.context.agentId == "a2")) =
    [(hourlyCall 0, .ok "hello")] := by
  rw [(accepted_iff .ascii { rateLimitPerMinute := 1 } fun credential _ => credential == "t").2 "a1"
    (fun call => call.bearerToken == "x" || call.context.agentId == "a2")]
  · rfl
  · intro call hothers
    rcases Bool.or_eq_true_iff.1 hothers with htoken | hagent
    · exact Or.inr (by rw [beq_iff_eq.1 htoken]; decide)
    · exact Or.inl (by rw [beq_iff_eq.1 hagent]; decide)

end Aimw.Gateway
