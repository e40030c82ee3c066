import Aimw.Interceptor.Concurrent
import Aimw.Policy.TornReads
import Aimw.Reliability.FailureBudget

/-!
# How old an authorization can be

Concurrent calls on one circuit breaker and one `DbBackedPolicyEngine`.  A call asks both once, and may then wait for
an approval while other calls trip the breaker and while the rules change.  What started the sandbox was right when it
was asked (`executed_as_authorized`), and need not be right any more (`stale_authorization_executes`).
-/

namespace Aimw.Interceptor

open Lib Audit Coro ToolCallInterceptor Reliability

/-! ## The breaker and the rules -/

/-- `commits` are the committed states of the rule store in their order, and `callCounter` counts the calls of a
session. -/
structure GateWorld (T : Type) where
  breaker : BreakerWorld T
  commits : List Policy.RuleStore
  callCounter : String → ℤ

section World

variable {T : Type} [AddCommGroup T] [LinearOrder T]

/-- The breaker answers, and a decision is one that the engine comes to while others may commit.  Everything else is
answered as the collaborators like. -/
inductive Gated (prt : Policy.Runtime) : GateWorld T → (q : Op) → q.Answer → GateWorld T → Prop
  | served {w : GateWorld T} {q : Op} {a : q.Answer} {breaker : BreakerWorld T} : usesBreaker q = true →
      Serving w.breaker q a breaker → Gated prt w q a { w with breaker }
  | decided {w : GateWorld T} {context : ExecutionContext} {request : ToolRequest} {timeout : JFloat}
      {d : PolicyDecision} {S : Policy.RuleStore} {more : List Policy.RuleStore}
      {tr : List ((q : Policy.Select) × q.Answer)} {now : T} : w.breaker.now ≤ now → w.commits.getLast? = some S →
      Runs (Policy.Reading prt.chars) [S] (Policy.evaluateQuery prt context request w.callCounter) tr (.ok d)
        (S :: more) →
      Gated prt w (.evaluateToolCall context request timeout) (.returned d)
        { w with breaker := { w.breaker with now }, commits := w.commits ++ more }
  | other {w : GateWorld T} {q : Op} {a : q.Answer} {now : T} : usesBreaker q = false → isDecision ⟨q, a⟩ = false →
      w.breaker.now ≤ now → Gated prt w q a { w with breaker := { w.breaker with now } }

/-- While no call goes on, time passes, rules are committed, and sessions are counted. -/
inductive Meanwhile : GateWorld T → GateWorld T → Prop
  | passed {w : GateWorld T} {now : T} (more : List Policy.RuleStore) (callCounter : String → ℤ) :
      w.breaker.now ≤ now →
      Meanwhile w { breaker := { w.breaker with now }, commits := w.commits ++ more, callCounter }

/-- The circuit of the key is open: it tripped, and the cooldown is not over. -/
def InOpenPeriod (key : String) (w : GateWorld T) : Prop :=
  ∃ t ∈ w.breaker.breaker.trippedAt key, w.breaker.now - t < w.breaker.breaker.settings.cooldownSeconds

end World

/-- A question to the breaker that finds the circuit of the key open. -/
def FindsOpen (key : String) : Event → Prop
  | ⟨.check agentId toolName, .ok false⟩ => keyFor agentId toolName = key
  | _ => False

variable {T : Type} {prt : Policy.Runtime} {w w' : GateWorld T} {context : ExecutionContext} {request : ToolRequest}

variable (prt context request) in
/-- The engine would allow the request by the rules that are committed now. -/
def AllowedNow (w : GateWorld T) : Prop :=
  ∃ S, w.commits.getLast? = some S ∧ (Policy.DbBackedPolicyEngine.mk S w.callCounter).Allows prt context request

variable (prt context request) in
/-- A patchwork of the states that were committed between two moments allows the request. -/
def AllowedBetween (w w' : GateWorld T) : Prop :=
  ∃ S more s, w.commits.getLast? = some S ∧ w'.commits = w.commits ++ more ∧ Policy.ReadInOrder (S :: more) s ∧
    (Policy.DbBackedPolicyEngine.mk (Policy.patchwork s) w.callCounter).Allows prt context request

/-! ## What lasts -/

section Closed

variable [AddCommGroup T] [LinearOrder T] [IsOrderedAddMonoid T] {key : String}

/-- What is closed stays closed while only time passes. -/
lemma not_inOpenPeriod_of_later (h : ¬ InOpenPeriod key w)
    (htripped : w'.breaker.breaker.trippedAt key = w.breaker.breaker.trippedAt key)
    (hsettings : w'.breaker.breaker.settings = w.breaker.breaker.settings) (hnow : w.breaker.now ≤ w'.breaker.now) :
    ¬ InOpenPeriod key w' := by
  rintro ⟨t, ht, hcool⟩
  rw [htripped] at ht
  rw [hsettings] at hcool
  exact h ⟨t, ht, (sub_le_sub_right hnow t).trans_lt hcool⟩

omit [IsOrderedAddMonoid T] in
/-- Only a question that finds the circuit open leaves it open. -/
lemma closed_after_check {b b' : BreakerWorld T} {agentId toolName : String} {a : Except Exc Bool}
    (hserve : Serving b (.check agentId toolName) a b') (ha : a ≠ .ok false) :
    b'.breaker.trippedAt (keyFor agentId toolName) = none := by
  cases hserve with
  | other _ _ _ hbreaker => cases hbreaker
  | check _ _ now _ =>
    simp only [InMemoryCircuitBreakerBackend.check, Prod.map_fst, Prod.map_snd, id] at ha ⊢
    cases ht : b.breaker.trippedAt (keyFor agentId toolName) with
    | some t =>
      by_cases hcool : now - t < b.breaker.settings.cooldownSeconds
      · rw [b.breaker.isOpen_cooling ht hcool] at ha
        exact absurd rfl ha
      · rw [b.breaker.isOpen_cooled ht hcool]
        exact Function.update_self ..
    | none =>
      by_cases hmany : tooManyFailures b.breaker.settings (b.breaker.outcomes (keyFor agentId toolName) now) = .ok true
      · rw [b.breaker.isOpen_tripping ht hmany] at ha
        exact absurd rfl ha
      · rw [b.breaker.isOpen_closed ht hmany]
        exact ht

omit [IsOrderedAddMonoid T] in
lemma not_inOpenPeriod_of_none (h : w.breaker.breaker.trippedAt key = none) : ¬ InOpenPeriod key w := by
  rintro ⟨t, ht, -⟩
  rw [h] at ht
  cases ht

/-- A closed circuit stays closed until a question finds it open. -/
theorem Gated.stays_closed {q : Op} {a : q.Answer} (h : Gated prt w q a w') (hclosed : ¬ InOpenPeriod key w)
    (hfinds : ¬ FindsOpen key ⟨q, a⟩) : ¬ InOpenPeriod key w' := by
  cases h with
  | decided hnow _ _ => exact not_inOpenPeriod_of_later hclosed rfl rfl hnow
  | other _ _ hnow => exact not_inOpenPeriod_of_later hclosed rfl rfl hnow
  | served huses hserve =>
    cases hserve with
    | other _ _ _ hbreaker => cases hbreaker.symm.trans huses
    | recordResult agentId toolName success now hnow =>
      rw [InMemoryCircuitBreakerBackend.recordResult_eq]
      exact not_inOpenPeriod_of_later hclosed rfl rfl hnow
    | check agentId toolName now hnow =>
      by_cases hkey : key = keyFor agentId toolName
      · subst hkey
        refine not_inOpenPeriod_of_none (closed_after_check (.check _ agentId toolName now hnow) fun ha => hfinds ?_)
        rw [ha]
        rfl
      · obtain ⟨hsettings, -, htripped⟩ := w.breaker.breaker.isOpen_frame now hkey
        exact not_inOpenPeriod_of_later hclosed htripped hsettings hnow

lemma Meanwhile.stays_closed (h : Meanwhile w w') (hclosed : ¬ InOpenPeriod key w) : ¬ InOpenPeriod key w' := by
  cases h with
  | passed _ _ hnow => exact not_inOpenPeriod_of_later hclosed rfl rfl hnow

omit [IsOrderedAddMonoid T] in
/-- Commits are not taken back. -/
lemma Gated.commits_grow {q : Op} {a : q.Answer} (h : Gated prt w q a w') : w.commits <+: w'.commits := by
  cases h with
  | served => exact List.prefix_rfl
  | decided => exact List.prefix_append ..
  | other => exact List.prefix_rfl

omit [IsOrderedAddMonoid T] in
/-- What the engine allows, it allows by rules that were committed while it read them. -/
lemma Gated.allowed {timeout : JFloat} {d : PolicyDecision}
    (h : Gated prt w (.evaluateToolCall context request timeout) (.returned d) w') (hd : d.allowed = true) :
    AllowedBetween prt context request w w' := by
  cases h with
  | served huses => cases huses
  | other _ hnot => cases hnot
  | decided _ hlast hrun =>
    obtain ⟨⟨s, horder, hallows⟩, -⟩ := Policy.allowed_on_patchwork hrun hd
    exact ⟨_, _, s, hlast, rfl, horder, hallows⟩

end Closed

lemma Meanwhile.commits_grow [LinearOrder T] (h : Meanwhile w w') : w.commits <+: w'.commits := by
  cases h with
  | passed => exact List.prefix_append ..

/-- Without commits, the patchwork is the latest state. -/
lemma AllowedBetween.now (h : AllowedBetween prt context request w w') (hcommits : w'.commits = w.commits) :
    AllowedNow prt context request w := by
  obtain ⟨S, more, s, hlast, hmore, ⟨time, -, htime⟩, hallows⟩ := h
  obtain rfl : more = [] := List.append_right_eq_self.1 (hmore.symm.trans hcommits)
  have hS : ∀ X, s X = S := fun X => List.mem_singleton.1 (List.mem_of_getElem? (htime X))
  obtain rfl : s = fun _ => S := funext hS
  exact ⟨S, hlast, hallows⟩

/-! ## One call -/

variable {rt : Runtime} {ic : ToolCallInterceptor}

/-- What a call has done when it starts the sandbox. -/
theorem gate_of_executing {tr : Trace} {req : ToolRequest} {ctx : ExecutionContext}
    {k : Except Exc SandboxResult → Prog InterceptorResult} (hbreaker : ic.circuitBreaker = true)
    (h : Advances (ic.handle rt context request) tr (.call (.execute req ctx) k)) :
    req = request ∧ ctx = context ∧ ∃ d u, d.allowed = true ∧
      tr = ⟨.check context.agentId request.toolName, .ok true⟩ :: evaluated ic context request (.returned d) :: u := by
  obtain ⟨tr', r, hrun⟩ := h.exists_runs (.error .cancelledError)
  have hpath := handle_path hrun
  have hexecuted : (req, ctx) ∈ executions (tr ++ ⟨.execute req ctx, .error .cancelledError⟩ :: tr') :=
    List.mem_filterMap.2 ⟨_, List.mem_append_right _ List.mem_cons_self, rfl⟩
  generalize hwhole : tr ++ ⟨.execute req ctx, .error .cancelledError⟩ :: tr' = whole at hpath hexecuted
  cases hpath with
  | gateRaised hgate =>
    rw [hgate.calls.2.2.1] at hexecuted
    cases hexecuted
  | circuitOpen hgate _ =>
    rw [executions_append, hgate.calls.2.2.1, (logged_calls ..).2.2.2.1] at hexecuted
    cases hexecuted
  | @decided g t v out a hgate hbody =>
    rw [executions_append, executions_append, hgate.calls.2.2.1, (logged_calls ..).2.2.2.1, List.nil_append,
      List.append_nil] at hexecuted
    obtain ⟨honly, d, u, hd, rfl⟩ := hbody.executes (List.ne_nil_of_mem hexecuted)
    rw [honly] at hexecuted
    obtain ⟨rfl, rfl⟩ := Prod.mk.inj (List.mem_singleton.1 hexecuted)
    refine ⟨rfl, rfl, d, ?_⟩
    obtain ⟨hnone, -, -⟩ | ⟨-, rfl⟩ := hgate.ok_eq
    · exact absurd (hbreaker.symm.trans hnone) (by simp)
    -- the sandbox is neither of the first two calls
    match tr, hwhole with
    | [], hwhole => cases (Sigma.mk.inj (List.cons.inj hwhole).1).1
    | [_], hwhole => cases (Sigma.mk.inj (List.cons.inj (List.cons.inj hwhole).2).1).1
    | _ :: _ :: u', hwhole =>
      obtain ⟨rfl, htail⟩ := List.cons.inj hwhole
      obtain ⟨rfl, -⟩ := List.cons.inj htail
      exact ⟨u', hd, rfl⟩

/-! ## All calls -/

variable {ι : Type} [AddCommGroup T] [LinearOrder T] [IsOrderedAddMonoid T] {i : ι}

/-- The moments that started the sandbox: `asked` the breaker, and `decided` by the engine, both for this call. -/
structure Authorizes (prt : Policy.Runtime) (ic : ToolCallInterceptor) (context : ExecutionContext)
    (request : ToolRequest) (i : ι) (asked decided : Moment ι (GateWorld T) Op Op.Answer) : Prop where
  own : asked.task = i ∧ decided.task = i
  passed : asked.event = ⟨.check context.agentId request.toolName, .ok true⟩
  closed : ¬ InOpenPeriod (keyFor context.agentId request.toolName) asked.after
  returned : ∃ d, decided.event = evaluated ic context request (.returned d) ∧ d.allowed = true
  allowed : AllowedBetween prt context request decided.before decided.after

variable [DecidableEq ι] {calls : ι → ExecutionContext × ToolRequest} {world : GateWorld T}
  {s : Loop ι (GateWorld T) Op Op.Answer Exc InterceptorResult}

/-- The states of concurrent calls on one breaker and one engine. -/
abbrev Sharing (prt : Policy.Runtime) (rt : Runtime) (ic : ToolCallInterceptor)
    (calls : ι → ExecutionContext × ToolRequest) (world : GateWorld T) :
    Loop ι (GateWorld T) Op Op.Answer Exc InterceptorResult → Prop :=
  Reached Op.isAwait (Gated prt) Meanwhile (handler rt ic calls) world

omit [IsOrderedAddMonoid T] in
/-- The two moments, in what happened so far. -/
theorem authorizes_of_executing {k : Except Exc SandboxResult → Prog InterceptorResult}
    (hbreaker : ic.circuitBreaker = true) (h : Sharing prt rt ic calls world s)
    (hi : s.tasks i = some (.call (.execute request context) k)) : (context, request) = calls i ∧
      ∃ earlier asked between decided later, s.past = earlier ++ asked :: (between ++ decided :: later) ∧
        Authorizes prt ic context request i asked decided := by
  obtain ⟨rfl, rfl, d, u, hd, htrace⟩ := gate_of_executing hbreaker (h.advances hi)
  obtain ⟨earlier, asked, rest, hpast, -, htask, hasked, hrest⟩ := own_eq_cons htrace
  obtain ⟨between, decided, later, rfl, -, htask', hdecided, -⟩ := own_eq_cons hrest
  have hcheck := h.answered asked (by simp [hpast])
  have hdecision := h.answered decided (by simp [hpast])
  refine ⟨rfl, earlier, asked, between, decided, later, hpast, ⟨htask, htask'⟩, hasked, ?_, ⟨d, hdecided, hd⟩, ?_⟩
  · rw [hasked] at hcheck
    generalize asked.after = after at hcheck
    cases hcheck with
    | served _ hserve => exact not_inOpenPeriod_of_none (closed_after_check hserve (by simp))
    | other hbreaker => cases hbreaker
  · rw [hdecided] at hdecision
    exact hdecision.allowed hd

/-- **What starts the sandbox was right when it was asked.**  Earlier in the call the circuit was not open, and after
that the engine allowed the request by the rules that were committed while it read them.  Both still hold where no
question has found the circuit open, and nothing has been committed or counted since. -/
theorem executed_as_authorized {k : Except Exc SandboxResult → Prog InterceptorResult}
    (hbreaker : ic.circuitBreaker = true) (h : Sharing prt rt ic calls world s)
    (hi : s.tasks i = some (.call (.execute request context) k)) : (context, request) = calls i ∧
      ∃ earlier asked between decided later, s.past = earlier ++ asked :: (between ++ decided :: later) ∧
        Authorizes prt ic context request i asked decided ∧
        ((∀ m ∈ between ++ decided :: later, ¬ FindsOpen (keyFor context.agentId request.toolName) m.event) →
          ¬ InOpenPeriod (keyFor context.agentId request.toolName) s.world) ∧
        (s.world.commits = decided.before.commits → s.world.callCounter = decided.before.callCounter →
          AllowedNow prt context request s.world) := by
  obtain ⟨hcall, earlier, asked, between, decided, later, hpast, hauthorizes⟩ := authorizes_of_executing hbreaker h hi
  have hanswered : ∀ m ∈ s.past, Gated prt m.before m.event.1 m.event.2 m.after := h.answered
  refine ⟨hcall, earlier, asked, between, decided, later, hpast, hauthorizes, fun hnone => ?_, fun hcommits hcounter => ?_⟩
  · refine h.since (fun _ _ hout hclosed => hout.stays_closed hclosed) hpast hauthorizes.closed fun m hm hclosed => ?_
    exact (hanswered m (by simp [hpast, hm])).stays_closed hclosed (hnone m hm)
  · have hpast' : s.past = (earlier ++ asked :: between) ++ decided :: later := by
      rw [hpast, List.append_assoc, List.cons_append]
    have hgrown : decided.after.commits <+: s.world.commits := by
      refine h.since (I := fun w => decided.after.commits <+: w.commits) (fun _ _ hout hle => hle.trans hout.commits_grow)
        hpast' List.prefix_rfl fun m hm hle => ?_
      exact hle.trans (hanswered m (by simp [hpast', hm])).commits_grow
    have hgrew : decided.before.commits <+: decided.after.commits :=
      (hanswered decided (by simp [hpast'])).commits_grow
    have hsame : decided.after.commits = decided.before.commits :=
      (hgrown.trans (hcommits ▸ List.prefix_rfl)).eq_of_length_le hgrew.length_le
    obtain ⟨S, hlast, hallows⟩ := hauthorizes.allowed.now hsame
    exact ⟨S, hcommits ▸ hlast, hcounter ▸ hallows⟩

/-! ### An approval that takes a while -/

section Check

variable {b : BreakerWorld T} {agentId toolName : String} {now : T}

omit [IsOrderedAddMonoid T] in
lemma serving_check_closed (hnow : b.now ≤ now) (ht : b.breaker.trippedAt (keyFor agentId toolName) = none)
    (hfew : tooManyFailures b.breaker.settings (b.breaker.outcomes (keyFor agentId toolName) now) = .ok false) :
    Serving b (.check agentId toolName) (.ok true)
      { b with breaker := b.breaker.prune (keyFor agentId toolName) now, now } := by
  have hserve := Serving.check b agentId toolName now hnow
  rw [InMemoryCircuitBreakerBackend.check, b.breaker.isOpen_closed ht (by simp [hfew]), hfew] at hserve
  exact hserve

omit [IsOrderedAddMonoid T] in
lemma serving_check_tripping (hnow : b.now ≤ now) (ht : b.breaker.trippedAt (keyFor agentId toolName) = none)
    (hmany : tooManyFailures b.breaker.settings (b.breaker.outcomes (keyFor agentId toolName) now) = .ok true) :
    Serving b (.check agentId toolName) (.ok false)
      { b with
        breaker := { b.breaker.prune (keyFor agentId toolName) now with
          trippedAt := Function.update b.breaker.trippedAt (keyFor agentId toolName) (some now) }
        now } := by
  have hserve := Serving.check b agentId toolName now hnow
  rw [InMemoryCircuitBreakerBackend.check, b.breaker.isOpen_tripping ht hmany] at hserve
  exact hserve

end Check

/-- A deployment has succeeded and another one has failed. -/
def deployBreaker : InMemoryCircuitBreakerBackend ℤ :=
  (({ settings := { windowSeconds := 60, failureThreshold := 3 / 5, minSamples := 1, cooldownSeconds := 30 } } :
    InMemoryCircuitBreakerBackend ℤ).recordResult "a1" "deploy_tool" 0 true).recordResult "a1" "deploy_tool" 10 false

def deployWorld : GateWorld ℤ where
  breaker := { breaker := deployBreaker, now := 10 }
  commits := [Policy.seedExample]
  callCounter _ := 0

/-- The example rules after an administrator has revoked all functions. -/
def revoked : Policy.RuleStore :=
  { Policy.seedExample with
    toolFunctions := []
    functions_key := by decide }

/-- Two requests to deploy. -/
abbrev deployments (_ : Bool) : ExecutionContext × ToolRequest := (Policy.productionAdmin, Policy.deployToProduction)

lemma deploy_decided {w : GateWorld ℤ} (hcommits : w.commits = [Policy.seedExample])
    (hcounter : w.callCounter = fun _ => 0) (timeout : JFloat) :
    Gated Policy.plainRuntime w (.evaluateToolCall Policy.productionAdmin Policy.deployToProduction timeout)
      (.returned (Policy.approve true)) { w with commits := w.commits ++ [] } := by
  have heval : (Policy.evaluateQuery Policy.plainRuntime Policy.productionAdmin Policy.deployToProduction
      fun _ => 0).eval (Policy.seedExample.answer Policy.plainRuntime.chars) = .ok (Policy.approve true) := rfl
  obtain ⟨tr, hrun⟩ := Policy.runs_of_eval (rfl : [Policy.seedExample].getLast? = some _) heval
  exact .decided le_rfl (by rw [hcommits]; rfl) (by rw [hcounter]; exact hrun)

/-- The other request has found the circuit open, and the administrator has come. -/
def staleWorld : GateWorld ℤ where
  breaker := {
    breaker := { (deployBreaker.prune (keyFor "a1" "deploy_tool") 20).prune (keyFor "a1" "deploy_tool") 65 with
      trippedAt := Function.update deployBreaker.trippedAt (keyFor "a1" "deploy_tool") (some 65) }
    now := 65 }
  commits := [Policy.seedExample, revoked]
  callCounter _ := 0

lemma staleWorld_open : InOpenPeriod (keyFor "a1" "deploy_tool") staleWorld := by
  refine ⟨65, ?_, by decide⟩
  simp [staleWorld]

/-- The task has just been granted its request, and has looked at the clock; it has not been suspended since. -/
def JustGranted (s : Loop Bool (GateWorld ℤ) Op Op.Answer Exc InterceptorResult) (i : Bool) (context : ExecutionContext)
    (request : ToolRequest) : Prop :=
  ∃ earlier asked timed, s.past = earlier ++ [asked, timed] ∧ asked.task = i ∧ timed.task = i ∧
    (∃ d, asked.event = ⟨.approvalCallback context request d, .ok true⟩) ∧ timed.event.1 = .monotonic ∧
    asked.after = s.world ∧ timed.after = s.world

/-- While the first request waits for its approval, the second one is turned away and the functions are revoked. -/
lemma stale_reached : ∃ (s : Loop Bool (GateWorld ℤ) Op Op.Answer Exc InterceptorResult)
    (k : Except Exc SandboxResult → Prog InterceptorResult),
    Sharing Policy.plainRuntime sampleRuntime (sampleInterceptor true) deployments deployWorld s ∧
      s.tasks true = some (.call (.execute Policy.deployToProduction Policy.productionAdmin) k) ∧
      s.world = staleWorld ∧ JustGranted s true Policy.productionAdmin Policy.deployToProduction := by
  have hothers : ∀ (tasks : Bool → Option (Prog InterceptorResult)) (i : Bool) (p : Option (Prog InterceptorResult)),
      tasks (!i) = p → (∀ x ∈ p, AtRest Op.isAwait x) → ∀ j x, j ≠ i → tasks j = some x → AtRest Op.isAwait x := by
    intro tasks i p hp hrest j x hj hx
    obtain rfl : j = !i := by cases i <;> cases j <;> simp_all
    exact hrest x (hp ▸ hx)
  have hnobody : ∀ x ∈ (none : Option (Prog InterceptorResult)), AtRest Op.isAwait x := fun x hx => by cases hx
  have hfull : ∀ (w : GateWorld ℤ) context request d r, Gated Policy.plainRuntime w (.logCall context request d r)
      (.error (.exception "disk full")) w := fun _ _ _ _ _ => .other rfl rfl le_rfl
  have hgranted : ∀ (w : GateWorld ℤ) context request d, Gated Policy.plainRuntime w
      (.approvalCallback context request d) (.ok true) w := fun _ _ _ _ => .other rfl rfl le_rfl
  have htick : ∀ w : GateWorld ℤ, Gated Policy.plainRuntime w .monotonic (.finite ⟨['9', '.', '0'], rfl⟩) w :=
    fun _ => .other rfl rfl le_rfl
  have hstart : Sharing Policy.plainRuntime sampleRuntime (sampleInterceptor true) deployments deployWorld _ :=
    Reached.start true .init rfl fun _ _ h => by cases h
  have hasked := Reached.resume hstart (i := true) rfl (hothers _ _ none rfl hnobody) (.served rfl
    (serving_check_closed (by decide : (10 : ℤ) ≤ 20) rfl (by decide +kernel)))
  have hdecided := Reached.resume hasked (i := true) rfl (hothers _ _ none rfl hnobody) (deploy_decided rfl rfl _)
  have hstart' := Reached.start false hdecided rfl fun j x hx => by
    cases j with
    | true =>
      obtain rfl := Option.some.inj hx
      rfl
    | false => cases hx
  have hturned := Reached.resume hstart' (i := false) rfl (hothers _ _ (some _) rfl fun x hx => by
      obtain rfl := Option.some.inj hx
      rfl) (.served rfl
    (serving_check_tripping (by decide : (20 : ℤ) ≤ 65) rfl (by decide +kernel)))
  have hlogged := Reached.resume hturned (i := false) rfl (hothers _ _ (some _) rfl fun x hx => by
      obtain rfl := Option.some.inj hx
      rfl) (hfull _ _ _ _ _)
  have hrevoked := Reached.moved hlogged (.passed [revoked] (fun _ => 0) le_rfl)
  have hended : ∀ x ∈ some (Coro.raise (.exception "disk full") : Prog InterceptorResult), AtRest Op.isAwait x := by
    intro x hx
    obtain rfl := Option.some.inj hx
    trivial
  have happroved := Reached.resume hrevoked (i := true) rfl (hothers _ _ (some _) rfl hended) (hgranted _ _ _ _)
  have hclock := Reached.resume happroved (i := true) rfl (hothers _ _ (some _) rfl hended) (htick _)
  exact ⟨_, _, hclock, rfl, rfl, _, _, _, List.append_assoc _ _ _, rfl, rfl, ⟨_, rfl⟩, rfl, rfl, rfl⟩

/-- The sandbox is started right after the approval, while the circuit is open, for a request that the rules do not allow
any more. -/
theorem stale_authorization_executes : ∃ (s : Loop Bool (GateWorld ℤ) Op Op.Answer Exc InterceptorResult)
    (k : Except Exc SandboxResult → Prog InterceptorResult),
    Sharing Policy.plainRuntime sampleRuntime (sampleInterceptor true) deployments deployWorld s ∧
      s.tasks true = some (.call (.execute Policy.deployToProduction Policy.productionAdmin) k) ∧
      JustGranted s true Policy.productionAdmin Policy.deployToProduction ∧
      InOpenPeriod (keyFor Policy.productionAdmin.agentId Policy.deployToProduction.toolName) s.world ∧
      ¬ AllowedNow Policy.plainRuntime Policy.productionAdmin Policy.deployToProduction s.world := by
  obtain ⟨s, k, h, hi, hworld, hgranted⟩ := stale_reached
  refine ⟨s, k, h, hi, hgranted, ?_, ?_⟩
  · rw [hworld]
    exact staleWorld_open
  · rw [hworld]
    rintro ⟨S, hlast, d, hd, hallowed⟩
    obtain rfl := Option.some.inj (hlast.symm.trans (rfl : staleWorld.commits.getLast? = some revoked))
    have hdenied : (Policy.DbBackedPolicyEngine.mk revoked fun _ => 0).evaluate Policy.plainRuntime Policy.productionAdmin
        Policy.deployToProduction = .ok (Policy.deny "function not permitted: 'deploy_tool.deploy'") := rfl
    obtain rfl := Except.ok.inj (hdenied.symm.trans hd)
    cases hallowed

theorem executed_as_authorized_deploy : ∃ (s : Loop Bool (GateWorld ℤ) Op Op.Answer Exc InterceptorResult)
    (asked decided : _), asked ∈ s.past ∧ decided ∈ s.past ∧
      Authorizes Policy.plainRuntime (sampleInterceptor true) Policy.productionAdmin Policy.deployToProduction true asked
        decided ∧ InOpenPeriod (keyFor "a1" "deploy_tool") s.world := by
  obtain ⟨s, k, h, hi, hworld, -⟩ := stale_reached
  obtain ⟨-, earlier, asked, between, decided, later, hpast, hauthorizes, -⟩ := executed_as_authorized rfl h hi
  refine ⟨s, asked, decided, by simp [hpast], by simp [hpast], hauthorizes, ?_⟩
  rw [hworld]
  exact staleWorld_open

end Aimw.Interceptor
