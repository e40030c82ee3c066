import Aimw.Interceptor.Handle

/-!
# The paths through `handle`

What a run of `handle` can be, whatever the environment answers.  Each part of the method has its paths, as the
calls it makes and what it ends with:

* `Resolution` — the action requirements of an allowed decision;
* `Execution` — the sandbox, `Outcome` — the report to the circuit breaker;
* `BodyPath` — the statements between `try` and `finally`, with the locals they leave;
* `HandlePath`, `handle_path` — the whole method.
-/

namespace Aimw.Interceptor

open Lib Audit Coro ToolCallInterceptor

abbrev Trace : Type := List Event

variable {rt : Runtime} {ic : ToolCallInterceptor} {context : ExecutionContext} {request : ToolRequest}

/-! ## The parts that call once -/

/-- What `_audit_and_wrap` makes of the answer of `log_call`. -/
def wrapped (decision : PolicyDecision) (sandboxResult : Option SandboxResult) (a : Except Exc AuditRecord) :
    Except Exc InterceptorResult :=
  a.map fun auditRecord => { allowed := decision.allowed, decision, sandboxResult, auditRecord }

lemma auditAndWrap_eq (d : PolicyDecision) (s : Option SandboxResult) :
    auditAndWrap context request d s = await (.logCall context request d (s.map SandboxResult.modelDump)) (wrapped d s) := by
  unfold auditAndWrap await
  simp only [Bind.bind, Coro.bind]
  congr 1
  funext a
  cases a <;> rfl

/-- What `_evaluate_decision` makes of the engine's answer. -/
def engineDecision : Awaited PolicyDecision → Except Exc PolicyDecision
  | .returned d => .ok d
  | .exceeded => .ok { allowed := false, reason := "policy engine timeout: fail-closed" }
  | .raised (.timeoutError _) => .ok { allowed := false, reason := "policy engine timeout: fail-closed" }
  | .raised exc =>
    if exc.isException then .ok { allowed := false, reason := s!"policy engine failure: fail-closed ({exc.text})" }
    else .error exc

lemma evaluateDecision_eq :
    ic.evaluateDecision context request =
      await (.evaluateToolCall context request ic.decisionTimeoutS) engineDecision := by
  unfold evaluateDecision await tryExcept
  simp only [attempt, lift, Coro.bind]
  congr 1
  funext a
  rcases a with d | e | _
  · rfl
  · cases e <;> rfl
  · rfl

/-- Fail-closed: only a decision that the engine returned can allow the call. -/
lemma engineDecision_allowed {a : Awaited PolicyDecision} {d : PolicyDecision} (h : engineDecision a = .ok d)
    (hd : d.allowed = true) : a = .returned d := by
  unfold engineDecision at h
  split at h
  · rw [Except.ok.inj h]
  · obtain rfl := Except.ok.inj h
    cases hd
  · obtain rfl := Except.ok.inj h
    cases hd
  · split_ifs at h
    obtain rfl := Except.ok.inj h
    cases hd

lemma engineDecision_error {a : Awaited PolicyDecision} {e : Exc} (h : engineDecision a = .error e) :
    a = .raised e ∧ e.isException = false := by
  unfold engineDecision at h
  split at h
  · cases h
  · cases h
  · cases h
  · split_ifs at h with he
    obtain rfl := Except.error.inj h
    exact ⟨rfl, by simpa using he⟩

/-! ## Action requirements -/

/-- What is made of the callback's answer. -/
def approvalOutcome (d : PolicyDecision) : Except Exc Bool → Except Exc PolicyDecision
  | .ok true => .ok { allowed := true, reason := s!"{d.reason}; human-approved" }
  | .ok false => .ok { allowed := false, reason := "approval required but not granted" }
  | .error exc =>
    if exc.isException then .ok { allowed := false, reason := s!"approval resolution failure: fail-closed ({exc.text})" }
    else .error exc

/-- Every requirement is one that the interceptor knows how to honor. -/
def Supported (d : PolicyDecision) : Prop := ∀ q ∈ d.actionRequirements, q = "human_approval"

variable (ic context request) in
/-- The requirements of the allowed decision `d` are resolved. -/
inductive Resolution (d : PolicyDecision) : Trace → Except Exc PolicyDecision → Prop
  | unsupported (reason : String) : ¬ Supported d → Resolution d [] (.ok { allowed := false, reason })
  | noCallback (reason : String) : Supported d → d.actionRequirements ≠ [] → ic.approvalCallback = false →
      Resolution d [] (.ok { allowed := false, reason })
  | asked (a : Except Exc Bool) : Supported d → d.actionRequirements ≠ [] → ic.approvalCallback = true →
      Resolution d [⟨.approvalCallback context request d, a⟩] (approvalOutcome d a)
  | nothing : d.actionRequirements = [] → Resolution d [] (.ok d)

lemma unsupported_eq_nil_iff (d : PolicyDecision) : unsupported d = [] ↔ Supported d := by
  simp [unsupported, Supported, SUPPORTED_REQUIREMENTS, List.dedup_eq_nil, List.filter_eq_nil_iff]

lemma required_iff {d : PolicyDecision} (hs : Supported d) :
    "human_approval" ∈ d.actionRequirements ↔ d.actionRequirements ≠ [] := by
  constructor
  · exact List.ne_nil_of_mem
  · intro h
    obtain ⟨q, hq⟩ := List.exists_mem_of_ne_nil _ h
    rwa [← hs q hq]

variable {W : Type} {E : W → (q : Op) → q.Answer → W → Prop} {w w' : W} {tr : Trace}

/-- The callback is asked inside the `try`. -/
lemma asked_eq (d : PolicyDecision) :
    (tryExcept
      (do
        let approved ← await (.approvalCallback context request d) id
        if approved = false then return { allowed := false, reason := "approval required but not granted" }
        else return { allowed := true, reason := s!"{d.reason}; human-approved" })
      fun exc =>
        if exc.isException then
          return { allowed := false, reason := s!"approval resolution failure: fail-closed ({exc.text})" }
        else raise exc : Prog PolicyDecision) = await (.approvalCallback context request d) (approvalOutcome d) := by
  unfold await tryExcept
  simp only [Bind.bind, attempt, lift, Coro.bind]
  congr 1
  funext a
  rcases a with e | b
  · cases e <;> rfl
  · cases b <;> rfl

theorem resolution_of_runs {d : PolicyDecision} {r : Except Exc PolicyDecision}
    (h : Runs E w (ic.safelyResolveActionRequirements rt context request d) tr r w') :
    Resolution ic context request d tr r := by
  unfold safelyResolveActionRequirements resolveActionRequirements at h
  by_cases hs : Supported d
  · rw [if_neg (not_not.2 ((unsupported_eq_nil_iff d).2 hs))] at h
    by_cases hne : d.actionRequirements = []
    · rw [if_neg (by simp [hne])] at h
      obtain ⟨rfl, rfl, -⟩ := runs_ret_iff.1 h
      exact .nothing hne
    · rw [if_pos ((required_iff hs).2 hne)] at h
      by_cases hc : ic.approvalCallback = false
      · rw [if_pos hc] at h
        obtain ⟨rfl, rfl, -⟩ := runs_ret_iff.1 h
        exact .noCallback _ hs hne hc
      · rw [if_neg hc, asked_eq] at h
        obtain ⟨a, rfl, -, rfl⟩ := runs_await_iff.1 h
        exact .asked a hs hne (by simpa using hc)
  · rw [if_pos (mt (unsupported_eq_nil_iff d).1 hs)] at h
    obtain ⟨rfl, rfl, -⟩ := runs_ret_iff.1 h
    exact .unsupported _ hs

/-! ## Execution -/

variable (context request) in
/-- The sandbox is started once. -/
inductive Execution : Trace → Except Exc SandboxResult → Prop
  | returned (start : JFloat) (s : SandboxResult) :
      Execution [⟨.monotonic, start⟩, ⟨.execute request context, .ok s⟩] (.ok s)
  | raised (start now elapsed : JFloat) {exc : Exc} : exc.isException = true →
      Execution [⟨.monotonic, start⟩, ⟨.execute request context, .error exc⟩, ⟨.monotonic, now⟩]
        (.ok { stdout := "", stderr := exc.text, exitCode := 1, durationMs := elapsed })
  | interrupted (start : JFloat) {exc : Exc} : exc.isException = false →
      Execution [⟨.monotonic, start⟩, ⟨.execute request context, .error exc⟩] (.error exc)

theorem execution_of_runs {r : Except Exc SandboxResult} (h : Runs E w (executeSandboxed rt context request) tr r w') :
    Execution context request tr r := by
  obtain ⟨start, w₁, t, rfl, -, h⟩ := runs_call_iff.1 h
  rcases runs_tryExcept_iff.1 h with ⟨s, h₁, rfl⟩ | ⟨exc, w₂, t₁, t₂, rfl, h₁, h₂⟩
  · obtain ⟨a, rfl, -, ha⟩ := runs_await_iff.1 h₁
    obtain rfl : Except.ok s = a := ha
    exact .returned start s
  · obtain ⟨a, rfl, -, ha⟩ := runs_await_iff.1 h₁
    obtain rfl : Except.error exc = a := ha
    by_cases he : exc.isException = true
    · rw [if_pos he] at h₂
      obtain ⟨now, w₃, t, rfl, -, h₂⟩ := runs_call_iff.1 h₂
      obtain ⟨rfl, rfl, -⟩ := runs_ret_iff.1 h₂
      exact .raised start now _ he
    · rw [if_neg he] at h₂
      obtain ⟨rfl, rfl, -⟩ := runs_raise_iff.1 h₂
      exact .interrupted start (by simpa using he)

variable (ic context request) in
/-- The outcome goes to the circuit breaker, if there is one. -/
inductive Outcome (s : SandboxResult) : Trace → Except Exc Unit → Prop
  | noBreaker : ic.circuitBreaker = false → Outcome s [] (.ok ())
  | recorded (a : Except Exc Unit) : ic.circuitBreaker = true →
      Outcome s [⟨.recordResult context.agentId request.toolName (s.exitCode == 0 && !s.timedOut), a⟩] a

theorem outcome_of_runs {s : SandboxResult} {r : Except Exc Unit}
    (h : Runs E w (ic.recordCircuitBreakerOutcome context request s) tr r w') : Outcome ic context request s tr r := by
  unfold recordCircuitBreakerOutcome at h
  by_cases hc : ic.circuitBreaker = false
  · rw [if_pos hc] at h
    obtain ⟨rfl, rfl, -⟩ := runs_ret_iff.1 h
    exact .noBreaker hc
  · rw [if_neg hc] at h
    obtain ⟨a, rfl, -, ha⟩ := runs_await_iff.1 h
    obtain rfl : r = a := ha
    exact .recorded r (by simpa using hc)

/-! ## The body -/

variable (ic context request) in
/-- The engine's answer to the call. -/
abbrev evaluated (a : Awaited PolicyDecision) : Event := ⟨.evaluateToolCall context request ic.decisionTimeoutS, a⟩

variable (ic context request) in
/-- The statements between `try` and `finally`, and the locals after them. -/
inductive BodyPath : Trace → Locals → Except Exc Unit → Prop
  | undecided {a : Awaited PolicyDecision} {e : Exc} : engineDecision a = .error e →
      BodyPath [evaluated ic context request a] {} (.error e)
  | denied {a : Awaited PolicyDecision} {d : PolicyDecision} : engineDecision a = .ok d → d.allowed = false →
      BodyPath [evaluated ic context request a] { decision := d } (.ok ())
  | unresolved {d : PolicyDecision} {t : Trace} {e : Exc} : d.allowed = true →
      Resolution ic context request d t (.error e) →
      BodyPath (evaluated ic context request (.returned d) :: t) { decision := d } (.error e)
  | refused {d d' : PolicyDecision} {t : Trace} : d.allowed = true → Resolution ic context request d t (.ok d') →
      d'.allowed = false → BodyPath (evaluated ic context request (.returned d) :: t) { decision := d' } (.ok ())
  | interrupted {d d' : PolicyDecision} {t u : Trace} {e : Exc} : d.allowed = true →
      Resolution ic context request d t (.ok d') → d'.allowed = true → Execution context request u (.error e) →
      BodyPath (evaluated ic context request (.returned d) :: (t ++ u)) { decision := d' } (.error e)
  | executed {d d' : PolicyDecision} {t u v : Trace} {s : SandboxResult} {out : Except Exc Unit} : d.allowed = true →
      Resolution ic context request d t (.ok d') → d'.allowed = true → Execution context request u (.ok s) →
      Outcome ic context request s v out →
      BodyPath (evaluated ic context request (.returned d) :: (t ++ (u ++ v)))
        { decision := d', sandboxResult := some s } out

theorem bodyPath_of_runs {v : Locals} {out : Except Exc Unit}
    (h : Runs E w (ic.handleBody rt context request {}) tr (.ok (v, out)) w') : BodyPath ic context request tr v out := by
  unfold handleBody at h
  rcases runs_seq_iff.1 h with ⟨e, hraised, rfl⟩ | ⟨v₁, w₁, t₁, t₂, rfl, hassign, hrest⟩
  · -- the engine
    rcases runs_assign_iff.1 hraised with ⟨d, -, -, ho⟩ | ⟨e', heval, rfl, ho⟩
    · cases ho
    · obtain rfl := Except.error.inj ho
      rw [evaluateDecision_eq] at heval
      obtain ⟨a, rfl, -, ha⟩ := runs_await_iff.1 heval
      exact .undecided ha.symm
  rcases runs_assign_iff.1 hassign with ⟨d, heval, rfl, -⟩ | ⟨e', -, -, ho⟩
  swap
  · cases ho
  rw [evaluateDecision_eq] at heval
  obtain ⟨a, rfl, -, ha⟩ := runs_await_iff.1 heval
  by_cases hd : d.allowed = true
  swap
  · -- denied: the two conditions fail
    have hd : d.allowed = false := by simpa using hd
    simp only [seq, whenever, hd, Bool.false_eq_true, if_false, Coro.bind] at hrest
    obtain ⟨rfl, ho, -⟩ := runs_ret_iff.1 hrest
    obtain ⟨rfl, rfl⟩ := Prod.mk.inj (Except.ok.inj ho)
    exact .denied ha.symm hd
  obtain rfl := engineDecision_allowed ha.symm hd
  rcases runs_seq_iff.1 hrest with ⟨e, hraised, rfl⟩ | ⟨v₂, w₂, t₁, t₃, rfl, hassign, hrest⟩
  · -- the requirements
    rcases runs_whenever_iff.1 hraised with ⟨-, hraised⟩ | ⟨-, -, -, ho, -⟩
    swap
    · cases ho
    rcases runs_assign_iff.1 hraised with ⟨d', -, -, ho⟩ | ⟨e', hresolve, rfl, ho⟩
    · cases ho
    · obtain rfl := Except.error.inj ho
      exact .unresolved hd (resolution_of_runs hresolve)
  rcases runs_whenever_iff.1 hassign with ⟨-, hassign⟩ | ⟨hd', -⟩
  swap
  · exact absurd (hd.symm.trans hd') (by simp)
  rcases runs_assign_iff.1 hassign with ⟨d', hresolve, rfl, -⟩ | ⟨e', -, -, ho⟩
  swap
  · cases ho
  have hres := resolution_of_runs hresolve
  rcases runs_whenever_iff.1 hrest with ⟨hd', hrun⟩ | ⟨hd', rfl, rfl, rfl, -⟩
  swap
  · rw [List.append_nil]
    exact .refused hd hres hd'
  rcases runs_seq_iff.1 hrun with ⟨e, hraised, rfl⟩ | ⟨v₃, w₃, t₄, t₅, rfl, hassign, hlast⟩
  · -- the sandbox
    rcases runs_assign_iff.1 hraised with ⟨s, -, -, ho⟩ | ⟨e', hexec, rfl, ho⟩
    · cases ho
    · obtain rfl := Except.error.inj ho
      exact .interrupted (t := t₁) (u := t₃) hd hres hd' (execution_of_runs hexec)
  rcases runs_assign_iff.1 hassign with ⟨s, hexec, rfl, -⟩ | ⟨e', -, -, ho⟩
  swap
  · cases ho
  -- the circuit breaker
  rcases runs_assign_iff.1 hlast with ⟨_, hrecord, rfl, rfl⟩ | ⟨e, hrecord, rfl, rfl⟩
  · exact .executed (t := t₁) (u := t₄) (v := t₅) hd hres hd' (execution_of_runs hexec) (outcome_of_runs hrecord)
  · exact .executed (t := t₁) (u := t₄) (v := t₅) hd hres hd' (execution_of_runs hexec) (outcome_of_runs hrecord)

/-- The engine has come to a decision. -/
def isDecision : Event → Bool
  | ⟨.evaluateToolCall _ _ _, .returned _⟩ => true
  | _ => false

/-- A call that decides or executes: neither to the circuit breaker nor to the audit log. -/
def isWork : Op → Bool
  | .evaluateToolCall _ _ _ | .approvalCallback _ _ _ | .monotonic | .execute _ _ => true
  | .check _ _ | .recordResult _ _ _ | .logCall _ _ _ _ => false

/-- Nothing but work. -/
def Working (tr : Trace) : Prop := ∀ event ∈ tr, isWork event.1 = true

lemma Working.append {t u : Trace} (ht : Working t) (hu : Working u) : Working (t ++ u) :=
  List.forall_mem_append.2 ⟨ht, hu⟩

lemma evaluated_working (a : Awaited PolicyDecision) : Working [evaluated ic context request a] := by
  simp [Working, isWork]

lemma Resolution.working {d : PolicyDecision} {t : Trace} {r : Except Exc PolicyDecision}
    (h : Resolution ic context request d t r) : Working t := by
  cases h <;> simp [Working, isWork]

lemma Execution.working {u : Trace} {r : Except Exc SandboxResult} (h : Execution context request u r) :
    Working u := by
  cases h <;> simp [Working, isWork]

lemma Execution.executes {u : Trace} {r : Except Exc SandboxResult} (h : Execution context request u r) :
    ∃ a, (⟨.execute request context, a⟩ : Event) ∈ u := by
  cases h with
  | returned start s => exact ⟨.ok s, by simp⟩
  | raised start now elapsed _ => exact ⟨_, List.mem_cons_of_mem _ List.mem_cons_self⟩
  | interrupted start _ => exact ⟨_, List.mem_cons_of_mem _ List.mem_cons_self⟩

/-- The body works, and reports to the circuit breaker at most once, at its end. -/
theorem BodyPath.ending {t : Trace} {v : Locals} {out : Except Exc Unit} (h : BodyPath ic context request t v out) :
    (Working t ∧ (v.sandboxResult = none ∨ ic.circuitBreaker = false)) ∨
      ∃ u s a, Working u ∧ (∃ b, (⟨.execute request context, b⟩ : Event) ∈ u) ∧ v.sandboxResult = some s ∧
        ic.circuitBreaker = true ∧
        t = u ++ [⟨.recordResult context.agentId request.toolName (s.exitCode == 0 && !s.timedOut), a⟩] := by
  cases h with
  | undecided _ => exact Or.inl ⟨evaluated_working _, Or.inl rfl⟩
  | denied _ _ => exact Or.inl ⟨evaluated_working _, Or.inl rfl⟩
  | unresolved _ hresolution => exact Or.inl ⟨(evaluated_working _).append hresolution.working, Or.inl rfl⟩
  | refused _ hresolution _ => exact Or.inl ⟨(evaluated_working _).append hresolution.working, Or.inl rfl⟩
  | interrupted _ hresolution _ hexecution =>
    exact Or.inl ⟨(evaluated_working _).append (hresolution.working.append hexecution.working), Or.inl rfl⟩
  | @executed d _ _ _ _ s _ _ hresolution _ hexecution houtcome =>
    have hevaluated : Working [evaluated ic context request (.returned d)] := evaluated_working _
    have hworking := hevaluated.append (hresolution.working.append hexecution.working)
    cases houtcome with
    | noBreaker hnone =>
      rw [List.append_nil]
      exact Or.inl ⟨hworking, Or.inr hnone⟩
    | recorded _ hbreaker =>
      obtain ⟨b, hb⟩ := hexecution.executes
      refine Or.inr ⟨_, s, out, hworking, ⟨b, ?_⟩, rfl, hbreaker, ?_⟩
      · exact List.mem_append_right _ (List.mem_append_right _ hb)
      · simp only [List.append_assoc, List.cons_append, List.nil_append]

/-! ## The method -/

variable (ic context request) in
/-- The question to the circuit breaker. -/
inductive GatePath : Trace → Except Exc Bool → Prop
  | noBreaker : ic.circuitBreaker = false → GatePath [] (.ok false)
  | checked (a : Except Exc Bool) : ic.circuitBreaker = true →
      GatePath [⟨.check context.agentId request.toolName, a⟩] (a.map not)

theorem gatePath_of_runs {r : Except Exc Bool} (h : Runs E w (ic.circuitOpen context request) tr r w') :
    GatePath ic context request tr r := by
  unfold circuitOpen at h
  by_cases hc : ic.circuitBreaker = true
  · rw [if_pos hc] at h
    rcases runs_bind_iff.1 h with ⟨e, h₁, rfl⟩ | ⟨b, w₁, t₁, t₂, rfl, h₁, h₂⟩
    · obtain ⟨a, rfl, -, ha⟩ := runs_await_iff.1 h₁
      obtain rfl : Except.error e = a := ha
      exact .checked _ hc
    · obtain ⟨a, rfl, -, ha⟩ := runs_await_iff.1 h₁
      obtain rfl : Except.ok b = a := ha
      obtain ⟨rfl, rfl, -⟩ := runs_ret_iff.1 h₂
      exact .checked (.ok b) hc
  · rw [if_neg hc] at h
    obtain ⟨rfl, rfl, -⟩ := runs_ret_iff.1 h
    exact .noBreaker (by simpa using hc)

lemma GatePath.error_eq {g : Trace} {e : Exc} (h : GatePath ic context request g (.error e)) :
    ic.circuitBreaker = true ∧ g = [⟨.check context.agentId request.toolName, .error e⟩] := by
  generalize hr : (Except.error e : Except Exc Bool) = r at h
  cases h with
  | noBreaker => cases hr
  | checked a hc =>
    cases a with
    | error e' =>
      obtain rfl := Except.error.inj hr
      exact ⟨hc, rfl⟩
    | ok => cases hr

lemma GatePath.ok_eq {g : Trace} {b : Bool} (h : GatePath ic context request g (.ok b)) :
    (ic.circuitBreaker = false ∧ b = false ∧ g = []) ∨
      (ic.circuitBreaker = true ∧ g = [⟨.check context.agentId request.toolName, .ok !b⟩]) := by
  generalize hr : (Except.ok b : Except Exc Bool) = r at h
  cases h with
  | noBreaker hc =>
    obtain rfl := Except.ok.inj hr
    exact Or.inl ⟨hc, rfl, rfl⟩
  | checked a hc =>
    cases a with
    | error => cases hr
    | ok c =>
      obtain rfl := Except.ok.inj hr
      exact Or.inr ⟨hc, by rw [Bool.not_not]⟩

variable (context request) in
/-- The call of `log_call` for the decision `d`. -/
abbrev logged (d : PolicyDecision) (s : Option SandboxResult) (a : Except Exc AuditRecord) : Event :=
  ⟨.logCall context request d (s.map SandboxResult.modelDump), a⟩

variable (ic context request) in
/-- A run of `handle`: the gate raises, or the breaker is open, or the body runs.  After the last two the call is
logged, whatever became of the body. -/
inductive HandlePath : Trace → Except Exc InterceptorResult → Prop
  | gateRaised {g : Trace} {e : Exc} : GatePath ic context request g (.error e) → HandlePath g (.error e)
  | circuitOpen {g : Trace} {d : PolicyDecision} {a : Except Exc AuditRecord} :
      GatePath ic context request g (.ok true) → d.allowed = false →
      HandlePath (g ++ [logged context request d none a]) (wrapped d none a)
  | decided {g t : Trace} {v : Locals} {out : Except Exc Unit} {a : Except Exc AuditRecord} :
      GatePath ic context request g (.ok false) → BodyPath ic context request t v out →
      HandlePath (g ++ t ++ [logged context request v.decision v.sandboxResult a])
        ((wrapped v.decision v.sandboxResult a).bind fun r => out.map fun _ => r)

/-- **Every run of `handle` is one of the paths.** -/
theorem handle_path {r : Except Exc InterceptorResult} (h : Runs E w (ic.handle rt context request) tr r w') :
    HandlePath ic context request tr r := by
  unfold handle at h
  rcases runs_bind_iff.1 h with ⟨e, h₁, rfl⟩ | ⟨b, w₁, t₁, t₂, rfl, h₁, h₂⟩
  · exact .gateRaised (gatePath_of_runs h₁)
  have hgate := gatePath_of_runs h₁
  by_cases hb : b = true
  · subst hb
    rw [if_pos rfl, auditAndWrap_eq] at h₂
    obtain ⟨a, rfl, -, rfl⟩ := runs_await_iff.1 h₂
    exact .circuitOpen hgate rfl
  · obtain rfl : b = false := by simpa using hb
    rw [if_neg (by simp)] at h₂
    obtain ⟨v, out, w₂, t, t', r₂, rfl, hbody, hfin, rfl⟩ := runs_tryFinally_iff.1 h₂
    rw [auditAndWrap_eq] at hfin
    obtain ⟨a, rfl, -, rfl⟩ := runs_await_iff.1 hfin
    rw [← List.append_assoc]
    exact .decided hgate (bodyPath_of_runs hbody)

end Aimw.Interceptor
