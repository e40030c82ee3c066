import Aimw.Interceptor.Concurrent
import Aimw.Lib.Linking
import Aimw.Sandbox.Subprocess

/-!
# The interceptor with its sandbox

`handle` calls the `execute` of a sandbox (`sandbox/base.py`), and that is a program as well.  Linked, the two are one
program over the calls of the collaborators and the calls of the sandbox.

* `HandlePath.execute_split` — where in a run of `handle` the sandbox is started;
* `HandlePath.approval_split` — where in a run of `handle` the reviewer is asked;
* `governed_split` — a call of the sandbox belongs to one `execute`, with the gate open before it.
-/

namespace Aimw.Interceptor

open Lib Audit Coro ToolCallInterceptor

/-! ## The sandbox -/

/-- A sandbox, with the calls that its `execute` makes; each of them can be answered. -/
structure BaseSandbox where
  Op : Type
  Answer : Op → Type
  nonempty : ∀ q, Nonempty (Answer q)
  execute : ToolRequest → ExecutionContext → Coro Op Answer Exc SandboxResult

inductive GovernedOp (S : BaseSandbox)
  | collaborator (q : Op)
  | sandbox (q : S.Op)

abbrev GovernedOp.Answer {S : BaseSandbox} : GovernedOp S → Type
  | collaborator q => q.Answer
  | sandbox q => S.Answer q

/-- The subprocess sandbox as the interceptor holds it. -/
def subprocessSandbox (rt : Sandbox.Runtime) (sandbox : Sandbox.SubprocessSandbox) : BaseSandbox where
  Op := Sandbox.SandboxOp
  Answer := Sandbox.SandboxOp.Answer
  nonempty
    | .monotonic => ⟨.nan⟩
    | .waitFor _ _ _ _ => ⟨.exceeded⟩
  execute := sandbox.execute rt

instance {S : BaseSandbox} : (q : GovernedOp S) → Nonempty q.Answer
  | .collaborator q => inferInstanceAs (Nonempty q.Answer)
  | .sandbox q => S.nonempty q

abbrev GovernedEvent (S : BaseSandbox) : Type := (q : GovernedOp S) × q.Answer

variable (S : BaseSandbox)

/-- The sandbox is the interceptor's own; the others answer for themselves. -/
def carryOut : (q : Op) → Coro (GovernedOp S) GovernedOp.Answer Empty q.Answer
  | .execute request context => (rename GovernedOp.sandbox (S.execute request context)).attempt
  | q => perform (GovernedOp.collaborator q)

/-- `handle`, down to the calls of the sandbox. -/
def ToolCallInterceptor.governed (rt : Runtime) (ic : ToolCallInterceptor) (context : ExecutionContext)
    (request : ToolRequest) : Coro (GovernedOp S) GovernedOp.Answer Exc InterceptorResult :=
  (ic.handle rt context request).link (carryOut S)

/-- A call of a collaborator. -/
abbrev collaborated (e : Event) : GovernedEvent S := ⟨.collaborator e.1, e.2⟩

/-- A call of the sandbox. -/
abbrev sandboxed (e : (q : S.Op) × S.Answer q) : GovernedEvent S := ⟨.sandbox e.1, e.2⟩

variable {S}

def isExecute : Op → Bool
  | .execute _ _ => true
  | _ => false

lemma carryOut_of_not_execute {q : Op} (h : isExecute q = false) : carryOut S q = perform (GovernedOp.collaborator q) := by
  cases q <;> first | rfl | cases h

section Runs

variable {World : Type} {E : World → (q : GovernedOp S) → q.Answer → World → Prop} {w w' : World}
  {tr : List (GovernedEvent S)}

lemma runs_carryOut {q : Op} {a : q.Answer} (h : isExecute q = false)
    (hruns : Runs E w (carryOut S q) tr (.ok a) w') : tr = [collaborated S ⟨q, a⟩] := by
  rw [carryOut_of_not_execute h] at hruns
  obtain ⟨b, rfl, -, hb⟩ := runs_perform_iff.1 hruns
  obtain rfl := Except.ok.inj hb
  rfl

lemma runs_carryOut_execute {request : ToolRequest} {context : ExecutionContext} {a : Except Exc SandboxResult}
    (hruns : Runs E w (carryOut S (.execute request context)) tr (.ok a) w') :
    ∃ t, tr = t.map (sandboxed S) ∧
      Runs (fun w q a w' => E w (.sandbox q) a w') w (S.execute request context) t a w' := by
  obtain ⟨t, rfl, hrun⟩ := runs_rename_iff.1 (runs_attempt_iff.1 hruns)
  exact ⟨t, rfl, hrun⟩

/-- Calls that start no sandbox are carried out as they stand. -/
lemma implements_without_execute {outer : Trace} (h : Implements E (carryOut S) w outer tr w')
    (hnone : ∀ e ∈ outer, isExecute e.1 = false) : tr = outer.map (collaborated S) := by
  induction h with
  | nil => rfl
  | cons hinner _ ih =>
    obtain ⟨hq, hrest⟩ := List.forall_mem_cons.1 hnone
    rw [runs_carryOut hq hinner, ih hrest]
    rfl

end Runs

/-! ## Where the sandbox is started -/

variable {rt : Runtime} {ic : ToolCallInterceptor} {context : ExecutionContext} {request : ToolRequest}

lemma not_execute_of_executions {t : Trace} (h : executions t = []) : ∀ e ∈ t, isExecute e.1 = false := by
  rintro ⟨q, a⟩ he
  have hnone := List.filterMap_eq_nil_iff.1 h ⟨q, a⟩ he
  cases q <;> first | rfl | cases hnone

/-- What is not in the first part of a list stands in the second. -/
lemma split_right_of_not_mem {α : Type} {l₁ l₂ l₁' l₂' : List α} {x : α} (hx : x ∉ l₁')
    (h : l₁ ++ x :: l₂ = l₁' ++ l₂') : ∃ l, l₁ = l₁' ++ l ∧ l₂' = l ++ x :: l₂ := by
  rcases List.append_eq_append_iff.1 h with ⟨c, rfl, hc⟩ | ⟨c, rfl, hc⟩
  · cases c with
    | nil => exact ⟨[], by simp, by simpa using hc.symm⟩
    | cons y c =>
      obtain ⟨rfl, -⟩ := List.cons.inj hc
      exact absurd (by simp) hx
  · exact ⟨c, rfl, hc⟩

/-- What is not in the second part of a list stands in the first. -/
lemma split_left_of_not_mem {α : Type} {l₁ l₂ l₁' l₂' : List α} {x : α} (hx : x ∉ l₂')
    (h : l₁ ++ x :: l₂ = l₁' ++ l₂') : ∃ l, l₁' = l₁ ++ x :: l ∧ l₂ = l ++ l₂' := by
  rcases List.append_eq_append_iff.1 h with ⟨c, rfl, hc⟩ | ⟨c, rfl, hc⟩
  · cases c with
    | nil => exact absurd (by simp [show l₂' = x :: l₂ from hc.symm]) hx
    | cons y c =>
      obtain ⟨rfl, rfl⟩ := List.cons.inj hc
      exact ⟨c, rfl, rfl⟩
  · exact absurd (by simp [hc]) hx

/-- A list holds the only element with `P` at one place. -/
lemma append_cons_inj_of_only {α : Type} {P : α → Prop} {l₁ l₂ l₁' l₂' : List α} {x y : α} (hx : P x)
    (h₁ : ∀ e ∈ l₁', ¬ P e) (h₂ : ∀ e ∈ l₂', ¬ P e) (h : l₁ ++ x :: l₂ = l₁' ++ y :: l₂') :
    l₁ = l₁' ∧ x = y ∧ l₂ = l₂' := by
  have hright : x ∉ l₁' := fun hmem => h₁ x hmem hx
  obtain ⟨l, rfl, hl⟩ := split_right_of_not_mem hright h
  cases l with
  | nil =>
    obtain ⟨rfl, rfl⟩ := List.cons.inj hl
    exact ⟨by simp, rfl, rfl⟩
  | cons z l =>
    obtain ⟨rfl, rfl⟩ := List.cons.inj hl
    exact absurd hx (h₂ x (by simp))

/-- A body that executes starts the sandbox once, and is authorised by then. -/
lemma BodyPath.execute_split {t : Trace} {v : Locals} {out : Except Exc Unit}
    (h : BodyPath ic context request t v out) (hne : executions t ≠ []) :
    ∃ before a after, t = before ++ ⟨.execute request context, a⟩ :: after ∧ Authorized ic context request before ∧
      executions before = [] ∧ executions after = [] := by
  have hstarted : ∀ {d d' : PolicyDecision} {t u : Trace} {r : Except Exc SandboxResult} (after : Trace),
      d.allowed = true → Resolution ic context request d t (.ok d') → d'.allowed = true →
      Execution context request u r → executions after = [] →
      ∃ before a after', evaluated ic context request (.returned d) :: (t ++ (u ++ after)) =
          before ++ ⟨.execute request context, a⟩ :: after' ∧ Authorized ic context request before ∧
        executions before = [] ∧ executions after' = [] := by
    intro d d' t u r after hd hresolution hd' hexecution hafter
    have hauthorized := fun u => authorized_of_granted (u := u) hd hresolution hd'
    have hbefore : ∀ start, executions (evaluated ic context request (.returned d) :: (t ++ [⟨.monotonic, start⟩])) = [] := by
      intro start
      rw [(evaluated_calls ..).2.2.2.1, executions_append, hresolution.calls.2.2.1]
      rfl
    cases hexecution with
    | returned start s =>
      exact ⟨evaluated ic context request (.returned d) :: (t ++ [⟨.monotonic, start⟩]), .ok s, after, by simp,
        hauthorized _, hbefore start, hafter⟩
    | @raised start now elapsed exc _ =>
      refine ⟨evaluated ic context request (.returned d) :: (t ++ [⟨.monotonic, start⟩]), .error exc,
        ⟨.monotonic, now⟩ :: after, by simp, hauthorized _, hbefore start, ?_⟩
      exact hafter
    | @interrupted start exc _ =>
      exact ⟨evaluated ic context request (.returned d) :: (t ++ [⟨.monotonic, start⟩]), .error exc, after, by simp,
        hauthorized _, hbefore start, hafter⟩
  cases h with
  | undecided => exact absurd rfl hne
  | denied => exact absurd rfl hne
  | unresolved _ hresolution => exact absurd hresolution.calls.2.2.1 hne
  | refused _ hresolution _ => exact absurd hresolution.calls.2.2.1 hne
  | interrupted hd hresolution hd' hexecution =>
    simpa only [List.append_nil] using hstarted [] hd hresolution hd' hexecution rfl
  | executed hd hresolution hd' hexecution houtcome =>
    exact hstarted _ hd hresolution hd' hexecution houtcome.calls.2.2.2.1

/-- **A call that executes starts the sandbox once, behind the open gate.** -/
theorem HandlePath.execute_split {tr : Trace} {r : Except Exc InterceptorResult}
    (h : HandlePath ic context request tr r) (hne : executions tr ≠ []) :
    ∃ before a after, tr = before ++ ⟨.execute request context, a⟩ :: after ∧ GateOpen ic context request before ∧
      executions before = [] ∧ executions after = [] := by
  cases h with
  | gateRaised hgate => exact absurd hgate.calls.2.2.1 hne
  | circuitOpen hgate _ =>
    rw [executions_append, hgate.calls.2.2.1] at hne
    exact absurd rfl hne
  | @decided g t v out a hgate hbody =>
    have hbodyExecutes : executions t ≠ [] := by
      rw [executions_append, executions_append, hgate.calls.2.2.1, List.nil_append, logged_calls .. |>.2.2.2.1,
        List.append_nil] at hne
      exact hne
    obtain ⟨before, a', after, rfl, hauthorized, hbefore, hafter⟩ := hbody.execute_split hbodyExecutes
    refine ⟨g ++ before, a', after ++ [logged context request v.decision v.sandboxResult a], by simp, ⟨?_, ?_⟩, ?_, ?_⟩
    · intro hbreaker
      rcases hgate.checks_eq with ⟨hnone, -⟩ | ⟨-, hchecks⟩
      · exact absurd (hbreaker.symm.trans hnone) (by simp)
      · rw [checks_append, hchecks]
        simp
    · exact (authorized_append_iff hgate).2 hauthorized
    · rw [executions_append, hgate.calls.2.2.1, hbefore]
      rfl
    · rw [executions_append, hafter]
      rfl

/-! ## Where the reviewer is asked -/

variable (ic context request) in
/-- The engine has allowed the request and asked for an approval, and nothing has been executed. -/
def Pending (before : Trace) (q : ExecutionContext × ToolRequest × PolicyDecision) : Prop :=
  ∃ d, q = (context, request, d) ∧ d.allowed = true ∧ d.actionRequirements ≠ [] ∧
    evaluated ic context request (.returned d) ∈ before ∧ executions before = []

lemma not_asked_of_approvals {t : Trace} (h : approvals t = []) {ctx : ExecutionContext} {req : ToolRequest}
    {d : PolicyDecision} {a : Except Exc Bool} : (⟨.approvalCallback ctx req d, a⟩ : Event) ∉ t :=
  fun hmem => absurd (List.filterMap_eq_nil_iff.1 h _ hmem) (by simp)

variable {pre post : Trace} {ctx : ExecutionContext} {req : ToolRequest} {d : PolicyDecision} {a : Except Exc Bool}

lemma BodyPath.approval_split {t : Trace} {v : Locals} {out : Except Exc Unit} (h : BodyPath ic context request t v out)
    (ht : pre ++ ⟨.approvalCallback ctx req d, a⟩ :: post = t) : Pending ic context request pre (ctx, req, d) := by
  have hpending : ∀ {d' : PolicyDecision} {t rest : Trace} {r : Except Exc PolicyDecision}, d'.allowed = true →
      Resolution ic context request d' t r → approvals rest = [] →
      pre ++ ⟨.approvalCallback ctx req d, a⟩ :: post = evaluated ic context request (.returned d') :: (t ++ rest) →
      Pending ic context request pre (ctx, req, d) := by
    intro d' t rest r hd hresolution hrest heq
    have hnone : t = [] → Pending ic context request pre (ctx, req, d) := by
      rintro rfl
      have hcalls : approvals (evaluated ic context request (.returned d') :: rest) = [] := hrest
      have hmem : (⟨.approvalCallback ctx req d, a⟩ : Event) ∈ evaluated ic context request (.returned d') :: rest :=
        List.nil_append rest ▸ heq ▸ List.mem_append_right pre List.mem_cons_self
      exact absurd hmem (not_asked_of_approvals hcalls)
    cases hresolution with
    | unsupported => exact hnone rfl
    | noCallback => exact hnone rfl
    | nothing => exact hnone rfl
    | asked b _ hrequired _ =>
      have hsplit : pre ++ ⟨.approvalCallback ctx req d, a⟩ :: post =
          [evaluated ic context request (.returned d')] ++ ⟨.approvalCallback context request d', b⟩ :: rest := heq
      have hsilent : ∀ e ∈ rest, ¬ approvals [e] ≠ [] := by
        intro e he hne
        exact hne (List.filterMap_cons_none (List.filterMap_eq_nil_iff.1 hrest e he))
      obtain ⟨rfl, hevent, -⟩ := append_cons_inj_of_only (P := fun e => approvals [e] ≠ []) (by simp [approvals])
        (by simp [approvals]) hsilent hsplit
      obtain ⟨rfl, rfl, rfl⟩ := Op.approvalCallback.inj (Sigma.mk.inj hevent).1
      exact ⟨d, rfl, hd, hrequired, List.mem_singleton_self _, rfl⟩
  cases h with
  | undecided =>
    exact absurd (ht ▸ List.mem_append_right pre List.mem_cons_self) (not_asked_of_approvals rfl)
  | denied => exact absurd (ht ▸ List.mem_append_right pre List.mem_cons_self) (not_asked_of_approvals rfl)
  | unresolved hd hresolution => exact hpending hd hresolution rfl (by rw [ht, List.append_nil])
  | refused hd hresolution _ => exact hpending hd hresolution rfl (by rw [ht, List.append_nil])
  | interrupted hd hresolution _ hexecution => exact hpending hd hresolution hexecution.calls.2.2.1 ht
  | executed hd hresolution _ hexecution houtcome =>
    refine hpending hd hresolution ?_ ht
    rw [approvals_append, hexecution.calls.2.2.1, houtcome.calls.2.2.1]
    rfl

/-- **The reviewer is asked about what the engine has allowed**, and before it is executed. -/
theorem HandlePath.approval_split {tr : Trace} {r : Except Exc InterceptorResult} (h : HandlePath ic context request tr r)
    (htr : pre ++ ⟨.approvalCallback ctx req d, a⟩ :: post = tr) : Pending ic context request pre (ctx, req, d) := by
  cases h with
  | gateRaised hgate =>
    exact absurd (htr ▸ List.mem_append_right pre List.mem_cons_self) (not_asked_of_approvals hgate.calls.2.1)
  | circuitOpen hgate _ =>
    refine absurd (htr ▸ List.mem_append_right pre List.mem_cons_self) (not_asked_of_approvals ?_)
    rw [approvals_append, hgate.calls.2.1]
    rfl
  | @decided g t v out b hgate hbody =>
    rw [List.append_assoc] at htr
    obtain ⟨before, rfl, hlater⟩ := split_right_of_not_mem (not_asked_of_approvals hgate.calls.2.1) htr
    obtain ⟨after, rfl, -⟩ := split_left_of_not_mem (not_asked_of_approvals (logged_calls ..).2.2.1) hlater.symm
    obtain ⟨d', heq, hd, hrequired, hmem, hnone⟩ := hbody.approval_split rfl
    refine ⟨d', heq, hd, hrequired, List.mem_append_right g hmem, ?_⟩
    rw [executions_append, hgate.calls.2.2.1, hnone]
    rfl

/-! ## The linked program -/

/-- A question to the reviewer, with what was called before. -/
theorem governed_question {r : Except Exc InterceptorResult} {pre post : List (GovernedEvent S)}
    {ctx : ExecutionContext} {req : ToolRequest} {d : PolicyDecision} {a : Except Exc Bool}
    (h : Runs Anything () (ic.governed S rt context request)
      (pre ++ collaborated S ⟨.approvalCallback ctx req d, a⟩ :: post) r ()) :
    ∃ before, pre = before.map (collaborated S) ∧ Pending ic context request before (ctx, req, d) := by
  obtain ⟨outer, hruns, himpl⟩ := runs_link_iff.1 h
  obtain ⟨outer₁, q', a', outer₂, t, s, s', w₁, w₂, rfl, rfl, hearlier, hrun⟩ := himpl.split rfl
  have hexecute : isExecute q' = false := by
    by_contra hnot
    obtain ⟨request', context', rfl⟩ : ∃ request' context', q' = .execute request' context' := by
      cases q' <;> first | exact ⟨_, _, rfl⟩ | exact absurd rfl hnot
    obtain ⟨u, hu, -⟩ := runs_carryOut_execute hrun
    obtain ⟨e, -, he⟩ := List.mem_map.1 (hu ▸ List.mem_append_right s List.mem_cons_self)
    cases he
  obtain ⟨rfl, heq⟩ := List.append_eq_singleton_iff.1 (runs_carryOut hexecute hrun) |>.resolve_right (by simp)
  obtain ⟨hq, ha⟩ := Sigma.mk.inj (List.cons.inj heq).1
  obtain rfl := GovernedOp.collaborator.inj hq
  obtain ⟨d', hquestion, hd, hrequired, hmem, hnone⟩ := (handle_path hruns).approval_split rfl
  refine ⟨outer₁, ?_, d', hquestion, hd, hrequired, hmem, hnone⟩
  rw [List.append_nil, implements_without_execute hearlier (not_execute_of_executions hnone)]

/-- **A call of the sandbox belongs to one `execute`, behind the open gate**: before it stand the calls of the
collaborators that opened the gate, and what the sandbox has done so far. -/
theorem governed_split {r : Except Exc InterceptorResult} {pre post : List (GovernedEvent S)} {q : S.Op}
    {a : S.Answer q} (h : Runs Anything () (ic.governed S rt context request) (pre ++ sandboxed S ⟨q, a⟩ :: post) r ()) :
    ∃ before t t' out, pre = before.map (collaborated S) ++ t.map (sandboxed S) ∧ GateOpen ic context request before ∧
      executions before = [] ∧ Runs Anything () (S.execute request context) (t ++ ⟨q, a⟩ :: t') out () := by
  obtain ⟨outer, hruns, himpl⟩ := runs_link_iff.1 h
  obtain ⟨outer₁, q', a', outer₂, t, s, s', w₁, w₂, rfl, rfl, hearlier, hrun⟩ := himpl.split rfl
  have hexecute : isExecute q' = true := by
    by_contra hnot
    have hone := runs_carryOut (by simpa using hnot) hrun
    have hmem : sandboxed S ⟨q, a⟩ ∈ [collaborated S ⟨q', a'⟩] := hone ▸ List.mem_append_right s List.mem_cons_self
    cases List.mem_singleton.1 hmem
  obtain ⟨request', context', rfl⟩ : ∃ request' context', q' = .execute request' context' := by
    cases q' <;> first | exact ⟨_, _, rfl⟩ | cases hexecute
  have hpath := handle_path hruns
  obtain ⟨before, b, after, hsplit, hgate, hbefore, hafter⟩ := hpath.execute_split (by simp [executions])
  have hnot : ∀ {t : Trace}, executions t = [] → ∀ e ∈ t, ¬ isExecute e.1 = true :=
    fun ht e he => by simp [not_execute_of_executions ht e he]
  obtain ⟨rfl, heq, rfl⟩ := append_cons_inj_of_only (P := fun e : Event => isExecute e.1 = true) rfl (hnot hbefore)
    (hnot hafter) hsplit
  obtain ⟨rfl, rfl⟩ := Op.execute.inj (Sigma.mk.inj heq).1
  obtain ⟨u, hu, hsandbox⟩ := runs_carryOut_execute hrun
  obtain ⟨u₁, u₂, rfl, rfl, hu₂⟩ := List.map_eq_append_iff.1 hu.symm
  obtain ⟨e, u₃, rfl, he, rfl⟩ := List.map_eq_cons_iff.1 hu₂
  obtain ⟨he₁, he₂⟩ := Sigma.mk.inj he
  obtain rfl := GovernedOp.sandbox.inj he₁
  obtain rfl := eq_of_heq he₂
  refine ⟨outer₁, u₁, u₃, a', ?_, hgate, hbefore, hsandbox.anything⟩
  rw [implements_without_execute hearlier (not_execute_of_executions hbefore)]

end Aimw.Interceptor
