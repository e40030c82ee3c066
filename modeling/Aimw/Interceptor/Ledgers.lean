import Aimw.Interceptor.Concurrent
import Aimw.Reliability.FailureBudget

/-!
# The breaker and the audit log

An executed call is told to the circuit breaker inside the `try` and to the audit log in the `finally`.  In between it
is not suspended, so the two ledgers tell the same story whenever no call is in the middle of its turn
(`ledgers_agree`).
-/

namespace Aimw.Interceptor

open Lib Audit Coro ToolCallInterceptor Reliability

/-! ## The two ledgers -/

/-- What a call tells the breaker about an agent and a tool. -/
def report (agentId toolName : String) : Event → Option Bool
  | ⟨.recordResult agent tool success, _⟩ => if agent = agentId ∧ tool = toolName then some success else none
  | _ => none

/-- The outcomes that were passed to `CircuitBreaker.record_result`. -/
def reported {ι W : Type} (agentId toolName : String) (past : List (Moment ι W Op Op.Answer)) : List Bool :=
  past.filterMap fun m => report agentId toolName m.event

/-- A sandbox result in a record: `exit_code = 0` and not `timed_out`. -/
def succeeded (sandboxResult : List (String × PyVal)) : Bool :=
  match sandboxResult.lookup "exit_code", sandboxResult.lookup "timed_out" with
  | some (.int exitCode), some (.bool timedOut) => exitCode == 0 && !timedOut
  | _, _ => false

/-- What a record tells about an agent and a tool. -/
def outcomeIn (agentId toolName : String) (record : AuditRecord) : Option Bool :=
  if record.context.agentId = agentId ∧ record.request.toolName = toolName then record.sandboxResult.map succeeded
  else none

/-- The outcomes in the audit records. -/
def audited {ι W : Type} (agentId toolName : String) (past : List (Moment ι W Op Op.Answer)) : List Bool :=
  (written past).filterMap fun w => outcomeIn agentId toolName w.2

lemma succeeded_modelDump (s : SandboxResult) : succeeded s.modelDump = (s.exitCode == 0 && !s.timedOut) := rfl

/-! ## One call -/

def isLedger : Op → Bool
  | .recordResult _ _ _ | .logCall _ _ _ _ => true
  | _ => false

def isReport : Op → Bool
  | .recordResult _ _ _ => true
  | _ => false

lemma isLedger_of_isWork {q : Op} (h : isWork q = true) : isLedger q = false := by
  cases q <;> first | rfl | cases h

lemma isLedger_eq (q : Op) : isLedger q = (isReport q || isLog q) := by
  cases q <;> rfl

lemma isReport_of_not_isLedger {q : Op} (h : isLedger q = false) : isReport q = false :=
  (Bool.or_eq_false_iff.1 ((isLedger_eq q).symm.trans h)).1

lemma isLog_of_not_isLedger {q : Op} (h : isLedger q = false) : isLog q = false :=
  (Bool.or_eq_false_iff.1 ((isLedger_eq q).symm.trans h)).2

/-- Nothing for either ledger. -/
def Silent (tr : Trace) : Prop := ∀ e ∈ tr, isLedger e.1 = false

lemma Silent.of_working {tr : Trace} (h : Working tr) : Silent tr := fun e he => isLedger_of_isWork (h e he)

lemma Silent.append {t u : Trace} (ht : Silent t) (hu : Silent u) : Silent (t ++ u) :=
  List.forall_mem_append.2 ⟨ht, hu⟩

variable {rt : Runtime} {ic : ToolCallInterceptor} {context : ExecutionContext} {request : ToolRequest}

variable (context request) in
/-- The report about an execution. -/
abbrev told (s : SandboxResult) (a : Except Exc Unit) : Event :=
  ⟨.recordResult context.agentId request.toolName (s.exitCode == 0 && !s.timedOut), a⟩

variable (context request) in
/-- What a run writes to the ledgers: nothing, or a record without an outcome, or a report and a record with the same
outcome right after it. -/
inductive LedgerPath : Trace → Prop
  | nothing {f : Trace} : Silent f → LedgerPath f
  | denied {f : Trace} (d : PolicyDecision) (a : Except Exc AuditRecord) : Silent f →
      LedgerPath (f ++ [logged context request d none a])
  | executed {f : Trace} (s : SandboxResult) (b : Except Exc Unit) (d : PolicyDecision) (a : Except Exc AuditRecord) :
      Silent f → (∃ c, (⟨.execute request context, c⟩ : Event) ∈ f) →
      LedgerPath (f ++ [told context request s b] ++ [logged context request d (some s) a])

lemma ledgerPath_of_path {tr : Trace} {r : Except Exc InterceptorResult} (hbreaker : ic.circuitBreaker = true)
    (h : HandlePath ic context request tr r) : LedgerPath context request tr := by
  have hgate : ∀ {g : Trace} {b : Except Exc Bool}, GatePath ic context request g b → Silent g := by
    intro g b hg
    cases hg <;> simp [Silent, isLedger]
  cases h with
  | gateRaised hg => exact .nothing (hgate hg)
  | circuitOpen hg _ => exact .denied _ _ (hgate hg)
  | @decided g t v out a hg hbody =>
    rcases hbody.ending with ⟨hworking, hnone⟩ | ⟨u, s, b, hworking, ⟨c, hc⟩, hs, -, rfl⟩
    · have hsilent := (hgate hg).append (.of_working hworking)
      rw [hnone.resolve_right (by simp [hbreaker])]
      exact .denied _ _ hsilent
    · have hsilent := (hgate hg).append (.of_working hworking)
      rw [hs, ← List.append_assoc]
      exact .executed s b v.decision a hsilent ⟨c, List.mem_append_right _ hc⟩

/-- An element of a list that ends in `y` is that `y`, or comes before it. -/
lemma split_concat {α : Type} {tr tr' f : List α} {x y : α} (h : tr ++ x :: tr' = f ++ [y]) :
    (tr = f ∧ x = y) ∨ ∃ tr'', tr ++ x :: tr'' = f := by
  rcases List.eq_nil_or_concat tr' with rfl | ⟨tr'', z, rfl⟩
  · obtain ⟨hf, hxy⟩ := List.append_inj' h rfl
    exact Or.inl ⟨hf, List.singleton_inj.1 hxy⟩
  · rw [List.concat_eq_append, ← List.cons_append, ← List.append_assoc] at h
    exact Or.inr ⟨tr'', (List.append_inj' h rfl).1⟩

variable (context request) in
/-- Where a call stands that has done `tr` and performs `q`. -/
inductive LedgerState : Trace → Op → Prop
  | working {tr : Trace} {q : Op} : Silent tr → isLedger q = false → LedgerState tr q
  | denies {tr : Trace} (d : PolicyDecision) : Silent tr → LedgerState tr (.logCall context request d none)
  | tells {tr : Trace} (s : SandboxResult) : Silent tr → (∃ c, (⟨.execute request context, c⟩ : Event) ∈ tr) →
      LedgerState tr (.recordResult context.agentId request.toolName (s.exitCode == 0 && !s.timedOut))
  | writes {f : Trace} (s : SandboxResult) (b : Except Exc Unit) (d : PolicyDecision) : Silent f →
      (∃ c, (⟨.execute request context, c⟩ : Event) ∈ f) →
      LedgerState (f ++ [told context request s b]) (.logCall context request d (some s.modelDump))

theorem ledgerState_of_running {tr : Trace} {q : Op} {k : q.Answer → Prog InterceptorResult}
    (hbreaker : ic.circuitBreaker = true) (h : Advances (ic.handle rt context request) tr (.call q k)) :
    LedgerState context request tr q := by
  obtain ⟨tr', r, hrun⟩ := h.exists_runs (Classical.arbitrary q.Answer)
  have hsilent : ∀ {f tr'' : Trace} {x : Event}, Silent f → tr ++ x :: tr'' = f → Silent tr ∧ isLedger x.1 = false := by
    rintro f tr'' x hf rfl
    exact ⟨fun e he => hf e (List.mem_append_left _ he), hf x (by simp)⟩
  have hpath := ledgerPath_of_path hbreaker (handle_path hrun)
  generalize hwhole : tr ++ ⟨q, Classical.arbitrary q.Answer⟩ :: tr' = whole at hpath
  cases hpath with
  | nothing hf =>
    obtain ⟨htr, hq⟩ := hsilent hf hwhole
    exact .working htr hq
  | denied d a hf =>
    rcases split_concat hwhole with ⟨rfl, hx⟩ | ⟨tr'', hf'⟩
    · obtain rfl : q = _ := congrArg Sigma.fst hx
      exact .denies d hf
    · obtain ⟨htr, hq⟩ := hsilent hf hf'
      exact .working htr hq
  | executed s b d a hf hexecuted =>
    rcases split_concat hwhole with ⟨rfl, hx⟩ | ⟨tr'', hf'⟩
    · obtain rfl : q = _ := congrArg Sigma.fst hx
      exact .writes s b d hf hexecuted
    rcases split_concat hf' with ⟨rfl, hx⟩ | ⟨tr₃, hf'⟩
    · obtain rfl : q = _ := congrArg Sigma.fst hx
      exact .tells s hf hexecuted
    · obtain ⟨htr, hq⟩ := hsilent hf hf'
      exact .working htr hq

/-! ## The calls together -/

/-- A call at which a task can be suspended; the circuit breaker is in memory and never waits. -/
def suspends : Op → Bool
  | .evaluateToolCall _ _ _ | .approvalCallback _ _ _ | .execute _ _ => true
  | .check _ _ | .monotonic | .recordResult _ _ _ | .logCall _ _ _ _ => false

/-- The breaker and the logger answer; the other collaborators answer as they like. -/
inductive Bookkeeping {T : Type} [AddCommGroup T] [LinearOrder T] (P : Platform) (py : PyStr) :
    BreakerWorld T × LogState → (q : Op) → q.Answer → BreakerWorld T × LogState → Prop
  | served {w w' : BreakerWorld T} {log : LogState} {q : Op} {a : q.Answer} : isLog q = false → Serving w q a w' →
      Bookkeeping P py (w, log) q a (w', log)
  | logged {w : BreakerWorld T} {log : LogState} {context : ExecutionContext} {request : ToolRequest}
      {decision : PolicyDecision} {sandboxResult : Option (List (String × PyVal))} {recordId timestamp : String}
      {file : Option String} {logger : HashChainedJSONLLogger} {record : AuditRecord} :
      log.logger.logCall P py log.file context request decision sandboxResult recordId timestamp
        = .ok (file, logger, record) →
      Bookkeeping P py (w, log) (.logCall context request decision sandboxResult) (.ok record) (w, ⟨file, logger⟩)

/-- What the record of a call says. -/
lemma record_of_bookkeeping {T : Type} [AddCommGroup T] [LinearOrder T] {P : Platform} {py : PyStr}
    {w w' : BreakerWorld T × LogState} {decision : PolicyDecision} {sandboxResult : Option (List (String × PyVal))}
    {a : Except Exc AuditRecord} (h : Bookkeeping P py w (.logCall context request decision sandboxResult) a w') :
    ∃ record, a = .ok record ∧ record.context.agentId = context.agentId ∧
      record.request.toolName = request.toolName ∧ record.sandboxResult = sandboxResult := by
  cases h with
  | served hsilent => cases hsilent
  | logged happended =>
    obtain ⟨r, hr, happ⟩ := logCall_ok happended
    refine ⟨_, rfl, ?_⟩
    rw [append_record happ]
    exact ⟨rfl, (redactRequest_names hr).1.1, rfl⟩

variable {ι W : Type} [DecidableEq ι] {E : W → (q : Op) → q.Answer → W → Prop} {outside : W → W → Prop}
  {calls : ι → ExecutionContext × ToolRequest} {world : W} {s : Loop ι W Op Op.Answer Exc InterceptorResult}

lemma report_eq_none {agentId toolName : String} {e : Event} (h : isReport e.1 = false) :
    report agentId toolName e = none := by
  obtain ⟨q, a⟩ := e
  cases q <;> first | rfl | cases h

/-- Right after its report, a call is about to write its record. -/
lemma writes_next (hbreaker : ic.circuitBreaker = true) (h : Reached suspends E outside (handler rt ic calls) world s)
    {i : ι} {e : Event} (hlast : (own i s.past).getLast? = some e) (he : isReport e.1 = true) :
    ∃ f result b d k, own i s.past = f ++ [told (calls i).1 (calls i).2 result b] ∧
      s.tasks i = some (.call (.logCall (calls i).1 (calls i).2 d (some result.modelDump)) k) := by
  have hmem : e ∈ own i s.past := List.mem_of_getLast? hlast
  have hloud : ¬ Silent (own i s.past) := fun hsilent => by
    rw [isReport_of_not_isLedger (hsilent e hmem)] at he
    cases he
  cases hp : s.tasks i with
  | none =>
    rw [h.own_advances.2 hp] at hmem
    cases hmem
  | some p =>
    have hended : ∀ r, p.result? = some r → False := by
      intro r hr
      have hpath := ledgerPath_of_path hbreaker (handle_path ((h.advances hp).runs_of_result hr))
      generalize own i s.past = tr at hpath hlast hloud
      cases hpath with
      | nothing hf => exact hloud hf
      | denied d a hf =>
        rw [List.getLast?_concat] at hlast
        obtain rfl := Option.some.inj hlast
        cases he
      | executed result b d a hf _ =>
        rw [List.getLast?_concat] at hlast
        obtain rfl := Option.some.inj hlast
        cases he
    cases p with
    | ret a => exact (hended _ rfl).elim
    | raise e => exact (hended _ rfl).elim
    | call q k =>
      have hstate := ledgerState_of_running hbreaker (h.advances hp)
      generalize own i s.past = tr at hstate hloud
      cases hstate with
      | working hsilent _ => exact absurd hsilent hloud
      | denies d hsilent => exact absurd hsilent hloud
      | tells result hsilent _ => exact absurd hsilent hloud
      | writes result b d _ _ => exact ⟨_, result, b, d, k, rfl, rfl⟩

/-- The breaker is one report ahead of the audit log when a report was the last thing that happened, and is not
otherwise. -/
structure InStep (past : List (Moment ι W Op Op.Answer)) : Prop where
  last : ∀ i e, (own i past).getLast? = some e → isReport e.1 = true → ∃ m, past.getLast? = some m ∧ m.task = i
  agree : ∀ agentId toolName, reported agentId toolName past =
    audited agentId toolName past ++ (past.getLast?.bind fun m => report agentId toolName m.event).toList

variable {T : Type} [AddCommGroup T] [LinearOrder T] {P : Platform} {py : PyStr}
  {outside' : BreakerWorld T × LogState → BreakerWorld T × LogState → Prop} {world' : BreakerWorld T × LogState}
  {s' : Loop ι (BreakerWorld T × LogState) Op Op.Answer Exc InterceptorResult}

omit [DecidableEq ι] in
lemma audited_append (agentId toolName : String) (past past' : List (Moment ι W Op Op.Answer)) :
    audited agentId toolName (past ++ past') = audited agentId toolName past ++ audited agentId toolName past' := by
  rw [audited, written, List.filterMap_append, List.filterMap_append]
  rfl

omit [DecidableEq ι] in
lemma audited_singleton (agentId toolName : String) (m : Moment ι W Op Op.Answer) :
    audited agentId toolName [m] = ((writtenRecord m.event).bind (outcomeIn agentId toolName)).toList := by
  rw [audited, written_cons]
  cases hrecord : writtenRecord m.event with
  | none => rfl
  | some record =>
    cases houtcome : outcomeIn agentId toolName record <;> simp [written, houtcome]

/-- What a call writes to the log is what was reported last. -/
lemma InStep.outcome_eq (hin : InStep s'.past) (hbreaker : ic.circuitBreaker = true)
    (h : Reached suspends (Bookkeeping P py) outside' (handler rt ic calls) world' s') {i : ι} {q : Op}
    {k : q.Answer → Prog InterceptorResult} {a : q.Answer} {w : BreakerWorld T × LogState}
    (hi : s'.tasks i = some (.call q k)) (hrest : ∀ j p, j ≠ i → s'.tasks j = some p → AtRest suspends p)
    (hE : Bookkeeping P py s'.world q a w) (agentId toolName : String) :
    (writtenRecord ⟨q, a⟩).bind (outcomeIn agentId toolName) =
      s'.past.getLast?.bind fun m => report agentId toolName m.event := by
  by_cases htold : ∃ m, s'.past.getLast? = some m ∧ isReport m.event.1 = true
  · -- the report is this call's own, and the record says the same
    obtain ⟨m, hlast, hm⟩ := htold
    have hown := getLast?_own hlast
    obtain ⟨f, result, b, d, k', htrace, hj⟩ := writes_next hbreaker h hown hm
    obtain rfl : m.task = i := by
      by_contra hne
      exact absurd (hrest _ _ hne hj) (by simp [AtRest, suspends])
    obtain ⟨rfl, hk⟩ := Coro.call.inj (Option.some.inj (hi.symm.trans hj))
    obtain ⟨record, rfl, hagent, htool, hsandbox⟩ := record_of_bookkeeping hE
    have hevent : m.event = told (calls m.task).1 (calls m.task).2 result b := by
      rw [htrace, List.getLast?_concat] at hown
      exact (Option.some.inj hown).symm
    rw [hlast, Option.bind_some, hevent]
    simp only [writtenRecord, Option.bind_some, outcomeIn, hagent, htool, hsandbox, report, Option.map_some,
      succeeded_modelDump]
  · have hnothing : (s'.past.getLast?.bind fun m => report agentId toolName m.event) = none := by
      cases hlast : s'.past.getLast? with
      | none => rfl
      | some m => exact report_eq_none (by simpa using fun hm => htold ⟨m, hlast, hm⟩)
    rw [hnothing]
    have hstate := ledgerState_of_running hbreaker (h.advances hi)
    generalize htr : own i s'.past = tr at hstate
    cases hstate with
    | working _ hledger =>
      rw [writtenRecord_of_not_log (e := ⟨q, a⟩) (isLog_of_not_isLedger hledger)]
      rfl
    | tells => rfl
    | denies d _ =>
      obtain ⟨record, rfl, hagent, htool, hsandbox⟩ := record_of_bookkeeping hE
      simp [writtenRecord, outcomeIn, hsandbox]
    | writes result b d _ _ =>
      have hlast : (own i s'.past).getLast? = some (told (calls i).1 (calls i).2 result b) := by
        rw [htr, List.getLast?_concat]
      obtain ⟨m, hm, rfl⟩ := hin.last i _ hlast rfl
      have hevent : m.event = told (calls m.task).1 (calls m.task).2 result b :=
        Option.some.inj ((getLast?_own hm).symm.trans hlast)
      exact absurd ⟨m, hm, by rw [hevent]; rfl⟩ htold

theorem inStep_of_reached (hbreaker : ic.circuitBreaker = true)
    (h : Reached suspends (Bookkeeping P py) outside' (handler rt ic calls) world' s') : InStep s'.past := by
  induction h with
  | init => exact ⟨fun i e he => (by cases he), fun _ _ => rfl⟩
  | start _ _ _ _ ih => exact ih
  | moved _ _ ih => exact ih
  | @resume s i q k a w hreached hi hrest hE ih =>
    refine ⟨fun j e hlast he => ⟨⟨i, ⟨q, a⟩, s.world, w⟩, by simp, ?_⟩, fun agentId toolName => ?_⟩
    · -- another call that has just reported would not be at rest
      by_contra hne
      rw [own_append, own_of_ne hne, List.append_nil] at hlast
      obtain ⟨f, result, b, d, k', -, hj⟩ := writes_next hbreaker hreached hlast he
      exact absurd (hrest j _ (Ne.symm hne) hj) (by simp [AtRest, suspends])
    · rw [audited_append, audited_singleton, ih.outcome_eq hbreaker hreached hi hrest hE, List.append_assoc,
        reported, List.filterMap_append, ← reported, ih.agree]
      cases hreport : report agentId toolName ⟨q, a⟩ <;> simp [hreport]

/-- What a call has done for the ledgers, ended or not: nothing, or it was denied, or it has started the sandbox. -/
lemma ledgers_so_far (hbreaker : ic.circuitBreaker = true)
    (h : Reached suspends E outside (handler rt ic calls) world s) (i : ι) :
    Silent (own i s.past) ∨
      (∃ f d a, Silent f ∧ own i s.past = f ++ [logged (calls i).1 (calls i).2 d none a]) ∨
        ∃ c, (⟨.execute (calls i).2 (calls i).1, c⟩ : Event) ∈ own i s.past := by
  cases hp : s.tasks i with
  | none =>
    rw [h.own_advances.2 hp]
    exact Or.inl fun e he => by cases he
  | some p =>
    have hadvances := h.advances hp
    cases hr : p.result? with
    | none =>
      cases p with
      | ret _ => cases hr
      | raise _ => cases hr
      | call q k =>
        have hstate := ledgerState_of_running hbreaker hadvances
        generalize own i s.past = tr at hstate
        cases hstate with
        | working hsilent _ => exact Or.inl hsilent
        | denies _ hsilent => exact Or.inl hsilent
        | tells _ hsilent _ => exact Or.inl hsilent
        | writes _ _ _ _ hexecuted => exact Or.inr (Or.inr (hexecuted.imp fun _ => List.mem_append_left _))
    | some r =>
      have hpath := ledgerPath_of_path hbreaker (handle_path (hadvances.runs_of_result hr))
      generalize own i s.past = tr at hpath
      cases hpath with
      | nothing hsilent => exact Or.inl hsilent
      | denied d a hsilent => exact Or.inr (Or.inl ⟨_, d, a, hsilent, rfl⟩)
      | executed _ _ _ _ _ hexecuted =>
        rw [List.append_assoc]
        exact Or.inr (Or.inr (hexecuted.imp fun _ => List.mem_append_left _))

/-- A call that has not started the sandbox has told neither ledger an outcome. -/
lemma no_outcome_of_not_executed (hbreaker : ic.circuitBreaker = true)
    (h : Reached suspends (Bookkeeping P py) outside' (handler rt ic calls) world' s') {i : ι}
    (hnone : executions (own i s'.past) = []) (agentId toolName : String) :
    ∀ e ∈ own i s'.past, report agentId toolName e = none ∧
      (writtenRecord e).bind (outcomeIn agentId toolName) = none := by
  have hsilent : ∀ {tr : Trace}, Silent tr → ∀ e ∈ tr, report agentId toolName e = none ∧
      (writtenRecord e).bind (outcomeIn agentId toolName) = none := by
    intro tr htr e he
    have hledger := htr e he
    refine ⟨report_eq_none (isReport_of_not_isLedger hledger), ?_⟩
    rw [writtenRecord_of_not_log (isLog_of_not_isLedger hledger)]
    rfl
  rcases ledgers_so_far hbreaker h i with htr | ⟨f, d, a, hf, htr⟩ | ⟨c, hc⟩
  · exact hsilent htr
  · obtain ⟨m, hm, -, hevent⟩ := mem_own.1 (htr ▸ List.mem_append_right _ (List.mem_singleton_self _))
    have hanswer := h.answered m hm
    rw [hevent] at hanswer
    obtain ⟨record, rfl, -, -, hsandbox⟩ := record_of_bookkeeping hanswer
    rw [htr]
    refine List.forall_mem_append.2 ⟨hsilent hf, List.forall_mem_singleton.2 ⟨rfl, ?_⟩⟩
    simp [writtenRecord, outcomeIn, hsandbox]
  · have hmem : ((calls i).2, (calls i).1) ∈ executions (own i s'.past) := List.mem_filterMap.2 ⟨_, hc, rfl⟩
    rw [hnone] at hmem
    cases hmem

/-- **The two ledgers agree** when no call is in the middle of its turn.  A call that has not started the sandbox is in
neither. -/
theorem ledgers_agree (hbreaker : ic.circuitBreaker = true)
    (h : Reached suspends (Bookkeeping P py) outside' (handler rt ic calls) world' s')
    (hrest : ∀ i p, s'.tasks i = some p → AtRest suspends p) :
    (∀ agentId toolName, reported agentId toolName s'.past = audited agentId toolName s'.past) ∧
      ∀ i, executions (own i s'.past) = [] → ∀ agentId toolName, ∀ e ∈ own i s'.past,
        report agentId toolName e = none ∧ (writtenRecord e).bind (outcomeIn agentId toolName) = none := by
  refine ⟨fun agentId toolName => ?_, fun i => no_outcome_of_not_executed hbreaker h⟩
  have hin := (inStep_of_reached hbreaker h).agree agentId toolName
  have hnothing : (s'.past.getLast?.bind fun m => report agentId toolName m.event) = none := by
    cases hlast : s'.past.getLast? with
    | none => rfl
    | some m =>
      apply report_eq_none
      by_contra hm
      obtain ⟨f, result, b, d, k, -, htask⟩ := writes_next hbreaker h (getLast?_own hlast) (by simpa using hm)
      exact absurd (hrest _ _ htask) (by simp [AtRest, suspends])
  rw [hin, hnothing]
  simp

/-! ### One executed call -/

def sampleBreaker : BreakerWorld ℤ where
  breaker := { settings := { windowSeconds := 60, failureThreshold := 1 / 2, minSamples := 5, cooldownSeconds := 30 } }
  now := 0

lemma executed_reached : ∃ (s : Loop Unit (BreakerWorld ℤ × LogState) Op Op.Answer Exc InterceptorResult) (result : _),
    Reached suspends (Bookkeeping (storingPlatform sampleSha256) samplePy) (fun _ _ => False)
      (handler sampleRuntime (sampleInterceptor true) fun _ => (sampleContext, sampleRequest))
      (sampleBreaker, sampleLog) s ∧ s.tasks () = some (.ret result) ∧ reported "a" "t" s.past = [true] := by
  obtain ⟨file, logger, record, hlog⟩ := logCall_succeeds (storingPlatform_stores sampleSha256).roundTrips samplePy
    sampleLog.logger (Or.inl rfl : FileTerminated none) sampleContext sampleRequest (fun p _ => samplePy_encodable p.2)
    (rfl : (PyVal.ofItems ({ allowed := true, reason := "ok; human-approved" } : PolicyDecision).modelDump).isNative = true)
    (rfl : (PyVal.ofItems? (some sampleResult.modelDump)).isNative = true) "r1" "2024-01-01T00:00:00+00:00"
  have hstart : Reached suspends (Bookkeeping (storingPlatform sampleSha256) samplePy) (fun _ _ => False)
      (handler sampleRuntime (sampleInterceptor true) fun _ : Unit => (sampleContext, sampleRequest))
      (sampleBreaker, sampleLog) _ := Reached.start () .init rfl fun _ _ h => by cases h
  have hchecked := Reached.resume hstart (i := ()) rfl (atRest_alone _)
    (.served rfl (.check sampleBreaker "a" "t" 0 le_rfl))
  have hevaluated := Reached.resume hchecked (i := ()) rfl (atRest_alone _) (.served rfl (.other _ (.evaluateToolCall
    sampleContext sampleRequest (sampleInterceptor true).decisionTimeoutS) (.returned sampleDecision) 0 rfl le_rfl))
  have happroved := Reached.resume hevaluated (i := ()) rfl (atRest_alone _) (.served rfl (.other _ (.approvalCallback
    sampleContext sampleRequest sampleDecision) (.ok true) 0 rfl le_rfl))
  have hclock := Reached.resume happroved (i := ()) rfl (atRest_alone _) (.served rfl (.other _ .monotonic
    (.finite ⟨['9', '.', '0'], rfl⟩) 0 rfl le_rfl))
  have hexecuted := Reached.resume hclock (i := ()) rfl (atRest_alone _) (.served rfl (.other _ (.execute sampleRequest
    sampleContext) (.ok sampleResult) 0 rfl le_rfl))
  have hrecorded := Reached.resume hexecuted (i := ()) rfl (atRest_alone _) (.served rfl (.recordResult _ "a" "t" true 0 le_rfl))
  have hlogged := Reached.resume hrecorded (i := ()) rfl (atRest_alone _) (.logged hlog)
  exact ⟨_, _, hlogged, rfl, rfl⟩

theorem ledgers_agree_executed : ∃ s : Loop Unit (BreakerWorld ℤ × LogState) Op Op.Answer Exc InterceptorResult,
    Reached suspends (Bookkeeping (storingPlatform sampleSha256) samplePy) (fun _ _ => False)
      (handler sampleRuntime (sampleInterceptor true) fun _ => (sampleContext, sampleRequest))
      (sampleBreaker, sampleLog) s ∧ reported "a" "t" s.past = [true] ∧ audited "a" "t" s.past = [true] := by
  obtain ⟨s, result, h, hdone, hreported⟩ := executed_reached
  have hrest : ∀ i p, s.tasks i = some p → AtRest suspends p := by
    rintro ⟨⟩ p hp
    obtain rfl := Option.some.inj (hdone.symm.trans hp)
    trivial
  exact ⟨s, h, hreported, ((ledgers_agree rfl h hrest).1 "a" "t").symm.trans hreported⟩

end Aimw.Interceptor
