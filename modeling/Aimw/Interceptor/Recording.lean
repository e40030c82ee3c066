import Aimw.Audit.Encoding
import Aimw.Interceptor.Concurrent
import Aimw.Policy.TornReads

/-!
# What was executed and cannot be recorded

A record is built after the sandbox has acted.  `log_call` needs a UTF-8 encoding of every text of the call, which one with
a lone surrogate does not have, and nothing asks for one before.  A call that executes leaves a record exactly if its texts
and those of the outcome have encodings, and the exit code is not too long (`executed_recorded_iff`).
-/

namespace Aimw.Interceptor

open Lib Audit Coro ToolCallInterceptor

/-! ## The decisions of the two engines -/

/-- A decision of the static engine, or of the database engine on a store that may change meanwhile. -/
inductive FromEngine (prt : Policy.Runtime) (context : ExecutionContext) (request : ToolRequest) : PolicyDecision → Prop
  | static (engine : Policy.StaticPolicyEngine) : FromEngine prt context request (engine.evaluate prt context request)
  | dbBacked {callCounter : String → ℤ} {history history' : List Policy.RuleStore}
      {tr : List ((q : Policy.Select) × q.Answer)} {d : PolicyDecision} :
      Runs (Policy.Reading prt.chars) history (Policy.evaluateQuery prt context request callCounter) tr (.ok d) history' →
      FromEngine prt context request d

variable {prt : Policy.Runtime} {context : ExecutionContext} {request : ToolRequest}

lemma static_decides (engine : Policy.StaticPolicyEngine) :
    (∃ reason, engine.evaluate prt context request = Policy.deny reason) ∨
      ∃ b, engine.evaluate prt context request = Policy.approve b := by
  rcases Policy.static_evaluate_cases prt context request engine with ⟨-, -, heval⟩ | ⟨-, reason, heval⟩
  · exact Or.inr ⟨_, heval⟩
  · exact Or.inl ⟨reason, heval⟩

/-- The database engine denies or approves, whatever it reads. -/
lemma evaluateQuery_decides (callCounter : String → ℤ) :
    (Policy.evaluateQuery prt context request callCounter).Ensures (fun _ => True)
      (fun d => (∃ reason, d = Policy.deny reason) ∨ ∃ b, d = Policy.approve b) := by
  unfold Policy.evaluateQuery
  split
  · exact Or.inl ⟨_, rfl⟩
  · refine (ensures_perform trivial).bind fun activeRoles _ => ?_
    split
    · exact Or.inl ⟨_, rfl⟩
    refine (ensures_perform trivial).bind fun toolExists _ => ?_
    split
    · exact Or.inl ⟨_, rfl⟩
    refine (ensures_perform trivial).bind fun visibilityRoles _ => ?_
    split
    · exact Or.inl ⟨_, rfl⟩
    refine (ensures_perform trivial).bind fun allowedFunctions _ => ?_
    split
    · exact Or.inl ⟨_, rfl⟩
    refine (ensures_perform trivial).bind fun denyPatterns _ => ?_
    split
    · exact Or.inl ⟨_, rfl⟩
    refine (ensures_perform trivial).bind fun roleGates _ => ?_
    split
    · exact Or.inl ⟨_, rfl⟩
    refine (ensures_await trivial).bind fun rateLimit _ => ?_
    split
    · exact Or.inl ⟨_, rfl⟩
    exact (ensures_perform trivial).bind fun requiresApproval _ => Or.inr ⟨_, rfl⟩

/-- An engine denies or approves. -/
lemma FromEngine.decides {d : PolicyDecision} (h : FromEngine prt context request d) :
    (∃ reason, d = Policy.deny reason) ∨ ∃ b, d = Policy.approve b := by
  cases h with
  | static engine => exact static_decides engine
  | dbBacked hrun => exact ((evaluateQuery_decides _).of_runs hrun).2 d rfl

/-- No engine rewrites the parameters. -/
lemma FromEngine.unmodified {d : PolicyDecision} (h : FromEngine prt context request d) : d.modifiedParameters = none := by
  obtain ⟨reason, rfl⟩ | ⟨b, rfl⟩ := h.decides
  · rfl
  · cases b <;> rfl

variable {P : Platform} {py : PyStr} {d : PolicyDecision}

/-- The requirements of an engine are ASCII. -/
lemma FromEngine.encodes_iff (h : FromEngine prt context request d) :
    DecisionEncodes py d ↔ py.encodes d.reason = true := by
  refine ⟨fun hencodes => hencodes.reason, fun hreason => ⟨hreason, ?_⟩⟩
  obtain ⟨reason, rfl⟩ | ⟨b, rfl⟩ := h.decides
  · simp [Policy.deny]
  · cases b with
    | false => simp [Policy.approve]
    | true => simpa [Policy.approve] using encodes_of_ascii (by decide)

/-! ## One call of `handle` -/

/-- The engine decides, `log_call` is the logger's own, and the others answer as they like.  While one is awaited, other
calls may write to the log.  Ids and times are ASCII, and so are the hashes of the log. -/
inductive Recording (prt : Policy.Runtime) (P : Platform) (py : PyStr) :
    LogState → (q : Op) → q.Answer → LogState → Prop
  | decided {s : LogState} {context : ExecutionContext} {request : ToolRequest} {timeout : JFloat} {d : PolicyDecision}
      (s' : LogState) : FromEngine prt context request d →
      Recording prt P py s (.evaluateToolCall context request timeout) (.returned d) s'
  | other {s : LogState} {q : Op} {a : q.Answer} (s' : LogState) : isLog q = false → isDecision ⟨q, a⟩ = false →
      Recording prt P py s q a s'
  | logged {s : LogState} {context : ExecutionContext} {request : ToolRequest} {decision : PolicyDecision}
      {sandboxResult : Option (List (String × PyVal))} {recordId timestamp : String} {file : Option String}
      {logger : HashChainedJSONLLogger} {record : AuditRecord} :
      py.encodes s.logger.prevHash = true → py.encodes recordId = true → py.encodes timestamp = true →
      s.logger.logCall P py s.file context request decision sandboxResult recordId timestamp
        = .ok (file, logger, record) →
      Recording prt P py s (.logCall context request decision sandboxResult) (.ok record) ⟨file, logger⟩
  | raised {s : LogState} {context : ExecutionContext} {request : ToolRequest} {decision : PolicyDecision}
      {sandboxResult : Option (List (String × PyVal))} {recordId timestamp : String} {e : Exc} :
      py.encodes s.logger.prevHash = true → py.encodes recordId = true → py.encodes timestamp = true →
      s.logger.logCall P py s.file context request decision sandboxResult recordId timestamp = .error e →
      Recording prt P py s (.logCall context request decision sandboxResult) (.error e) s

/-- A record was returned, and its line is the last one of the file. -/
def LeavesRecord (P : Platform) (tr : Trace) (log : LogState) : Prop :=
  ∃ record ∈ auditRecords tr, ∃ line before, P.modelDumpJson record = .ok line ∧ log.file = some (before ++ line ++ "\n")

/-- What `sandbox.execute` answered, each time it was started. -/
def sandboxAnswers (tr : Trace) : List (Except Exc SandboxResult) :=
  tr.filterMap fun
    | ⟨.execute _ _, a⟩ => some a
    | _ => none

/-- What goes into the record of the sandbox's answer can be recorded: the result, or the text of an exception. -/
def answerRecordable (py : PyStr) : Except Exc SandboxResult → Bool
  | .ok r => r.recordable py
  | .error e => !e.isException || py.encodes e.text

lemma sandboxAnswers_append {t u : Trace} : sandboxAnswers (t ++ u) = sandboxAnswers t ++ sandboxAnswers u :=
  List.filterMap_append

variable {rt : Runtime} {ic : ToolCallInterceptor} {t tr : Trace} {r : Except Exc InterceptorResult} {w w' : LogState}

lemma Resolution.no_answers {out : Except Exc PolicyDecision} (h : Resolution ic context request d t out) :
    sandboxAnswers t = [] := by
  cases h <;> rfl

lemma Outcome.no_answers {s : SandboxResult} {out : Except Exc Unit} (h : Outcome ic context request s t out) :
    sandboxAnswers t = [] := by
  cases h <;> rfl

lemma GatePath.no_answers {out : Except Exc Bool} (h : GatePath ic context request t out) : sandboxAnswers t = [] := by
  cases h <;> rfl

variable (py) in
/-- What is recorded of the sandbox's answer. -/
lemma Execution.answer {out : Except Exc SandboxResult} (h : Execution context request t out) :
    ∃ a, sandboxAnswers t = [a] ∧
      ((∀ s, out.toOption = some s → s.recordable py = true) ↔ answerRecordable py a = true) := by
  cases h with
  | returned start s => exact ⟨.ok s, rfl, by simp [Except.toOption, answerRecordable]⟩
  | @raised start now elapsed exc hexc =>
    refine ⟨.error exc, rfl, ?_⟩
    have hempty : py.encodes "" = true := rfl
    have hone : fitsStr 1 = true := by decide
    simp [Except.toOption, answerRecordable, SandboxResult.recordable, hexc, hempty, hone]
  | @interrupted start exc hexc => exact ⟨.error exc, rfl, by simp [Except.toOption, answerRecordable, hexc]⟩

variable (py) in
/-- What is executed has been approved, in words that are ASCII. -/
lemma Resolution.approved {d' : PolicyDecision} (h : Resolution ic context request d t (.ok d'))
    (hengine : (∃ reason, d = Policy.deny reason) ∨ ∃ b, d = Policy.approve b) (hd : d.allowed = true)
    (hd' : d'.allowed = true) : d'.modifiedParameters = none ∧ DecisionEncodes py d' := by
  obtain ⟨reason, rfl⟩ | ⟨b, rfl⟩ := hengine
  · cases hd
  generalize hr : (Except.ok d' : Except Exc PolicyDecision) = out at h
  cases h with
  | unsupported =>
    obtain rfl := Except.ok.inj hr
    cases hd'
  | noCallback =>
    obtain rfl := Except.ok.inj hr
    cases hd'
  | nothing hnone =>
    obtain rfl := Except.ok.inj hr
    cases b with
    | false => exact ⟨rfl, encodes_of_ascii (by decide), by simp [Policy.approve]⟩
    | true => cases hnone
  | asked a _ hne =>
    unfold approvalOutcome at hr
    split at hr
    · obtain rfl := Except.ok.inj hr
      refine ⟨rfl, ?_, by simp⟩
      cases b <;> exact encodes_of_ascii (by decide +kernel)
    · obtain rfl := Except.ok.inj hr
      cases hd'
    · split_ifs at hr
      obtain rfl := Except.ok.inj hr
      cases hd'

variable (py) in
/-- What is logged of a body that executed: an approval, and what the sandbox answered. -/
lemma BodyPath.executed_locals {v : Locals} {out : Except Exc Unit} (h : BodyPath ic context request t v out)
    (hne : executions t ≠ [])
    (hengine : ∀ d, evaluated ic context request (.returned d) ∈ t →
      (∃ reason, d = Policy.deny reason) ∨ ∃ b, d = Policy.approve b) :
    v.decision.modifiedParameters = none ∧ DecisionEncodes py v.decision ∧
      ∃ a, sandboxAnswers t = [a] ∧
        ((∀ s, v.sandboxResult = some s → s.recordable py = true) ↔ answerRecordable py a = true) := by
  cases h with
  | undecided => exact absurd rfl hne
  | denied => exact absurd rfl hne
  | unresolved _ hresolution => exact absurd hresolution.calls.2.2.1 hne
  | refused _ hresolution _ => exact absurd hresolution.calls.2.2.1 hne
  | @interrupted d d' t u e hd hresolution hd' hexecution =>
    obtain ⟨hmodified, hencodes⟩ := hresolution.approved py (hengine d List.mem_cons_self) hd hd'
    obtain ⟨a, ha, hiff⟩ := hexecution.answer py
    refine ⟨hmodified, hencodes, a, ?_, hiff⟩
    rw [← List.singleton_append, sandboxAnswers_append, sandboxAnswers_append, hresolution.no_answers, ha]
    rfl
  | @executed d d' t u v s out hd hresolution hd' hexecution houtcome =>
    obtain ⟨hmodified, hencodes⟩ := hresolution.approved py (hengine d List.mem_cons_self) hd hd'
    obtain ⟨a, ha, hiff⟩ := hexecution.answer py
    refine ⟨hmodified, hencodes, a, ?_, hiff⟩
    rw [← List.singleton_append, sandboxAnswers_append, sandboxAnswers_append, sandboxAnswers_append,
      hresolution.no_answers, ha, houtcome.no_answers]
    rfl

/-- The last step of a call that has executed. -/
lemma recording_of_executed (h : Runs (Recording prt P py) w (ic.handle rt context request) tr r w')
    (hne : executions tr ≠ []) :
    ∃ (d : PolicyDecision) (s : Option SandboxResult) (a : Except Exc AuditRecord) (w₁ : LogState),
      d.modifiedParameters = none ∧ DecisionEncodes py d ∧
        ((∀ s', s = some s' → s'.recordable py = true) ↔ ∀ b ∈ sandboxAnswers tr, answerRecordable py b = true) ∧
        auditRecords tr = a.toOption.toList ∧
        Recording prt P py w₁ (.logCall context request d (s.map SandboxResult.modelDump)) a w' := by
  have hengine : ∀ d, evaluated ic context request (.returned d) ∈ tr →
      (∃ reason, d = Policy.deny reason) ∨ ∃ b, d = Policy.approve b := by
    intro d hmem
    obtain ⟨w₁, w₂, hE⟩ := h.mem hmem
    cases hE with
    | decided _ hfrom => exact hfrom.decides
    | other _ _ hnot => cases hnot
  have htrail := h.trail
  have hpath := handle_path h
  cases hpath with
  | gateRaised hgate => exact absurd hgate.calls.2.2.1 hne
  | circuitOpen hgate _ =>
    refine absurd ?_ hne
    rw [executions_append, hgate.calls.2.2.1, (logged_calls ..).2.2.2.1]
    rfl
  | @decided g t v out a hgate hbody =>
    rw [executions_append, executions_append, hgate.calls.2.2.1, (logged_calls ..).2.2.2.1, List.nil_append,
      List.append_nil] at hne
    obtain ⟨hmodified, hencodes, b, hb, hiff⟩ := hbody.executed_locals py hne
      fun d hmem => hengine d (by simp [hmem])
    obtain ⟨w₁, -, hlast⟩ := trail_append_iff.1 htrail
    refine ⟨v.decision, v.sandboxResult, a, w₁, hmodified, hencodes, ?_, ?_, trail_singleton_iff.1 hlast⟩
    · have hanswers : sandboxAnswers (g ++ t ++ [logged context request v.decision v.sandboxResult a]) = [b] := by
        rw [sandboxAnswers_append, sandboxAnswers_append, hgate.no_answers, hb]
        rfl
      rw [hiff, hanswers, List.forall_mem_singleton]
    · rw [auditRecords, logAnswers_append, logAnswers_append, hgate.calls.2.2.2.2, hbody.silent.2]
      cases a <;> rfl

/-- **What was executed is recorded exactly if it can be.**  `log_call` does not raise exactly if the texts of the call, of
the engine's decision and of the outcome have encodings, and the exit code is not too long; and a call of `handle` that has
started the sandbox ends with its record in the file exactly if those of the call and of the sandbox's answer do. -/
theorem executed_recorded_iff (prt : Policy.Runtime) (hP : P.Writes py) (context : ExecutionContext)
    (request : ToolRequest) :
    (∀ (logger : HashChainedJSONLLogger) (file : Option String) (d : PolicyDecision) (s : Option SandboxResult)
        (recordId timestamp : String), FromEngine prt context request d → py.encodes logger.prevHash = true →
        py.encodes recordId = true → py.encodes timestamp = true →
      ((∃ out, logger.logCall P py file context request d (s.map SandboxResult.modelDump) recordId timestamp = .ok out) ↔
        CallEncodes py context request ∧ py.encodes d.reason = true ∧ ∀ r, s = some r → r.recordable py = true)) ∧
      ∀ (rt : Runtime) (ic : ToolCallInterceptor) (w w' : LogState) (tr : Trace) (r : Except Exc InterceptorResult),
        Runs (Recording prt P py) w (ic.handle rt context request) tr r w' → executions tr ≠ [] →
          (LeavesRecord P tr w' ↔
            CallEncodes py context request ∧ ∀ a ∈ sandboxAnswers tr, answerRecordable py a = true) := by
  refine ⟨fun logger file d s recordId timestamp hfrom hhead hid htime => ?_, fun rt ic w w' tr r h hne => ?_⟩
  · rw [logCall_ok_iff hP hfrom.unmodified hhead hid htime, hfrom.encodes_iff]
  · obtain ⟨d, s, a, w₁, hd, hencodes, hanswers, hrecords, hlast⟩ := recording_of_executed h hne
    rw [← hanswers]
    cases hlast with
    | other _ hnot _ => cases hnot
    | @logged _ _ _ _ recordId timestamp file logger record hhead hid htime hcall =>
      obtain ⟨hcontext, -, houtcome⟩ := (logCall_ok_iff hP hd hhead hid htime).1 ⟨_, hcall⟩
      refine iff_of_true ?_ ⟨hcontext, houtcome⟩
      obtain ⟨built, -, happ⟩ := logCall_ok hcall
      obtain ⟨digest, line, -, -, hline, hfile, -⟩ := append_ok happ
      exact ⟨record, by simp [hrecords, Except.toOption], line, _, hline, hfile⟩
    | raised hhead hid htime hcall =>
      refine iff_of_false ?_ fun hencoded => ?_
      · rintro ⟨record, hmem, -⟩
        rw [hrecords] at hmem
        cases hmem
      · obtain ⟨out, hout⟩ := (logCall_ok_iff hP hd hhead hid htime).2 ⟨hencoded.1, hencodes, hencoded.2⟩
        cases hcall.symm.trans hout

/-! ### A lone surrogate -/

/-- The platform that writes what has an encoding, with `sha` for SHA-256. -/
def writingPlatform (sha : Sha256) (py : PyStr) : Platform where
  sha256 := sha
  modelDumpJson r :=
    if r.encodes py then (storingPlatform sha).modelDumpJson r else .error (.exception "surrogates not allowed")
  modelValidateJson := (storingPlatform sha).modelValidateJson

lemma writingPlatform_writes {sha : Sha256} (h : ∀ b, py.encodes (sha.hexdigest b) = true) :
    (writingPlatform sha py).Writes py where
  digests := h
  records r hr := by
    obtain ⟨line, hline, -⟩ := storingPlatform_stores sha r hr
    by_cases hencodes : r.encodes py = true
    · exact iff_of_true ⟨line, (if_pos hencodes).trans hline⟩ hencodes
    · refine iff_of_false ?_ hencodes
      rintro ⟨line', hline'⟩
      cases (if_neg hencodes).symm.trans hline'

/-- U+E000 stands for U+D800, as `json.loads` makes it of an escape. -/
def surrogatePy : PyStr where
  str := samplePy.str
  surrogate c := c == '\uE000'
  surrogate_ascii c hc := by
    rw [beq_eq_false_iff_ne]
    rintro rfl
    exact absurd hc (by decide)

lemma sampleSha256_encodes (b : ByteArray) : py.encodes (sampleSha256.hexdigest b) = true := by
  simp only [sampleSha256]
  split_ifs <;> exact encodes_of_ascii (by decide)

lemma writes_sample : (writingPlatform sampleSha256 surrogatePy).Writes surrogatePy :=
  writingPlatform_writes sampleSha256_encodes

/-- A search for a value. -/
def searchFor (value : PyVal) : ToolRequest where
  toolName := "search_tool"
  functionName := "query"
  parameters := ⟨[("q", value)], by simp⟩
  callId := "c1"

def searcher : Policy.StaticPolicyEngine := ⟨Policy.exampleRuleset, fun _ => 0⟩

/-- The search is allowed and executed; `a` is the answer of `log_call`. -/
def searchTrace (value : PyVal) (a : Except Exc AuditRecord) : Trace :=
  [⟨.evaluateToolCall Policy.executor (searchFor value) (sampleInterceptor false).decisionTimeoutS,
      .returned (Policy.approve false)⟩,
    ⟨.monotonic, .finite ⟨['8', '.', '0'], rfl⟩⟩,
    ⟨.execute (searchFor value) Policy.executor, .ok sampleResult⟩,
    logged Policy.executor (searchFor value) (Policy.approve false) (some sampleResult) a]

lemma search_run {P : Platform} (value : PyVal) {a : Except Exc AuditRecord} {log : LogState}
    (hdecision : searcher.evaluate Policy.plainRuntime Policy.executor (searchFor value) = Policy.approve false)
    (hlog : Recording Policy.plainRuntime P surrogatePy sampleLog (.logCall Policy.executor (searchFor value)
      (Policy.approve false) (some sampleResult.modelDump)) a log) : ∃ r,
    Runs (Recording Policy.plainRuntime P surrogatePy) sampleLog
      ((sampleInterceptor false).handle sampleRuntime Policy.executor (searchFor value)) (searchTrace value a) r log := by
  have hallowed : FromEngine Policy.plainRuntime Policy.executor (searchFor value) (Policy.approve false) :=
    hdecision ▸ .static searcher
  unfold searchTrace
  cases a with
  | ok record =>
    exact ⟨_, .call (.decided sampleLog hallowed) <| .call (.other sampleLog rfl rfl) <| .call (.other sampleLog rfl rfl) <|
      .call hlog <| .ret _ _⟩
  | error e =>
    exact ⟨_, .call (.decided sampleLog hallowed) <| .call (.other sampleLog rfl rfl) <| .call (.other sampleLog rfl rfl) <|
      .call hlog <| .raise _ _⟩

theorem executed_recorded_iff_search : ∃ tr r log,
    Runs (Recording Policy.plainRuntime (writingPlatform sampleSha256 surrogatePy) surrogatePy) sampleLog
      ((sampleInterceptor false).handle sampleRuntime Policy.executor (searchFor (.str "cats"))) tr r log ∧
      executions tr ≠ [] ∧ LeavesRecord (writingPlatform sampleSha256 surrogatePy) tr log := by
  have hrequest : CallEncodes surrogatePy Policy.executor (searchFor (.str "cats")) :=
    ⟨by decide +kernel, by decide +kernel, by simpa [searchFor] using ⟨by decide +kernel, by decide +kernel⟩⟩
  have hresult : sampleResult.recordable surrogatePy = true := by decide +kernel
  have hdecision : searcher.evaluate Policy.plainRuntime Policy.executor (searchFor (.str "cats")) = Policy.approve false :=
    rfl
  have hengine : FromEngine Policy.plainRuntime Policy.executor (searchFor (.str "cats")) (Policy.approve false) :=
    hdecision ▸ .static searcher
  have hok : ∃ out, sampleLog.logger.logCall (writingPlatform sampleSha256 surrogatePy) surrogatePy sampleLog.file
      Policy.executor (searchFor (.str "cats")) (Policy.approve false) ((some sampleResult).map SandboxResult.modelDump)
      "r1" "2024-01-01T00:00:00Z" = .ok out := by
    refine (logCall_ok_iff writes_sample rfl ?_ ?_ ?_).2 ⟨hrequest, hengine.encodes_iff.2 ?_, ?_⟩
    · decide +kernel
    · decide +kernel
    · decide +kernel
    · decide +kernel
    · rintro r ⟨⟩
      exact hresult
  obtain ⟨⟨file, logger, record⟩, hcall⟩ := hok
  obtain ⟨r, hrun⟩ := search_run (.str "cats") rfl
    (.logged (by decide +kernel) (by decide +kernel) (by decide +kernel) hcall)
  have hexecuted : executions (searchTrace (.str "cats") (.ok record)) ≠ [] := by simp [searchTrace, executions]
  refine ⟨_, r, _, hrun, hexecuted, ?_⟩
  refine ((executed_recorded_iff Policy.plainRuntime writes_sample _ _).2 _ _ _ _ _ _ hrun hexecuted).2 ⟨hrequest, ?_⟩
  simpa [sandboxAnswers, searchTrace, answerRecordable] using hresult

/-- The search for a lone surrogate is executed, `log_call` raises, and nothing is written. -/
theorem surrogate_unaudited : ∃ e r,
    Runs (Recording Policy.plainRuntime (writingPlatform sampleSha256 surrogatePy) surrogatePy) sampleLog
      ((sampleInterceptor false).handle sampleRuntime Policy.executor (searchFor (.str "\uE000")))
      (searchTrace (.str "\uE000") (.error e)) r sampleLog ∧
      executions (searchTrace (.str "\uE000") (.error e)) = [(searchFor (.str "\uE000"), Policy.executor)] ∧
      auditRecords (searchTrace (.str "\uE000") (.error e)) = [] ∧ sampleLog.file = none := by
  have hrequest : ¬ CallEncodes surrogatePy Policy.executor (searchFor (.str "\uE000")) := by
    intro hencodes
    have hvalue := (hencodes.parameters ("q", .str "\uE000") (by simp [searchFor])).2
    exact absurd hvalue (by decide +kernel)
  cases hcall : sampleLog.logger.logCall (writingPlatform sampleSha256 surrogatePy) surrogatePy sampleLog.file
      Policy.executor (searchFor (.str "\uE000")) (Policy.approve false) ((some sampleResult).map SandboxResult.modelDump)
      "r1" "2024-01-01T00:00:00Z" with
  | ok out =>
    refine absurd ((logCall_ok_iff writes_sample rfl ?_ ?_ ?_).1 ⟨out, hcall⟩).1 hrequest <;> decide +kernel
  | error e =>
    obtain ⟨r, hrun⟩ := search_run (.str "\uE000") rfl
      (.raised (by decide +kernel) (by decide +kernel) (by decide +kernel) hcall)
    exact ⟨e, r, hrun, rfl, rfl, rfl⟩

end Aimw.Interceptor
