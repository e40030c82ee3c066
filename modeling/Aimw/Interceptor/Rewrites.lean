import Aimw.Interceptor.Authorization

/-!
# Rewritten parameters

A policy engine can hand other parameters back with its decision.  What becomes of them in `handle`:

* `BodyPath.rewritten` — the request that is executed is the one that came in, and an approval puts a new decision in
  the place of the engine's;
* `rewrite_honored_iff` — when a rewrite is honored all the same.
-/

namespace Aimw.Interceptor

open Lib Audit Coro ToolCallInterceptor

variable {rt : Runtime} {ic : ToolCallInterceptor} {context : ExecutionContext} {request : ToolRequest}
  {d : PolicyDecision} {t : Trace}

/-- The parameters of the request are `p`, in whatever order. -/
def HasParameters (request : ToolRequest) (p : Dict PyVal) : Prop := ∀ name, request.parameters.get? name = p.get? name

/-- The rewrite `p` is not ignored: the call is denied or executed with `p`, it is executed with nothing else, and the
decision in the audit record has `p`. -/
structure RewriteHonored (tr : Trace) (r : Except Exc InterceptorResult) (p : Dict PyVal) : Prop where
  denied_or_executed : (∀ result, r = .ok result → result.allowed = false) ∨ ∃ call ∈ executions tr, HasParameters call.1 p
  nothing_else : ∀ call ∈ executions tr, HasParameters call.1 p
  recorded : ∀ record ∈ auditRecords tr, record.decision.lookup "modified_parameters" = some (.ofItems p.items)

variable (context request d) in
/-- Nothing was required, or a human approved the call. -/
def Granted (tr : Trace) : Prop := d.actionRequirements = [] ∨ (context, request, d, .ok true) ∈ approvals tr

variable (context request d) in
/-- The wait for the approval was cut short. -/
def Interrupted (tr : Trace) : Prop :=
  ∃ e, (context, request, d, .error e) ∈ approvals tr ∧ e.isException = false

/-! ## Resolutions -/

lemma ne_nil_of_not_supported (h : ¬ Supported d) : d.actionRequirements ≠ [] := by
  intro hnil
  exact h (by simp [Supported, hnil])

/-- An approval, and every denial, forgets the rewrite. -/
lemma Resolution.forgets {d' : PolicyDecision} (h : Resolution ic context request d t (.ok d')) :
    (d.actionRequirements = [] ∧ d' = d) ∨ (d.actionRequirements ≠ [] ∧ d'.modifiedParameters = none) := by
  generalize hr : (Except.ok d' : Except Exc PolicyDecision) = r at h
  cases h with
  | unsupported _ hns =>
    obtain rfl := Except.ok.inj hr
    exact Or.inr ⟨ne_nil_of_not_supported hns, rfl⟩
  | noCallback _ _ hne =>
    obtain rfl := Except.ok.inj hr
    exact Or.inr ⟨hne, rfl⟩
  | asked a _ hne _ =>
    refine Or.inr ⟨hne, ?_⟩
    rcases a with e | _ | _
    · simp only [approvalOutcome] at hr
      split_ifs at hr
      obtain rfl := Except.ok.inj hr
      rfl
    · obtain rfl := Except.ok.inj hr
      rfl
    · obtain rfl := Except.ok.inj hr
      rfl
  | nothing hnil => exact Or.inl ⟨hnil, Except.ok.inj hr⟩

lemma Resolution.allowed_iff {d' : PolicyDecision} (hd : d.allowed = true)
    (h : Resolution ic context request d t (.ok d')) : d'.allowed = true ↔ Granted context request d t := by
  constructor
  · intro hd'
    obtain ⟨-, happroved⟩ := h.granted hd'
    by_cases hnil : d.actionRequirements = []
    · exact Or.inl hnil
    · exact Or.inr (happroved hnil).2
  · intro hgranted
    generalize hr : (Except.ok d' : Except Exc PolicyDecision) = r at h
    cases h with
    | unsupported _ hns =>
      rcases hgranted with hnil | hmem
      · exact absurd hnil (ne_nil_of_not_supported hns)
      · exact absurd hmem List.not_mem_nil
    | noCallback _ _ hne =>
      rcases hgranted with hnil | hmem
      · exact absurd hnil hne
      · exact absurd hmem List.not_mem_nil
    | asked a _ hne _ =>
      rcases hgranted with hnil | hmem
      · exact absurd hnil hne
      · obtain rfl : .ok true = a := by simpa [approvals] using hmem
        rw [Except.ok.inj hr]
    | nothing =>
      rw [Except.ok.inj hr]
      exact hd

lemma Resolution.interrupted {e : Exc} (h : Resolution ic context request d t (.error e)) :
    d.actionRequirements ≠ [] ∧ approvals t = [(context, request, d, .error e)] ∧ e.isException = false := by
  obtain ⟨he, d₁, hmem⟩ := (h.error_iff e).1 rfl
  generalize hr : (Except.error e : Except Exc PolicyDecision) = r at h
  cases h with
  | unsupported => cases hr
  | noCallback => cases hr
  | asked a _ hne _ =>
    obtain ⟨-, rfl⟩ : d₁ = d ∧ .error e = a := by simpa [approvals] using hmem
    exact ⟨hne, rfl, he⟩
  | nothing => cases hr

/-- The decision that is left is the engine's, unless it is one that forgot the rewrite. -/
lemma Resolution.left {d' : PolicyDecision} (h : Resolution ic context request d t (.ok d')) :
    ((d.actionRequirements = [] ∨ Interrupted context request d t) ∧ d' = d) ∨
      (¬ (d.actionRequirements = [] ∨ Interrupted context request d t) ∧ d'.modifiedParameters = none) := by
  have hwhole : ¬ Interrupted context request d t := by
    rintro ⟨e, hmem, he⟩
    exact absurd ((h.uninterrupted d e hmem).symm.trans he) (by simp)
  rcases h.forgets with ⟨hnil, heq⟩ | ⟨hne, hnone⟩
  · exact Or.inl ⟨Or.inl hnil, heq⟩
  · exact Or.inr ⟨not_or.2 ⟨hne, hwhole⟩, hnone⟩

/-! ## The body -/

section Approvals

variable {u : Trace}

lemma granted_congr (h : approvals t = approvals u) :
    Granted context request d t ↔ Granted context request d u := by
  rw [Granted, Granted, h]

lemma interrupted_congr (h : approvals t = approvals u) :
    Interrupted context request d t ↔ Interrupted context request d u := by
  rw [Interrupted, Interrupted, h]

end Approvals

variable {v : Locals} {out : Except Exc Unit}

/-- What becomes of a decision that allows the call: whether the request is executed, and what is left to be logged. -/
theorem BodyPath.rewritten (h : BodyPath ic context request t v out)
    (hmem : (context, request, .returned d) ∈ engineAnswers t) (hd : d.allowed = true) :
    ((Granted context request d t ∧ executions t = [(request, context)]) ∨
        (¬ Granted context request d t ∧ executions t = [] ∧ (v.decision.allowed = false ∨ ∃ e, out = .error e))) ∧
      (((d.actionRequirements = [] ∨ Interrupted context request d t) ∧ v.decision = d) ∨
        (¬ (d.actionRequirements = [] ∨ Interrupted context request d t) ∧ v.decision.modifiedParameters = none)) := by
  cases h with
  | @undecided a e ha =>
    obtain ⟨rfl⟩ : a = .returned d := by simpa [engineAnswers, eq_comm] using hmem
    cases ha
  | @denied a d₀ ha hd₀ =>
    obtain ⟨rfl⟩ : a = .returned d := by simpa [engineAnswers, eq_comm] using hmem
    obtain rfl := Except.ok.inj ha
    exact absurd (hd.symm.trans hd₀) (by simp)
  | @unresolved d₀ t e _ hresolution =>
    obtain rfl : d = d₀ := by simpa [evaluated_calls, hresolution.calls] using hmem
    obtain ⟨hne, happrovals, he⟩ := hresolution.interrupted
    have hcalls : approvals (evaluated ic context request (.returned d) :: t) = [(context, request, d, .error e)] :=
      happrovals
    refine ⟨Or.inr ⟨?_, hresolution.calls.2.2.1, Or.inr ⟨e, rfl⟩⟩, Or.inl ⟨Or.inr ⟨e, ?_, he⟩, rfl⟩⟩
    · rintro (hnil | hgranted)
      · exact hne hnil
      · simp [hcalls] at hgranted
    · rw [hcalls]
      exact List.mem_singleton_self _
  | @refused d₀ d' t _ hresolution hd' =>
    obtain rfl : d = d₀ := by simpa [evaluated_calls, hresolution.calls] using hmem
    refine ⟨Or.inr ⟨fun hgranted => ?_, hresolution.calls.2.2.1, Or.inl hd'⟩, hresolution.left⟩
    exact absurd (hd'.symm.trans ((hresolution.allowed_iff hd).2 hgranted)) (by simp)
  | @interrupted d₀ d' t u e _ hresolution hd' hexecution =>
    obtain rfl : d = d₀ := by simpa [evaluated_calls, hresolution.calls, hexecution.calls] using hmem
    have hcalls : approvals (evaluated ic context request (.returned d) :: (t ++ u)) = approvals t := by
      simp [evaluated_calls, hexecution.calls]
    rw [granted_congr hcalls, interrupted_congr hcalls]
    refine ⟨Or.inl ⟨(hresolution.allowed_iff hd).1 hd', ?_⟩, hresolution.left⟩
    simp [evaluated_calls, hresolution.calls, hexecution.calls]
  | @executed d₀ d' t u v s out _ hresolution hd' hexecution houtcome =>
    obtain rfl : d = d₀ := by simpa [evaluated_calls, hresolution.calls, hexecution.calls, houtcome.calls] using hmem
    have hcalls : approvals (evaluated ic context request (.returned d) :: (t ++ (u ++ v))) = approvals t := by
      simp [evaluated_calls, hexecution.calls, houtcome.calls]
    rw [granted_congr hcalls, interrupted_congr hcalls]
    refine ⟨Or.inl ⟨(hresolution.allowed_iff hd).1 hd', ?_⟩, hresolution.left⟩
    simp [evaluated_calls, hresolution.calls, hexecution.calls, houtcome.calls]

/-! ## The method -/

section Handle

variable {P : Platform} {py : PyStr} {interference : LogState → LogState → Prop} {w w' : LogState} {tr : Trace}
  {r : Except Exc InterceptorResult} {p : Dict PyVal}

lemma modelDump_modifiedParameters (d : PolicyDecision) :
    d.modelDump.lookup "modified_parameters" = some (.ofItems? (d.modifiedParameters.map Dict.items)) := rfl

/-- The record has the decision that was logged. -/
lemma decision_of_logged (h : Runs (Environment P py interference) w (ic.handle rt context request) tr r w')
    {d : PolicyDecision} {s : Option SandboxResult} {record : AuditRecord}
    (hmem : logged context request d s (.ok record) ∈ tr) : record.decision = d.modelDump := by
  obtain ⟨w₁, w₂, hE⟩ := h.mem hmem
  cases hE with
  | awaited _ hq => cases hq
  | logged hlog => exact (logCall_record hlog).2.1

/-- What `handle` returns after the body carries the decision that was logged, and is nothing if the body raised. -/
lemma denied_of_wrapped {v : Locals} {out : Except Exc Unit} {a : Except Exc AuditRecord} {result : InterceptorResult}
    (h : ((wrapped v.decision v.sandboxResult a).bind fun r => out.map fun _ => r) = .ok result)
    (hdenied : v.decision.allowed = false ∨ ∃ e, out = .error e) : result.allowed = false := by
  rcases a with e | record
  · cases h
  rcases out with e | _
  · cases h
  · obtain rfl := Except.ok.inj h
    rcases hdenied with hfalse | ⟨e, he⟩
    · exact hfalse
    · cases he

/-- A decision that was logged is recorded with its rewrite, or without. -/
lemma lookup_of_logged (h : Runs (Environment P py interference) w (ic.handle rt context request) tr r w')
    {d' : PolicyDecision} {s : Option SandboxResult} {record : AuditRecord}
    (hmem : logged context request d' s (.ok record) ∈ tr) :
    record.decision.lookup "modified_parameters" = some (.ofItems p.items) ↔
      d'.modifiedParameters.map Dict.items = some p.items := by
  rw [decision_of_logged h hmem, modelDump_modifiedParameters, Option.some.injEq]
  cases d'.modifiedParameters with
  | none => exact iff_of_false (by simp [PyVal.ofItems?, PyVal.ofItems]) (by simp)
  | some p' =>
    simp only [Option.map_some, PyVal.ofItems?, PyVal.ofItems, PyVal.dict.injEq, Option.some.injEq]
    constructor
    · intro hitems
      refine List.map_injective_iff.2 ?_ hitems
      intro a b hab
      obtain ⟨hkey, hvalue⟩ := Prod.mk.inj hab
      exact Prod.ext (PyKey.str.inj hkey) hvalue
    · intro hitems
      rw [hitems]

/-- **When a rewrite is honored**: if the call is granted, then with the parameters that it came with; and a record that
is written has the rewrite if nothing was required or the wait for the approval was cut short. -/
theorem rewrite_honored_iff (h : Runs (Environment P py interference) w (ic.handle rt context request) tr r w')
    (hmem : (context, request, .returned d) ∈ engineAnswers tr) (hd : d.allowed = true)
    (hp : d.modifiedParameters = some p) :
    RewriteHonored tr r p ↔ (Granted context request d tr → HasParameters request p) ∧
      (auditRecords tr = [] ∨ d.actionRequirements = [] ∨ Interrupted context request d tr) := by
  cases handle_path h with
  | gateRaised hg => simp [hg.calls] at hmem
  | circuitOpen hg => simp [hg.calls, logged_calls] at hmem
  | @decided g t v out a hg hbody =>
    set tr := g ++ t ++ [logged context request v.decision v.sandboxResult a] with htr
    have hmem : (context, request, .returned d) ∈ engineAnswers t := by
      simpa [htr, hg.calls, logged_calls] using hmem
    have happrovals : approvals tr = approvals t := by simp [htr, hg.calls, logged_calls]
    have hexecutions : executions tr = executions t := by simp [htr, hg.calls, logged_calls]
    have hlogAnswers : logAnswers tr = [a] := by
      rw [htr, logAnswers_append, logAnswers_append, hg.calls.2.2.2.2, hbody.silent.2]
      rfl
    obtain ⟨hexecuted, hleft⟩ := hbody.rewritten hmem hd
    rw [← granted_congr happrovals, ← hexecutions] at hexecuted
    rw [← interrupted_congr happrovals] at hleft
    -- what is recorded
    have hrecorded : (∀ record ∈ auditRecords tr,
        record.decision.lookup "modified_parameters" = some (.ofItems p.items)) ↔
          auditRecords tr = [] ∨ d.actionRequirements = [] ∨ Interrupted context request d tr := by
      rcases a with e | record
      · have hnone : auditRecords tr = [] := by rw [auditRecords, hlogAnswers]; rfl
        simp [hnone]
      · have hone : auditRecords tr = [record] := by rw [auditRecords, hlogAnswers]; rfl
        have hlookup := lookup_of_logged (p := p) h (List.mem_append_right _ (List.mem_singleton_self _))
        simp only [hone, List.mem_singleton, forall_eq, hlookup, List.cons_ne_nil, false_or]
        rcases hleft with ⟨hkept, heq⟩ | ⟨hforgot, hnone⟩
        · rw [heq, hp]
          exact iff_of_true rfl hkept
        · rw [hnone]
          exact iff_of_false (by simp) hforgot
    rw [← hrecorded]
    constructor
    · rintro ⟨-, hnothing, hrecord⟩
      refine ⟨fun hgranted => ?_, hrecord⟩
      rcases hexecuted with ⟨-, hexec⟩ | ⟨hnot, -⟩
      · exact hnothing (request, context) (by rw [hexec]; exact List.mem_singleton_self _)
      · exact absurd hgranted hnot
    · rintro ⟨hparams, hrecord⟩
      rcases hexecuted with ⟨hgranted, hexec⟩ | ⟨-, hexec, hdenied⟩
      · have hcall : ∀ call ∈ executions tr, HasParameters call.1 p := by
          intro call hcall
          rw [hexec] at hcall
          obtain rfl := List.mem_singleton.1 hcall
          exact hparams hgranted
        exact ⟨Or.inr ⟨(request, context), by simp [hexec], hparams hgranted⟩, hcall, hrecord⟩
      · refine ⟨Or.inl fun result hresult => denied_of_wrapped hresult hdenied, ?_, hrecord⟩
        intro call hcall
        rw [hexec] at hcall
        exact absurd hcall List.not_mem_nil

/-- An engine that sets a limit, which the request does not have. -/
def limited : Dict PyVal := ⟨[("limit", .int 10)], by decide⟩

/-- The sample decision with other parameters. -/
def rewritingDecision (p : Dict PyVal) (actionRequirements : List String) : PolicyDecision where
  allowed := true
  reason := "ok"
  modifiedParameters := some p
  actionRequirements

/-- The engine hands back the parameters that the request has. -/
def readOnly : Dict PyVal := ⟨[("scope", .str "read")], by decide⟩

def readOnlyRequest : ToolRequest := { sampleRequest with parameters := readOnly }

/-- The digests of the parameter's value, and of the record. -/
def readOnlySha256 : Sha256 where
  hexdigest b :=
    if b.data = "read".toUTF8.data then "3316348dbadfb7b11c7c2ea235949419e23f9fa898ad2c198f999617912a9925"
    else "a47a122040a609210e0c2b19d888a10a09b8154546fb5acde0f6be892a6fd9d6"
  length_hexdigest b := by split <;> rfl

/-- The call is executed without an approval. -/
def leftAloneTrace (record : AuditRecord) : Trace :=
  [⟨.evaluateToolCall sampleContext readOnlyRequest (sampleInterceptor false).decisionTimeoutS,
      .returned (rewritingDecision readOnly [])⟩,
    ⟨.monotonic, .finite ⟨['9', '.', '5'], rfl⟩⟩,
    ⟨.execute readOnlyRequest sampleContext, .ok sampleResult⟩,
    logged sampleContext readOnlyRequest (rewritingDecision readOnly []) (some sampleResult) (.ok record)]

lemma leftAlone_run : ∃ record r log,
    Runs (Environment (codecPlatform readOnlySha256) samplePy Eq) sampleLog
      ((sampleInterceptor false).handle sampleRuntime sampleContext readOnlyRequest) (leftAloneTrace record) r log := by
  obtain ⟨file, logger, record, hlog⟩ := logCall_succeeds (codecPlatform_roundTrips readOnlySha256) samplePy sampleLog.logger
    (Or.inl rfl : FileTerminated none) sampleContext readOnlyRequest (fun p _ => samplePy_encodable p.2)
    (show (PyVal.ofItems (rewritingDecision readOnly []).modelDump).isNative = true from rfl)
    (show (PyVal.ofItems? (some sampleResult.modelDump)).isNative = true from rfl) "r1" "2024-01-01T00:00:00+00:00"
  refine ⟨record, .ok ⟨true, rewritingDecision readOnly [], some sampleResult, record⟩, ⟨file, logger⟩, ?_⟩
  unfold leftAloneTrace
  exact .call (.awaited _ rfl rfl) <| .call (.monotonic _ _) <| .call (.awaited _ rfl rfl) <|
    .call (.logged hlog) (.ret _ _)

theorem rewrite_honored_iff_leftAlone : ∃ record r, RewriteHonored (leftAloneTrace record) r readOnly := by
  obtain ⟨record, r, log, hrun⟩ := leftAlone_run
  refine ⟨record, r, (rewrite_honored_iff hrun (d := rewritingDecision readOnly []) (p := readOnly) ?_ rfl rfl).2 ?_⟩
  · exact List.mem_singleton_self _
  · exact ⟨fun _ _ => rfl, Or.inr (Or.inl rfl)⟩

/-- The engine sets a limit and requires an approval, which is granted. -/
def limitedTrace (record : AuditRecord) : Trace :=
  [⟨.check "a" "t", .ok true⟩,
    ⟨.evaluateToolCall sampleContext sampleRequest (sampleInterceptor true).decisionTimeoutS,
      .returned (rewritingDecision limited ["human_approval"])⟩,
    ⟨.approvalCallback sampleContext sampleRequest (rewritingDecision limited ["human_approval"]), .ok true⟩,
    ⟨.monotonic, .finite ⟨['9', '.', '5'], rfl⟩⟩,
    ⟨.execute sampleRequest sampleContext, .ok sampleResult⟩,
    ⟨.recordResult "a" "t" true, .ok ()⟩,
    logged sampleContext sampleRequest { allowed := true, reason := "ok; human-approved" } (some sampleResult) (.ok record)]

/-- The request is executed without the limit, and the record does not know of it. -/
theorem limit_is_ignored : ∃ record r log,
    Runs (Environment (samplePlatform executedDigest executedDigest_length) samplePy Eq) sampleLog
        ((sampleInterceptor true).handle sampleRuntime sampleContext sampleRequest) (limitedTrace record) r log ∧
      executions (limitedTrace record) = [(sampleRequest, sampleContext)] ∧ ¬ HasParameters sampleRequest limited ∧
      record.decision.lookup "modified_parameters" = some .none ∧ ¬ RewriteHonored (limitedTrace record) r limited := by
  obtain ⟨record, log, hlog⟩ := sample_logged executedDigest executedDigest_length
    (d := { allowed := true, reason := "ok; human-approved" }) (s := some sampleResult) rfl rfl
  have hrun : Runs (Environment (samplePlatform executedDigest executedDigest_length) samplePy Eq) sampleLog
      ((sampleInterceptor true).handle sampleRuntime sampleContext sampleRequest) (limitedTrace record)
      (.ok ⟨true, { allowed := true, reason := "ok; human-approved" }, some sampleResult, record⟩) log := by
    unfold limitedTrace
    exact .call (.awaited _ rfl rfl) <| .call (.awaited _ rfl rfl) <| .call (.awaited _ rfl rfl) <|
      .call (.monotonic _ _) <| .call (.awaited _ rfl rfl) <| .call (.awaited _ rfl rfl) <| .call hlog (.ret _ _)
  have hparams : ¬ HasParameters sampleRequest limited := by
    intro h
    have hlimit : none = some (PyVal.int 10) := h "limit"
    cases hlimit
  have hlogged : logged sampleContext sampleRequest { allowed := true, reason := "ok; human-approved" }
      (some sampleResult) (.ok record) ∈ limitedTrace record := by
    simp [limitedTrace]
  refine ⟨record, _, log, hrun, rfl, hparams, ?_, fun hhonored => ?_⟩
  · rw [decision_of_logged hrun hlogged]
    rfl
  · exact hparams (hhonored.nothing_else (sampleRequest, sampleContext) (List.mem_singleton_self _))

end Handle

end Aimw.Interceptor
