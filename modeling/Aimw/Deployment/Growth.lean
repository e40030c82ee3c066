import Aimw.Deployment.Gates
import Aimw.Identity.SessionToken
import Aimw.Interceptor.Staleness
import Aimw.Policy.Revocation

/-!
# A deployment with live rules

`examples/run_demo_l2.py`: pipelines that share a `SessionTokenIssuer`, an `InMemoryCircuitBreakerBackend` and a
`DbBackedPolicyEngine`, while tokens are issued, clocks move and administrators commit rules.

* `growth_gate` — what runs had a token that was issued and had not expired, a closed circuit and rules that allowed it;
* `revocation_holds` — what a table has blocked since some commit runs only if it was decided on before.
-/

namespace Aimw

open Lib Audit Coro Interceptor Reliability

/-! ## Tokens -/

section Tokens

variable {irt : Identity.Runtime} {issuer : Identity.SessionTokenIssuer} {issued : Identity.Issued}
  {context : ExecutionContext} {credential : String} {now : ℚ}

variable (irt issuer issued context credential now) in
/-- The credential bears the signature of a token that was issued, that has not expired, and whose ids, with a colon
between them, are those of the context. -/
def Admits : Prop :=
  ∃ sessionId agentId expiry x, Identity.IssuedFor irt issuer issued sessionId agentId expiry ∧
    Identity.formatInt expiry = .ok x ∧
    Identity.presentedSignature credential =
      some (irt.hmac.hexdigest issuer.secret (Identity.signedText sessionId agentId x).toUTF8) ∧
    sessionId ++ ":" ++ agentId = context.sessionId ++ ":" ++ context.agentId ∧ now ≤ expiry

lemma admits_of_verify (hunforged : Identity.Unforged irt issuer issued credential)
    (h : issuer.verify irt credential context now = .ok true) : Admits irt issuer issued context credential now := by
  obtain ⟨expiryStr, expiry, x, -, hnow, hx, hsplit⟩ := Identity.verify_eq_true_iff.1 h
  have hpresented := Identity.presentedSignature_of_split hsplit
  obtain ⟨sessionId, agentId, expiry', y, hissued, hy, hmessage⟩ := hunforged _ hpresented
  obtain ⟨hids, rfl⟩ := Identity.signedText_inj hx hy (String.toByteArray_inj.1 hmessage)
  rw [hmessage] at hpresented
  exact ⟨sessionId, agentId, expiry, y, hissued, hy, hpresented, hids.symm, hnow⟩

end Tokens

/-! ## The deployment -/

/-- The breaker, the rules and the session counts; the time of `time.time`, and the tokens issued so far. -/
structure GrowthWorld where
  gate : GateWorld ℚ
  clock : ℚ
  issued : Identity.Issued

section Answers

variable (S : BaseSandbox) (irt : Identity.Runtime) (prt : Policy.Runtime) (issuer : Identity.SessionTokenIssuer)

/-- The calls that the issuer, the breaker and the engine answer. -/
def answeredByGrowth {S : BaseSandbox} : SystemOp S → Bool
  | .pipeline (.verify _ _) => true
  | .governed (.collaborator _) => true
  | _ => false

inductive GrowthAnswers : GrowthWorld → (q : SystemOp S) → q.Answer → GrowthWorld → Prop
  | verified (w : GrowthWorld) (credential : String) (context : ExecutionContext) :
      GrowthAnswers w (.pipeline (.verify credential context)) (issuer.verify irt credential context w.clock) w
  | gated (w : GrowthWorld) {q : Op} {a : q.Answer} {gate : GateWorld ℚ} : Gated prt w.gate q a gate →
      GrowthAnswers w (.governed (.collaborator q)) a { w with gate }
  | other (w : GrowthWorld) {q : SystemOp S} (a : q.Answer) : answeredByGrowth q = false → GrowthAnswers w q a w

/-- While no call goes on, time passes, rules are committed, sessions are counted and tokens are issued.  The time of
`time.time` can be set back. -/
inductive GrowthMeanwhile : GrowthWorld → GrowthWorld → Prop
  | passed (w : GrowthWorld) {gate : GateWorld ℚ} : Meanwhile w.gate gate → GrowthMeanwhile w { w with gate }
  | ticked (w : GrowthWorld) (clock : ℚ) : GrowthMeanwhile w { w with clock }
  | issued (w : GrowthWorld) (context : ExecutionContext) :
      GrowthMeanwhile w { w with issued := (context, w.clock) :: w.issued }

variable {S irt prt issuer} {w w' : GrowthWorld}

lemma GrowthAnswers.verification {credential : String} {context : ExecutionContext} {a : Except Exc Bool}
    (h : GrowthAnswers S irt prt issuer w (.pipeline (.verify credential context)) a w') :
    a = issuer.verify irt credential context w.clock := by
  cases h with
  | verified => rfl
  | other _ hanswered => cases hanswered

lemma GrowthAnswers.gate {q : Op} {a : q.Answer}
    (h : GrowthAnswers S irt prt issuer w (.governed (.collaborator q)) a w') : Gated prt w.gate q a w'.gate := by
  cases h with
  | gated hgated => exact hgated
  | other _ hanswered => cases hanswered

/-- Commits are not taken back. -/
lemma GrowthAnswers.commits_grow {q : SystemOp S} {a : q.Answer} (h : GrowthAnswers S irt prt issuer w q a w') :
    w.gate.commits <+: w'.gate.commits := by
  cases h with
  | verified => exact List.prefix_rfl
  | gated hgated => exact hgated.commits_grow
  | other => exact List.prefix_rfl

lemma GrowthMeanwhile.commits_grow (h : GrowthMeanwhile w w') : w.gate.commits <+: w'.gate.commits := by
  cases h with
  | passed hpassed => exact hpassed.commits_grow
  | ticked => exact List.prefix_rfl
  | issued => exact List.prefix_rfl

end Answers

section Runs

variable {S : BaseSandbox} {u : CharTable} {rt : Interceptor.Runtime} {irt : Identity.Runtime} {prt : Policy.Runtime}
  {issuer : Identity.SessionTokenIssuer} {ι : Type} [DecidableEq ι] {suspends : SystemOp S → Bool}
  {calls : ι → PipelineCall} {world : GrowthWorld}
  {s : Loop ι GrowthWorld (SystemOp S) SystemOp.Answer Exc PipelineResult} {i : ι}

/-! ## What runs -/

/-- A decision of the engine that allows a request, for the task `i`. -/
def Decides (S : BaseSandbox) (i : ι) (context : ExecutionContext) (request : ToolRequest)
    (m : Moment ι GrowthWorld (SystemOp S) SystemOp.Answer) : Prop :=
  m.task = i ∧ ∃ timeout d, d.allowed = true ∧
    m.event = handled S (collaborated S ⟨.evaluateToolCall context request timeout, .returned d⟩)

omit [DecidableEq ι] in
lemma Decides.allowed {m : Moment ι GrowthWorld (SystemOp S) SystemOp.Answer} {context : ExecutionContext}
    {request : ToolRequest} (hdecides : Decides S i context request m)
    (h : GrowthAnswers S irt prt issuer m.before m.event.1 m.event.2 m.after) :
    AllowedBetween prt context request m.before.gate m.after.gate := by
  obtain ⟨-, timeout, d, hd, hevent⟩ := hdecides
  rw [hevent] at h
  exact h.gate.allowed hd

omit [DecidableEq ι] in
lemma closed_of_check {w w' : GrowthWorld} {agentId toolName : String} (h : GrowthAnswers S irt prt issuer w
    (.governed (.collaborator (.check agentId toolName))) (.ok true) w') : ¬ InOpenPeriod (keyFor agentId toolName) w'.gate := by
  generalize hgate : w'.gate = gate
  have hgated := hgate ▸ h.gate
  cases hgated with
  | served _ hserve => exact not_inOpenPeriod_of_none (closed_after_check hserve (by simp))
  | other hbreaker => cases hbreaker

/-- The pipeline shows its token, and it is accepted. -/
abbrev accepted (S : BaseSandbox) (call : PipelineCall) : SystemEvent S :=
  piped S ⟨.verify call.bearerToken call.context, .ok true⟩

/-- The circuit of the tool is found closed. -/
abbrev foundClosed (S : BaseSandbox) (call : PipelineCall) (toolName : String) : SystemEvent S :=
  handled S (collaborated S ⟨.check call.context.agentId toolName, .ok true⟩)

/-- **What runs was let through by all three**, at moments before it.  When its token was accepted, this bore the signature
of a token that had been issued and had not expired; since the calls before were done, its circuit was found closed when
it was not in an open period, and the engine allowed the request by rules that were committed while it read them. -/
theorem growth_gate (h : Reached suspends (GrowthAnswers S irt prt issuer) (GrowthMeanwhile)
      (fun i => (calls i).program S u rt) world s) (i : ι)
    (hunforged : ∀ m ∈ s.past, m.task = i → m.event = accepted S (calls i) →
      Identity.Unforged irt issuer m.before.issued (calls i).bearerToken)
    (pre post : List (SystemEvent S)) (e : (q : S.Op) × S.Answer q)
    (hevent : own i s.past = pre ++ handled S (sandboxed S e) :: post) :
    ∃ begun since m later, s.past = begun ++ (since ++ m :: later) ∧ m.task = i ∧ m.event = handled S (sandboxed S e) ∧
      own i begun ++ own i since = pre ∧ ∃ proposed ∈ proposals (own i begun),
        Executing S (calls i).context proposed.toToolRequest (sandboxEvents (own i since)) e ∧
        (∃ m ∈ begun, m.task = i ∧ m.event = accepted S (calls i) ∧
          Admits irt issuer m.before.issued (calls i).context (calls i).bearerToken m.before.clock) ∧
        ((calls i).interceptor.circuitBreaker = true → ∃ m ∈ since, m.task = i ∧
          m.event = foundClosed S (calls i) proposed.toolName ∧
          ¬ InOpenPeriod (keyFor (calls i).context.agentId proposed.toolName) m.after.gate) ∧
        ∃ m ∈ since, Decides S i (calls i).context proposed.toToolRequest m ∧
          AllowedBetween prt (calls i).context proposed.toToolRequest m.before.gate m.after.gate := by
  obtain ⟨begun, since, m₀, later, hpast, htask₀, hevent₀, hpre, proposed, hmem, hexecuting, hopened⟩ :=
    opened_before h hevent
  have hbegun : begun ⊆ s.past := hpast ▸ List.subset_append_left _ _
  have hsince : since ⊆ s.past :=
    hpast ▸ List.subset_append_of_subset_right _ (List.subset_append_left _ _)
  refine ⟨begun, since, m₀, later, hpast, htask₀, hevent₀, hpre, proposed, hmem, hexecuting, ?_, fun hbreaker => ?_, ?_⟩
  · obtain ⟨m, hm, htask, haccepted⟩ := mem_own.1 hopened.verified
    have hverify := h.answered m (hbegun hm)
    rw [haccepted] at hverify
    exact ⟨m, hm, htask, haccepted,
      admits_of_verify (hunforged m (hbegun hm) htask haccepted) hverify.verification.symm⟩
  · obtain ⟨m, hm, htask, hfound⟩ := mem_own.1 (hopened.closed hbreaker)
    have hcheck := h.answered m (hsince hm)
    rw [hfound] at hcheck
    exact ⟨m, hm, htask, hfound, closed_of_check hcheck⟩
  · obtain ⟨timeout, d, hd, hevaluated, -⟩ := hopened.allowed
    obtain ⟨m, hm, htask, hdecided⟩ := mem_own.1 hevaluated
    have hdecides : Decides S i (calls i).context proposed.toToolRequest m := ⟨htask, timeout, d, hd, hdecided⟩
    exact ⟨m, hm, hdecides, hdecides.allowed (h.answered m (hsince hm))⟩

/-! ## Revocation -/

/-- What was committed when something happened is still committed. -/
lemma commits_remain (h : Reached suspends (GrowthAnswers S irt prt issuer) GrowthMeanwhile
      (fun i => (calls i).program S u rt) world s) {m : Moment ι GrowthWorld (SystemOp S) SystemOp.Answer}
    (hm : m ∈ s.past) : m.after.gate.commits <+: s.world.gate.commits := by
  obtain ⟨earlier, later, hpast⟩ := List.append_of_mem hm
  refine h.since (I := fun w => m.after.gate.commits <+: w.gate.commits)
    (fun _ _ hout hle => hle.trans hout.commits_grow) hpast List.prefix_rfl fun m' hm' hle => ?_
  exact hle.trans (h.answered m' (by simp [hpast, hm'])).commits_grow

/-- The states between two moments are among those committed from the `n`-th on, if this was committed before. -/
lemma mem_drop_of_between {w w' : GateWorld ℚ} {T : Policy.RuleStore} {more commits : List Policy.RuleStore} {n : ℕ}
    (hn : n < w.commits.length) (hlast : w.commits.getLast? = some T) (hmore : w'.commits = w.commits ++ more)
    (hle : w'.commits <+: commits) : ∀ T' ∈ T :: more, T' ∈ commits.drop n := by
  obtain ⟨rest, rfl⟩ := hle
  rw [hmore, ← List.dropLast_append_getLast? T hlast]
  have hlength : n ≤ w.commits.dropLast.length := by
    rw [List.length_dropLast]
    omega
  intro T' hT'
  rw [List.append_assoc, List.append_assoc, List.drop_append_of_le_length hlength, List.singleton_append,
    ← List.cons_append]
  exact List.mem_append_right _ (List.mem_append_left _ hT')

/-- **Revocation holds.**  Let every state committed since the `n`-th block the revoked requests of a pipeline, each in one
table.  What the sandbox does for a revoked request after that commit was decided on before it. -/
theorem revocation_holds (h : Reached suspends (GrowthAnswers S irt prt issuer) GrowthMeanwhile
      (fun i => (calls i).program S u rt) world s) (i : ι)
    {earlier later : List (Moment ι GrowthWorld (SystemOp S) SystemOp.Answer)} (hpast : s.past = earlier ++ later) {n : ℕ}
    (hn : ∀ m ∈ later, n < m.before.gate.commits.length) (revoked : ToolRequest → Prop)
    (hrevoked : ∀ request, revoked request → ∃ X, ∀ T ∈ s.world.gate.commits.drop n, ∀ m ∈ later,
      Policy.Blocks prt (calls i).context request (m.before.gate.callCounter (calls i).context.sessionId) T X)
    (pre post : List (SystemEvent S)) (e : (q : S.Op) × S.Answer q)
    (hevent : own i s.past = pre ++ handled S (sandboxed S e) :: post) :
    ∃ proposed ∈ proposals pre, Executes S (calls i).context proposed.toToolRequest e ∧
      (revoked proposed.toToolRequest →
        ∃ m ∈ earlier, Decides S i (calls i).context proposed.toToolRequest m) := by
  obtain ⟨begun, since, rfl, proposed, hmem, hexecuting, hopened⟩ := opened_of_executing h hevent
  refine ⟨proposed, ?_, ⟨_, hexecuting⟩, fun hgone => ?_⟩
  · rw [proposals_append]
    exact List.mem_append_left _ hmem
  obtain ⟨timeout, d, hd, hevaluated, -⟩ := hopened.allowed
  have hbefore : handled S (collaborated S ⟨.evaluateToolCall (calls i).context proposed.toToolRequest timeout,
      .returned d⟩) ∈ own i s.past := by
    rw [hevent]
    exact List.mem_append_left _ (List.mem_append_right _ hevaluated)
  obtain ⟨m, hm, htask, hdecided, hanswer⟩ := moment_of_mem_own h hbefore
  rw [← hdecided] at hanswer
  have hdecides : Decides S i (calls i).context proposed.toToolRequest m := ⟨htask, timeout, d, hd, hdecided⟩
  rcases List.mem_append.1 (hpast ▸ hm) with hearlier | hlater
  · exact ⟨m, hearlier, hdecides⟩
  -- a decision made since would have been denied by the one table
  exfalso
  obtain ⟨X, hblocks⟩ := hrevoked _ hgone
  obtain ⟨T, more, states, hlast, hmore, horder, hallows⟩ := hdecides.allowed hanswer
  refine Policy.patchwork_not_allows horder (X := X) (fun T' hT' => ?_) hallows
  exact hblocks T' (mem_drop_of_between (hn m hlater) hlast hmore (commits_remain h hm) T' hT') m hlater

end Runs

/-! ### A search -/

section Sample

def searchCall : ProposedToolCall := ⟨"search_tool", "query", Dict.empty, "c1"⟩

def searchRuntime : Identity.Runtime := Identity.sampleRuntime "s1:a1:900" Identity.boundDigest Identity.boundDigest_hex

def searchPipeline : PipelineCall where
  prompt := "Find it."
  context := Policy.productionAdmin
  bearerToken := "s1.a1.900." ++ Identity.boundDigest
  pipeline := ⟨{}, Guardrails.RegexPIIGuardrail.toGuardrail .ascii {}⟩
  interceptor := sampleInterceptor true

/-- A token is issued before the pipeline starts. -/
def searchWorld : GrowthWorld where
  gate.breaker := {
    breaker.settings := { windowSeconds := 60, failureThreshold := 3 / 5, minSamples := 1, cooldownSeconds := 30 }
    now := 0 }
  gate.commits := [Policy.seedExample]
  gate.callCounter _ := 0
  clock := 1
  issued := [(Identity.tokenContext "s1" "a1", 0)]

/-- The engine decides on the latest rules. -/
def decideNow (gate : GateWorld ℚ) (context : ExecutionContext) (request : ToolRequest) : Awaited PolicyDecision :=
  match gate.commits.getLast? with
  | none => .exceeded
  | some S =>
    match (Policy.DbBackedPolicyEngine.mk S gate.callCounter).evaluate Policy.plainRuntime context request with
    | .ok d => .returned d
    | .error _ => .exceeded

/-- The issuer, the breaker and the engine answer, while nothing is committed; the rest is answered as in `granting`. -/
def answerGrowth : (q : SystemOp sampleSandbox) → GrowthWorld → q.Answer × GrowthWorld
  | .pipeline (.verify credential context), w =>
    (Identity.sampleIssuer.verify searchRuntime credential context w.clock, w)
  | .governed (.collaborator (.check agentId toolName)), w =>
    let (a, breaker) := w.gate.breaker.breaker.check agentId toolName w.gate.breaker.now
    (a, { w with gate.breaker.breaker := breaker })
  | .governed (.collaborator (.recordResult agentId toolName success)), w =>
    (.ok (), { w with
      gate.breaker.breaker := w.gate.breaker.breaker.recordResult agentId toolName w.gate.breaker.now success
      gate.breaker.recorded := Function.update w.gate.breaker.recorded (keyFor agentId toolName)
        (w.gate.breaker.recorded (keyFor agentId toolName) ++ [(w.gate.breaker.now, success)]) })
  | .governed (.collaborator (.evaluateToolCall context request _)), w => (decideNow w.gate context request, w)
  | q, w => ((granting searchCall sampleAnswer q ()).1, w)

lemma decideNow_gated (gate : GateWorld ℚ) (context : ExecutionContext) (request : ToolRequest) (timeout : JFloat) :
    Gated Policy.plainRuntime gate (.evaluateToolCall context request timeout) (decideNow gate context request) gate := by
  have hundecided : Gated Policy.plainRuntime gate (.evaluateToolCall context request timeout) .exceeded gate :=
    .other rfl rfl le_rfl
  unfold decideNow
  cases hlast : gate.commits.getLast? with
  | none => exact hundecided
  | some S =>
    dsimp only
    cases heval : (Policy.DbBackedPolicyEngine.mk S gate.callCounter).evaluate Policy.plainRuntime context request with
    | error e => exact hundecided
    | ok d =>
      obtain ⟨tr, hrun⟩ := Policy.runs_of_eval (show [S].getLast? = some S from rfl) heval
      have hdecided : Gated Policy.plainRuntime gate (.evaluateToolCall context request timeout) (.returned d)
          { gate with commits := gate.commits ++ [] } := .decided le_rfl hlast hrun
      rwa [List.append_nil] at hdecided

lemma answerGrowth_answers (q : SystemOp sampleSandbox) (w : GrowthWorld) :
    GrowthAnswers sampleSandbox searchRuntime Policy.plainRuntime Identity.sampleIssuer w q (answerGrowth q w).1
      (answerGrowth q w).2 := by
  cases q with
  | pipeline q =>
    cases q with
    | verify => exact .verified ..
    | _ => exact .other _ _ rfl
  | governed q =>
    cases q with
    | sandbox q => exact .other _ _ rfl
    | collaborator q =>
      cases q with
      | check agentId toolName => exact .gated _ (.served rfl (.check _ agentId toolName _ le_rfl))
      | recordResult agentId toolName success =>
        exact .gated _ (.served rfl (.recordResult _ agentId toolName success _ le_rfl))
      | evaluateToolCall => exact .gated _ (decideNow_gated ..)
      | _ => exact .gated _ (.other rfl rfl le_rfl)

abbrev searchRun : List (SystemEvent sampleSandbox) × Except Exc PipelineResult × GrowthWorld :=
  (searchPipeline.program sampleSandbox .ascii sampleRuntime).run answerGrowth searchWorld

/-- The states of the one pipeline. -/
abbrev Searching (s : Loop Unit GrowthWorld (SystemOp sampleSandbox) SystemOp.Answer Exc PipelineResult) : Prop :=
  Reached (fun _ => true) (GrowthAnswers sampleSandbox searchRuntime Policy.plainRuntime Identity.sampleIssuer)
    GrowthMeanwhile (fun i => (alone searchPipeline i).program sampleSandbox .ascii sampleRuntime) searchWorld s

lemma search_reached : ∃ s, Searching s ∧ own () s.past = searchRun.1 ∧ s.world = searchRun.2.2 := by
  obtain ⟨s, hreached, hown, -, hworld⟩ := reached_alone GrowthMeanwhile
    (runs_run answerGrowth_answers (searchPipeline.program sampleSandbox .ascii sampleRuntime) searchWorld)
  exact ⟨s, hreached, hown, hworld⟩

/-- The token that the pipeline shows was issued before it starts. -/
lemma search_unforged {s : Loop Unit GrowthWorld (SystemOp sampleSandbox) SystemOp.Answer Exc PipelineResult}
    (h : Searching s) :
    ∀ m ∈ s.past, m.task = () → m.event = accepted sampleSandbox searchPipeline →
      Identity.Unforged searchRuntime Identity.sampleIssuer m.before.issued searchPipeline.bearerToken := by
  have hkept : ∀ m ∈ s.past, (Identity.tokenContext "s1" "a1", 0) ∈ m.before.issued := by
    refine (h.always (I := fun w => (Identity.tokenContext "s1" "a1", 0) ∈ w.issued) (List.mem_singleton_self _)
      (fun _ _ _ _ hw hE => ?_) fun _ _ hw hout => ?_).2
    · cases hE <;> exact hw
    · cases hout with
      | issued => exact List.mem_cons_of_mem _ hw
      | _ => exact hw
  intro m hm _ _
  obtain ⟨p, hp, hissued⟩ := Identity.sample_issuedFor "s1:a1:900" Identity.boundDigest Identity.boundDigest_hex "s1" "a1"
  obtain rfl := List.mem_singleton.1 hp
  exact Identity.unforged_of_issued (Identity.knownHmac_inj Identity.boundDigest_hex (by decide) _)
    ⟨_, hkept m hm, hissued⟩ (x := "900") (by decide) rfl

lemma searchRun_split : searchRun.1 = searchRun.1.take 7 ++ handled sampleSandbox (sandboxed sampleSandbox
    ⟨.waitFor .default searchCall.toToolRequest Policy.productionAdmin .nan, .returned "found"⟩) :: searchRun.1.drop 8 := rfl

theorem growth_gate_search : ∃ s, Searching s ∧ own () s.past = searchRun.1 ∧
    ∃ begun since m later, s.past = begun ++ (since ++ m :: later) ∧ m.event = handled sampleSandbox (sandboxed sampleSandbox
        ⟨.waitFor .default searchCall.toToolRequest Policy.productionAdmin .nan, .returned "found"⟩) ∧
      (∃ m ∈ begun, m.event = accepted sampleSandbox searchPipeline ∧ Admits searchRuntime Identity.sampleIssuer
        m.before.issued Policy.productionAdmin searchPipeline.bearerToken m.before.clock) ∧
      (∃ m ∈ since, m.event = foundClosed sampleSandbox searchPipeline "search_tool" ∧
        ¬ InOpenPeriod (keyFor "a1" "search_tool") m.after.gate) ∧
      ∃ m ∈ since, Decides sampleSandbox () Policy.productionAdmin searchCall.toToolRequest m ∧
        AllowedBetween Policy.plainRuntime Policy.productionAdmin searchCall.toToolRequest m.before.gate m.after.gate := by
  obtain ⟨s, hreached, hown, -⟩ := search_reached
  obtain ⟨begun, since, m, later, hpast, -, hm, hpre, proposed, hmem, -, ⟨m₁, hm₁, -, haccepted, hadmits⟩, hclosed,
    m₃, hm₃, hdecides, hallowed⟩ := growth_gate hreached () (search_unforged hreached) _ _ _ (hown.trans searchRun_split)
  obtain ⟨m₂, hm₂, -, hfound, hclosed⟩ := hclosed rfl
  have hproposals : proposals (searchRun.1.take 7) = [searchCall] := rfl
  have hmem' : proposed ∈ proposals (searchRun.1.take 7) := by
    rw [← hpre, proposals_append]
    exact List.mem_append_left _ hmem
  obtain rfl : proposed = searchCall := List.mem_singleton.1 (hproposals ▸ hmem')
  exact ⟨s, hreached, hown, begun, since, m, later, hpast, hm, ⟨m₁, hm₁, haccepted, hadmits⟩, ⟨m₂, hm₂, hfound, hclosed⟩,
    m₃, hm₃, hdecides, hallowed⟩

/-- The example rules after `sql_tool` was taken out. -/
def withoutSql : Policy.RuleStore :=
  { Policy.seedExample with
    tools := ["search_tool", "deploy_tool"]
    tools_key := by decide }

def sqlCall : ProposedToolCall :=
  ⟨"sql_tool", "ExecuteReadOnlyQuery", Dict.empty.set "query" (.str "SELECT 1"), "c1"⟩

abbrev sqlExecuted : SystemEvent sampleSandbox := handled sampleSandbox (sandboxed sampleSandbox
  ⟨.waitFor .default sqlCall.toToolRequest Policy.productionAdmin .nan, .returned "found"⟩)

/-- `sql_tool` is taken out after a call of it was allowed, and before the sandbox is started. -/
lemma sql_reached : ∃ s, Searching s ∧ s.world.gate.commits = [Policy.seedExample, withoutSql] ∧
    ∃ earlier later, s.past = earlier ++ later ∧ (∀ m ∈ later, m.before.gate.commits = [Policy.seedExample, withoutSql]) ∧
      (∃ m ∈ later, m.event = sqlExecuted) ∧
      ∃ begun, own () s.past = begun ++ [sqlExecuted] ∧ proposals begun = [sqlCall] := by
  have hother : ∀ (q : SystemOp sampleSandbox) (a : q.Answer) (w : GrowthWorld), answeredByGrowth q = false →
      GrowthAnswers sampleSandbox searchRuntime Policy.plainRuntime Identity.sampleIssuer w q a w := fun _ a w => .other w a
  have hstart : Searching _ := Reached.start () .init rfl fun _ _ h => by cases h
  have hverified := Reached.resume hstart (i := ()) rfl (atRest_alone _) (.verified _ _ _)
  have hcounted := Reached.resume hverified (i := ()) rfl (atRest_alone _) (hother (.pipeline (.countCall _)) (1 : ℤ) _ rfl)
  have hproposed := Reached.resume hcounted (i := ()) rfl (atRest_alone _)
    (hother (.pipeline (.proposeToolCalls _ _)) (Except.ok [sqlCall]) _ rfl)
  have hasked := Reached.resume hproposed (i := ()) rfl (atRest_alone _)
    (.gated _ (.served rfl (.check _ "a1" "sql_tool" _ le_rfl)))
  have hdecided := Reached.resume hasked (i := ()) rfl (atRest_alone _)
    (.gated _ (decideNow_gated _ Policy.productionAdmin sqlCall.toToolRequest _))
  have hrevoked := Reached.moved hdecided (.passed _ (.passed [withoutSql] (fun _ => 0) le_rfl))
  have htimed := Reached.resume hrevoked (i := ()) rfl (atRest_alone _)
    (.gated _ (.other (q := .monotonic) (a := JFloat.nan) rfl rfl le_rfl))
  have hclock := Reached.resume htimed (i := ()) rfl (atRest_alone _)
    (hother (.governed (.sandbox (show sampleSandbox.Op from Sandbox.SandboxOp.monotonic))) JFloat.nan _ rfl)
  have hexecuted := Reached.resume hclock (i := ()) rfl (atRest_alone _) (hother (.governed (.sandbox (show sampleSandbox.Op
    from Sandbox.SandboxOp.waitFor .default sqlCall.toToolRequest Policy.productionAdmin .nan))) (Awaited.returned "found") _
      rfl)
  refine ⟨_, hexecuted, rfl, _, _, (List.append_assoc _ _ _).trans (List.append_assoc _ _ _), fun m hm => ?_,
    ⟨_, List.mem_append_right _ (List.mem_append_right _ (List.mem_singleton_self _)), rfl⟩, _, own_append _ _, rfl⟩
  simp only [List.mem_append, List.mem_singleton] at hm
  rcases hm with rfl | rfl | rfl <;> rfl

/-- What is executed of `sql_tool` after it was taken out was decided on before. -/
theorem revocation_holds_search : ∃ s, Searching s ∧
    ∃ earlier later, s.past = earlier ++ later ∧ (∀ m ∈ later, m.before.gate.commits = [Policy.seedExample, withoutSql]) ∧
      (∃ m ∈ later, m.event = sqlExecuted) ∧
      ∃ m ∈ earlier, Decides sampleSandbox () Policy.productionAdmin sqlCall.toToolRequest m := by
  obtain ⟨s, hreached, hcommits, earlier, later, hpast, hlater, hexecuted, begun, hown, hproposals⟩ := sql_reached
  have hblocks : ∀ request : ToolRequest, request.toolName = "sql_tool" → ∃ X, ∀ T ∈ s.world.gate.commits.drop 1,
      ∀ m ∈ later, Policy.Blocks Policy.plainRuntime Policy.productionAdmin request
        (m.before.gate.callCounter Policy.productionAdmin.sessionId) T X := by
    intro request hrequest
    refine ⟨.tools, fun T hT m _ => ?_⟩
    rw [hcommits] at hT
    obtain rfl := List.mem_singleton.1 hT
    rw [Policy.Blocks, hrequest]
    rfl
  obtain ⟨proposed, hmem, -, hearlier⟩ := revocation_holds (n := 1) hreached () hpast
    (fun m hm => by rw [hlater m hm]; decide) _ hblocks begun [] _ hown
  obtain rfl : proposed = sqlCall := List.mem_singleton.1 (hproposals ▸ hmem)
  exact ⟨s, hreached, earlier, later, hpast, hlater, hexecuted, hearlier rfl⟩

end Sample

end Aimw
