import Aimw.Identity.SessionToken
import Aimw.Pipeline

/-!
# What a credential raises

`hmac.compare_digest` raises on a text that is not ASCII, and `SessionTokenIssuer.verify` hands it the last part of the
credential as it came:

* `verify_cases` — `verify` returns, or it raises this `TypeError`;
* `verify_returns_iff` — when it returns, and nothing but a `GatewayAuthError` leaves the gateway.
-/

namespace Aimw.Identity

open Lib Coro

variable {rt : Runtime} {issuer : SessionTokenIssuer} {credential : String} {context : ExecutionContext} {now : ℚ}

variable (rt credential context now) in
/-- The credential has the ids of the context, an expiry that is not over, and a signature that is not ASCII. -/
def ForeignSignature : Prop :=
  ∃ expiryStr expiry signature,
    splitMax '.' 3 credential.toList = [context.sessionId.toList, context.agentId.toList, expiryStr, signature] ∧
      pyInt rt.chars expiryStr = some expiry ∧ now ≤ expiry ∧ ∃ c ∈ signature, 128 ≤ c.toNat

def compareDigestError : Exc := .exception "comparing strings with non-ASCII characters is not supported"

/-- The comparison with a digest raises on a text that is not ASCII. -/
lemma compareDigest_hexdigest_cases (signature : List Char) (k m : ByteArray) :
    ((∃ c ∈ signature, 128 ≤ c.toNat) ∧
        compareDigest (String.ofList signature) (rt.hmac.hexdigest k m) = .error compareDigestError) ∨
      (¬ (∃ c ∈ signature, 128 ≤ c.toNat) ∧
        ∃ b, compareDigest (String.ofList signature) (rt.hmac.hexdigest k m) = .ok b) := by
  unfold compareDigest
  rw [hexdigest_ascii, Bool.and_true, String.toList_ofList]
  by_cases hforeign : ∃ c ∈ signature, 128 ≤ c.toNat
  · refine Or.inl ⟨hforeign, if_neg ?_⟩
    obtain ⟨c, hc, hlarge⟩ := hforeign
    rw [List.all_eq_true]
    intro hall
    exact absurd (of_decide_eq_true (hall c hc)) (not_lt.2 hlarge)
  · refine Or.inr ⟨hforeign, _, if_pos ?_⟩
    rw [List.all_eq_true]
    intro c hc
    exact decide_eq_true (not_le.1 fun hlarge => hforeign ⟨c, hc, hlarge⟩)

variable (rt issuer credential context now) in
/-- **What `verify` does**: it answers, or it raises on a signature that is not ASCII. -/
theorem verify_cases :
    (ForeignSignature rt credential context now ∧
        issuer.verify rt credential context now = .error compareDigestError) ∨
      (¬ ForeignSignature rt credential context now ∧ ∃ b, issuer.verify rt credential context now = .ok b) := by
  unfold SessionTokenIssuer.verify
  split
  · next sessionId agentId expiryStr signature hsplit =>
    cases hint : pyInt rt.chars expiryStr with
    | none =>
      refine Or.inr ⟨?_, false, rfl⟩
      rintro ⟨expiryStr', expiry, signature', hsplit', hint', -⟩
      obtain ⟨-, -, rfl, -⟩ : sessionId = _ ∧ agentId = _ ∧ expiryStr = expiryStr' ∧ signature = signature' := by
        simpa using hsplit.symm.trans hsplit'
      cases hint.symm.trans hint'
    | some expiry =>
      -- the parts that a foreign signature would have to stand beside
      have hforeign : ForeignSignature rt credential context now ↔
          ¬ (String.ofList sessionId ≠ context.sessionId ∨ String.ofList agentId ≠ context.agentId) ∧
            ¬ now > expiry ∧ ∃ c ∈ signature, 128 ≤ c.toNat := by
        constructor
        · rintro ⟨expiryStr', expiry', signature', hsplit', hint', hnow, hc⟩
          obtain ⟨rfl, rfl, rfl, rfl⟩ : sessionId = context.sessionId.toList ∧ agentId = context.agentId.toList ∧
              expiryStr = expiryStr' ∧ signature = signature' := by
            simpa using hsplit.symm.trans hsplit'
          obtain rfl := Option.some.inj (hint.symm.trans hint')
          exact ⟨by simp, not_lt.2 hnow, hc⟩
        · rintro ⟨hids, hnow, hc⟩
          push Not at hids hnow
          refine ⟨expiryStr, expiry, signature, ?_, hint, hnow, hc⟩
          rw [hsplit, ← hids.1, ← hids.2, String.toList_ofList, String.toList_ofList]
      rw [hforeign]
      by_cases hids : String.ofList sessionId ≠ context.sessionId ∨ String.ofList agentId ≠ context.agentId
      · exact Or.inr ⟨fun h => h.1 hids, false, if_pos hids⟩
      by_cases hlate : now > expiry
      · exact Or.inr ⟨fun h => h.2.1 hlate, false, by simp only [if_neg hids, if_pos hlate]⟩
      obtain ⟨s, hs⟩ := pyIntStr_of_pyInt rt.chars hint
      have hx : formatInt expiry = .ok (String.ofList s) := formatInt_eq_ok_iff.2 (by rw [hs, String.toList_ofList])
      simp only [sign, hx, Bind.bind, Except.bind, not_false_eq_true, true_and, hids, hlate, if_false]
      exact compareDigest_hexdigest_cases signature _ _
  · next hsplit =>
    refine Or.inr ⟨?_, false, rfl⟩
    rintro ⟨expiryStr, expiry, signature, hsplit', -⟩
    exact hsplit _ _ _ _ hsplit'

/-! ## The gateway -/

/-- The texts of `GatewayAuthError`. -/
def gatewayAuthErrors (agentId : String) : List Exc :=
  [.exception "identity verification failed", .exception s!"rate limit exceeded for agent '{agentId}'"]

/-- Whatever the count of the calls is: when the issuer answers the gateway at the time `now`, only a
`GatewayAuthError` is raised. -/
def RaisesAuthErrorsOnly (rt : Runtime) (issuer : SessionTokenIssuer) (now : ℚ) (gateway : LiteLLMGatewayShim)
    (prompt : String) (context : ExecutionContext) (bearerToken : String) : Prop :=
  ∀ (World : Type) (E : World → (q : PipelineOp) → q.Answer → World → Prop) (w w' : World)
    (tr : List ((q : PipelineOp) × q.Answer)) (r : Except Exc String),
    (∀ w a w', E w (.verify bearerToken context) a w' → a = issuer.verify rt bearerToken context now) →
      Runs E w (gateway.handleInbound rt.chars prompt context bearerToken) tr r w' →
        ∀ e, r = .error e → e ∈ gatewayAuthErrors context.agentId

section Gateway

variable {World : Type} {E : World → (q : PipelineOp) → q.Answer → World → Prop} {w w' : World}
  {tr : List ((q : PipelineOp) × q.Answer)}

lemma authenticate_error {e : Exc} (h : Runs E w (LiteLLMGatewayShim.authenticate context credential) tr (.error e) w') :
    e = .exception "identity verification failed" ∨ ∃ w w', E w (.verify credential context) (.error e) w' := by
  rcases runs_bind_iff.1 h with ⟨e', hawait, heq⟩ | ⟨verified, w₁, t₁, t₂, -, -, hrest⟩
  · obtain ⟨a, -, hE, hr⟩ := runs_await_iff.1 hawait
    obtain rfl := Except.error.inj heq
    exact Or.inr ⟨w, w', (show a = .error e from hr.symm) ▸ hE⟩
  · split_ifs at hrest
    · obtain ⟨-, hr, -⟩ := runs_raise_iff.1 hrest
      exact Or.inl (Except.error.inj hr)
    · obtain ⟨-, hr, -⟩ := runs_ret_iff.1 hrest
      cases hr

lemma checkRateLimit_error {gateway : LiteLLMGatewayShim} {agentId : String} {e : Exc}
    (h : Runs E w (gateway.checkRateLimit agentId) tr (.error e) w') :
    e = .exception s!"rate limit exceeded for agent '{agentId}'" := by
  obtain ⟨count, w₁, t, -, -, hrest⟩ := runs_call_iff.1 h
  change Runs E w₁ (if count > gateway.rateLimitPerMinute then _ else _) t _ w' at hrest
  split_ifs at hrest
  · obtain ⟨-, hr, -⟩ := runs_raise_iff.1 hrest
    exact Except.error.inj hr
  · obtain ⟨-, hr, -⟩ := runs_ret_iff.1 hrest
    cases hr

/-- What leaves the gateway is one of its own errors, or what the verifier raised. -/
lemma handleInbound_error {gateway : LiteLLMGatewayShim} {u : CharTable} {prompt : String} {e : Exc}
    (h : Runs E w (gateway.handleInbound u prompt context credential) tr (.error e) w') :
    e ∈ gatewayAuthErrors context.agentId ∨ ∃ w w', E w (.verify credential context) (.error e) w' := by
  rcases runs_bind_iff.1 h with ⟨e', hauth, heq⟩ | ⟨_, w₁, t₁, t₂, -, -, hrest⟩
  · obtain rfl := Except.error.inj heq
    rcases authenticate_error hauth with rfl | hraised
    · exact Or.inl List.mem_cons_self
    · exact Or.inr hraised
  · rcases runs_bind_iff.1 hrest with ⟨e', hlimit, heq⟩ | ⟨_, w₂, t₃, t₄, -, -, hmask⟩
    · obtain rfl := Except.error.inj heq
      exact Or.inl (checkRateLimit_error hlimit ▸ List.mem_cons_of_mem _ List.mem_cons_self)
    · obtain ⟨-, hr, -⟩ := runs_ret_iff.1 hmask
      cases hr

end Gateway

/-- The issuer answers at the time `now`, and all other calls are answered somehow. -/
def AnsweredAt (rt : Runtime) (issuer : SessionTokenIssuer) (now : ℚ) :
    Unit → (q : PipelineOp) → q.Answer → Unit → Prop
  | _, .verify credential context, a, _ => a = issuer.verify rt credential context now
  | _, _, _, _ => True

/-- A verifier that raises is not caught. -/
lemma runs_handleInbound_of_error {gateway : LiteLLMGatewayShim} {u : CharTable} {prompt : String} {e : Exc}
    (h : issuer.verify rt credential context now = .error e) :
    Runs (AnsweredAt rt issuer now) () (gateway.handleInbound u prompt context credential)
      [⟨.verify credential context, .error e⟩] (.error e) () := by
  have hawait : Runs (AnsweredAt rt issuer now) () (await (.verify credential context) id : PipelineProg Bool)
      [⟨.verify credential context, .error e⟩] (.error e) () :=
    runs_await_iff.2 ⟨.error e, rfl, h.symm, rfl⟩
  have hauth : Runs (AnsweredAt rt issuer now) () (LiteLLMGatewayShim.authenticate context credential)
      [⟨.verify credential context, .error e⟩] (.error e) () :=
    runs_bind_iff.2 (Or.inl ⟨e, hawait, rfl⟩)
  exact runs_bind_iff.2 (Or.inl ⟨e, hauth, rfl⟩)

lemma compareDigestError_not_mem (agentId : String) : compareDigestError ∉ gatewayAuthErrors agentId := by
  simp only [gatewayAuthErrors, compareDigestError, List.mem_cons, List.not_mem_nil, or_false, Exc.exception.injEq,
    not_or]
  refine ⟨by decide, fun heq => ?_⟩
  -- the two texts begin with different letters
  have hhead := congrArg (fun s : String => s.toList.head?) heq
  simp [toString] at hhead

/-- **When verification never raises**: unless the credential has the ids of the context, an expiry that is not over
and a signature that is not ASCII; and this is when a gateway raises its own errors only. -/
theorem verify_returns_iff (rt : Runtime) (issuer : SessionTokenIssuer) (credential : String)
    (context : ExecutionContext) (now : ℚ) :
    ((∃ b, issuer.verify rt credential context now = .ok b) ↔ ¬ ForeignSignature rt credential context now) ∧
      ∀ (gateway : LiteLLMGatewayShim) (prompt : String),
        RaisesAuthErrorsOnly rt issuer now gateway prompt context credential ↔
          ¬ ForeignSignature rt credential context now := by
  rcases verify_cases rt issuer credential context now with ⟨hforeign, herror⟩ | ⟨hforeign, b, hok⟩
  · refine ⟨iff_of_false ?_ (not_not.2 hforeign), fun gateway prompt => iff_of_false ?_ (not_not.2 hforeign)⟩
    · rintro ⟨b, hb⟩
      cases herror.symm.trans hb
    · intro honly
      have hmem := honly Unit (AnsweredAt rt issuer now) () () _ _ (fun _ _ _ h => h)
        (runs_handleInbound_of_error herror) compareDigestError rfl
      exact compareDigestError_not_mem _ hmem
  · refine ⟨iff_of_true ⟨b, hok⟩ hforeign, fun gateway prompt => iff_of_true ?_ hforeign⟩
    rintro World E w w' tr r hE hruns e rfl
    rcases handleInbound_error hruns with hmem | ⟨w₁, w₂, hraised⟩
    · exact hmem
    · cases (hE _ _ _ hraised).trans hok

/-- The ids and an expiry that lies ahead, and `é` for a signature. -/
theorem foreign_signature_raises :
    sampleIssuer.verify cutRuntime "s1.a1.900.é" (tokenContext "s1" "a1") 0 = .error compareDigestError ∧
      ¬ (∃ b, sampleIssuer.verify cutRuntime "s1.a1.900.é" (tokenContext "s1" "a1") 0 = .ok b) ∧
      ¬ RaisesAuthErrorsOnly cutRuntime sampleIssuer 0 {} "hello" (tokenContext "s1" "a1") "s1.a1.900.é" := by
  have hforeign : ForeignSignature cutRuntime "s1.a1.900.é" (tokenContext "s1" "a1") 0 :=
    ⟨"900".toList, 900, ['é'], by decide, by decide, by norm_num, 'é', by simp, by decide⟩
  rcases verify_cases cutRuntime sampleIssuer "s1.a1.900.é" (tokenContext "s1" "a1") 0 with
    ⟨-, herror⟩ | ⟨hnot, -⟩
  · refine ⟨herror, ?_, fun honly => ?_⟩
    · rintro ⟨b, hb⟩
      cases herror.symm.trans hb
    · exact compareDigestError_not_mem _ (honly Unit _ () () _ _ (fun _ _ _ h => h)
        (runs_handleInbound_of_error herror) compareDigestError rfl)
  · exact absurd hforeign hnot

end Aimw.Identity
