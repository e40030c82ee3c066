import Aimw.Identity.SessionToken

/-!
# The lifetime of a token

* `works_for_lifetime_iff` — when a token is accepted from its issue to its expiry and refused after its lifetime: the
  text of a token is cut at its dots, so an id that has one is never found again.
-/

namespace Aimw.Identity

open Lib

variable {rt : Runtime} {issuer : SessionTokenIssuer} {context : ExecutionContext} {t : ℚ}

variable (rt issuer context t) in
/-- The token issued at the time `t` is accepted until it expires, and refused once the lifetime is over. -/
def WorksForLifetime : Prop :=
  ∃ token, issuer.issue rt context t = .ok token ∧
    (∀ t', t ≤ t' → t' ≤ issuer.expiryEpoch rt t → issuer.verify rt token context t' = .ok true) ∧
    ∀ t', rt.addSeconds t issuer.ttlSeconds < t' → issuer.verify rt token context t' = .ok false

/-! ## What was issued -/

lemma issue_eq_ok_iff {token : String} : issuer.issue rt context t = .ok token ↔
    ∃ x, formatInt (issuer.expiryEpoch rt t) = .ok x ∧ token = context.sessionId ++ "." ++ context.agentId ++ "." ++ x ++
      "." ++ rt.hmac.hexdigest issuer.secret (signedText context.sessionId context.agentId x).toUTF8 := by
  cases hx : formatInt (issuer.expiryEpoch rt t) with
  | error e => simp [SessionTokenIssuer.issue, sign, hx, bind, Except.bind]
  | ok x => simp [SessionTokenIssuer.issue, sign, hx, bind, Except.bind, eq_comm]

/-- Ids without a dot are found again, and the token is good until it expires. -/
lemma verify_issued {x : String} (hx : formatInt (issuer.expiryEpoch rt t) = .ok x)
    (hs : '.' ∉ context.sessionId.toList) (ha : '.' ∉ context.agentId.toList) (t' : ℚ) :
    issuer.verify rt (context.sessionId ++ "." ++ context.agentId ++ "." ++ x ++ "." ++
        rt.hmac.hexdigest issuer.secret (signedText context.sessionId context.agentId x).toUTF8) context t' =
      .ok (decide (t' ≤ issuer.expiryEpoch rt t)) := by
  have hdot : '.' ∉ x.toList := by
    rw [toList_of_formatInt hx]
    exact dot_not_mem_decimal _
  have hsplit := splitMax_credential (g := rt.hmac.hexdigest issuer.secret
    (signedText context.sessionId context.agentId x).toUTF8) hs ha hdot
  have hint := pyInt_pyIntStr rt.chars (formatInt_eq_ok_iff.1 hx)
  by_cases hle : t' ≤ issuer.expiryEpoch rt t
  · rw [decide_eq_true hle]
    exact verify_eq_true_iff.2 ⟨x.toList, _, x, hint, hle, hx, hsplit⟩
  · rw [decide_eq_false hle]
    simp only [SessionTokenIssuer.verify, hsplit, hint, String.ofList_toList, ne_eq, not_true, or_self, if_false,
      not_le.1 hle, if_true]

/-- The first two parts of a credential have no dots, so a context with a dotted id is refused. -/
lemma verify_of_dot (h : '.' ∈ context.sessionId.toList ∨ '.' ∈ context.agentId.toList) (credential : String)
    (t' : ℚ) : issuer.verify rt credential context t' = .ok false := by
  unfold SessionTokenIssuer.verify
  split
  · next sessionId agentId expiryStr signature hsplit =>
    have hdots : ∀ p ∈ [sessionId, agentId, expiryStr], '.' ∉ p := by
      have hdots := splitMax_dropLast '.' 3 credential.toList
      rwa [hsplit] at hdots
    have hne : ∀ part ∈ [sessionId, agentId, expiryStr], ∀ id : String, '.' ∈ id.toList → String.ofList part ≠ id := by
      rintro part hpart id hdot rfl
      rw [String.toList_ofList] at hdot
      exact hdots part hpart hdot
    have hids : String.ofList sessionId ≠ context.sessionId ∨ String.ofList agentId ≠ context.agentId :=
      h.imp (hne sessionId (by simp) _) (hne agentId (by simp) _)
    split
    · rfl
    · rw [if_pos hids]
  · rfl

/-! ## The expiry -/

lemma truncate_le_iff {x : ℚ} : (truncate x : ℚ) ≤ x ↔ 0 ≤ x ∨ ∃ n : ℤ, x = n := by
  unfold truncate
  split_ifs with hx
  · exact iff_of_true (Int.floor_le x) (Or.inl hx)
  · constructor
    · intro hle
      exact Or.inr ⟨⌈x⌉, le_antisymm (Int.le_ceil x) hle⟩
    · rintro (h | ⟨n, rfl⟩)
      · exact absurd h hx
      · rw [Int.ceil_intCast]

/-- **A token works for its whole lifetime and not beyond** exactly when neither id has a dot and the expiry is not cut
up to a later time; a token with a dotted id never works, which nobody sees if it has expired before it is issued.  The
ids have UTF-8 encodings: for a lone surrogate `issue` raises. -/
theorem works_for_lifetime_iff (rt : Runtime) (issuer : SessionTokenIssuer) (context : ExecutionContext) (t : ℚ) :
    WorksForLifetime rt issuer context t ↔ (∃ x, formatInt (issuer.expiryEpoch rt t) = .ok x) ∧
      (('.' ∉ context.sessionId.toList ∧ '.' ∉ context.agentId.toList ∧
          (0 ≤ rt.addSeconds t issuer.ttlSeconds ∨ ∃ n : ℤ, rt.addSeconds t issuer.ttlSeconds = n)) ∨
        (('.' ∈ context.sessionId.toList ∨ '.' ∈ context.agentId.toList) ∧ issuer.expiryEpoch rt t < t)) := by
  rw [← truncate_le_iff]
  unfold WorksForLifetime
  simp only [issue_eq_ok_iff]
  by_cases hdot : '.' ∈ context.sessionId.toList ∨ '.' ∈ context.agentId.toList
  · have hnot : ¬ ('.' ∉ context.sessionId.toList ∧ '.' ∉ context.agentId.toList ∧
        (truncate (rt.addSeconds t issuer.ttlSeconds) : ℚ) ≤ rt.addSeconds t issuer.ttlSeconds) :=
      fun h => hdot.elim h.1 h.2.1
    simp only [verify_of_dot hdot, hdot, hnot, false_or, true_and]
    constructor
    · rintro ⟨_, ⟨x, hx, -⟩, hworks, -⟩
      refine ⟨⟨x, hx⟩, ?_⟩
      by_contra hle
      cases hworks t le_rfl (not_lt.1 hle)
    · rintro ⟨⟨x, hx⟩, hlt⟩
      refine ⟨_, ⟨x, hx, rfl⟩, fun t' ht hle => ?_, fun _ _ => trivial⟩
      exact absurd (ht.trans hle) (not_le.2 hlt)
  · obtain ⟨hs, ha⟩ := not_or.1 hdot
    simp only [hs, ha, not_false_eq_true, true_and, false_and, or_false]
    constructor
    · rintro ⟨_, ⟨x, hx, rfl⟩, -, hover⟩
      refine ⟨⟨x, hx⟩, ?_⟩
      by_contra hlt
      -- at the moment of its expiry the token is still good
      have hlate := hover (issuer.expiryEpoch rt t) (not_le.1 hlt)
      rw [verify_issued hx hs ha, decide_eq_true le_rfl] at hlate
      cases hlate
    · rintro ⟨⟨x, hx⟩, hle⟩
      refine ⟨_, ⟨x, hx, rfl⟩, fun t' _ ht' => ?_, fun t' ht' => ?_⟩
      · rw [verify_issued hx hs ha, decide_eq_true ht']
      · have hlate : ¬ t' ≤ issuer.expiryEpoch rt t := not_le.2 (hle.trans_lt ht')
        rw [verify_issued hx hs ha, decide_eq_false hlate]

/-- The token of a session id with a dot is refused from the start. -/
theorem dotted_session_never_works :
    (∃ token, sampleIssuer.issue cutRuntime (tokenContext "user.42" "a1") 0 = .ok token ∧
        ∀ t', sampleIssuer.verify cutRuntime token (tokenContext "user.42" "a1") t' = .ok false) ∧
      (0 : ℚ) ≤ sampleIssuer.expiryEpoch cutRuntime 0 ∧
      ¬ WorksForLifetime cutRuntime sampleIssuer (tokenContext "user.42" "a1") 0 := by
  have hrefused : ∀ token t', sampleIssuer.verify cutRuntime token (tokenContext "user.42" "a1") t' = .ok false :=
    fun token => verify_of_dot (Or.inl (by decide)) token
  obtain ⟨p, hp, ⟨token, htoken⟩, -, -, hexpiry⟩ := sample_issuedFor "a:b:c:900" cutDigest cutDigest_hex "user.42" "a1"
  obtain rfl := List.mem_singleton.1 hp
  have hlate : (0 : ℚ) ≤ sampleIssuer.expiryEpoch cutRuntime 0 := by
    rw [show sampleIssuer.expiryEpoch cutRuntime 0 = 900 from hexpiry]
    norm_num
  refine ⟨⟨token, htoken, hrefused token⟩, hlate, ?_⟩
  rintro ⟨token, -, hworks, -⟩
  cases (hrefused token 0).symm.trans (hworks 0 le_rfl hlate)

end Aimw.Identity
