import Aimw.Policy.TornReads

/-!
# Revocation

What one table alone has against a request (`Blocks`).  A store allows what none of its tables blocks
(`allows_iff_unblocked`), and since every table is read in some committed state, a table that blocks in all of them is
enough to deny, whatever the others look like (`updates_respected`).
-/

namespace Aimw.Policy

open Lib Coro

variable {rt : Runtime} {context : ExecutionContext} {request : ToolRequest} {S S' : RuleStore} {X : Table} {n : ℤ}

variable (rt context request) in
/-- The table alone denies the request, in a session with `n` calls. -/
def Blocks (n : ℤ) (S : RuleStore) : Table → Prop
  | .roles => hasRole context S.activeRoles = false
  | .tools => S.toolExists request.toolName = false
  | .toolVisibilityRoles => S.visibilityRoles request.toolName ≠ [] ∧
      hasRole context (S.visibilityRoles request.toolName) = false
  | .toolFunctions => request.functionName ∉ S.allowedFunctions request.toolName
  | .parameterDenyPatterns => matchedPattern rt request (S.denyPatterns request.toolName) ≠ none
  | .parameterRoleGates => closedGate rt context request (S.roleGates request.toolName) ≠ none
  | .settings => ∀ limit, S.rateLimitPerSession rt.chars = .ok limit → limit ≤ n

/-- Whether a table blocks depends on that table. -/
lemma Blocks.congr (hsame : X.Same S S') (h : Blocks rt context request n S X) : Blocks rt context request n S' X := by
  cases X with
  | roles => simpa only [Blocks, RuleStore.activeRoles, show S.roles = S'.roles from hsame] using h
  | tools => simpa only [Blocks, RuleStore.toolExists, show S.tools = S'.tools from hsame] using h
  | toolVisibilityRoles =>
    simpa only [Blocks, RuleStore.visibilityRoles, show S.toolVisibilityRoles = S'.toolVisibilityRoles from hsame] using h
  | toolFunctions =>
    simpa only [Blocks, RuleStore.allowedFunctions, show S.toolFunctions = S'.toolFunctions from hsame] using h
  | parameterDenyPatterns =>
    simpa only [Blocks, RuleStore.denyPatterns, RuleStore.denyPatternRows,
      show S.parameterDenyPatterns = S'.parameterDenyPatterns from hsame] using h
  | parameterRoleGates =>
    simpa only [Blocks, RuleStore.roleGates, RuleStore.roleGateRows,
      show S.parameterRoleGates = S'.parameterRoleGates from hsame] using h
  | settings => simpa only [Blocks, RuleStore.rateLimitPerSession, show S.settings = S'.settings from hsame] using h

/-- **A store allows what none of its tables blocks.** -/
theorem allows_iff_unblocked {callCounter : String → ℤ} :
    (DbBackedPolicyEngine.mk S callCounter).Allows rt context request ↔
      missingField rt context identityFields = none ∧
        ∀ X, ¬ Blocks rt context request (callCounter context.sessionId) S X := by
  rw [db_allows_iff, db_permits_iff]
  constructor
  · rintro ⟨hfields, ⟨hactive, htool, hvisible⟩, hfunction, hpattern, hgate, limit, hlimit, hroom⟩
    refine ⟨hfields, fun X hblocks => ?_⟩
    cases X with
    | roles => exact Bool.false_ne_true (hblocks.symm.trans hactive)
    | tools => exact Bool.false_ne_true (hblocks.symm.trans htool)
    | toolVisibilityRoles =>
      obtain hnil | hrole := hvisible
      · exact hblocks.1 hnil
      · exact Bool.false_ne_true (hblocks.2.symm.trans hrole)
    | toolFunctions => exact hblocks hfunction
    | parameterDenyPatterns => exact hblocks hpattern
    | parameterRoleGates => exact hblocks hgate
    | settings => exact absurd hroom (not_lt.2 (hblocks limit hlimit))
  · rintro ⟨hfields, hnone⟩
    have hvisible := hnone .toolVisibilityRoles
    rw [Blocks, not_and_or, not_not, Bool.not_eq_false] at hvisible
    obtain ⟨limit, hlimit, hroom⟩ : ∃ limit, S.rateLimitPerSession rt.chars = .ok limit ∧
        callCounter context.sessionId < limit := by
      simpa only [Blocks, not_forall, not_le, exists_prop] using hnone .settings
    exact ⟨hfields, ⟨(Bool.not_eq_false _).mp (hnone .roles), (Bool.not_eq_false _).mp (hnone .tools), hvisible⟩,
      not_not.1 (hnone .toolFunctions), not_not.1 (hnone .parameterDenyPatterns),
      not_not.1 (hnone .parameterRoleGates), limit, hlimit, hroom⟩

/-! ## While others commit -/

section Runs

variable {callCounter : String → ℤ} {history history' : List RuleStore} {tr : List ((q : Select) × q.Answer)}
  {r : Except Exc PolicyDecision}

/-- A patchwork is blocked by a table that blocks in all states. -/
lemma patchwork_not_allows {s : Table → RuleStore} (horder : ReadInOrder history s)
    (hblocks : ∀ S ∈ history, Blocks rt context request (callCounter context.sessionId) S X) :
    ¬ (DbBackedPolicyEngine.mk (patchwork s) callCounter).Allows rt context request := by
  intro hallows
  obtain ⟨time, -, htime⟩ := horder
  refine (allows_iff_unblocked.1 hallows).2 X ?_
  exact (hblocks (s X) (List.mem_of_getElem? (htime X))).congr (same_patchwork s X).symm

/-- What no table blocks in any of the states is allowed. -/
theorem allowed_of_unblocked (hfields : missingField rt context identityFields = none)
    (h : Runs (Reading rt.chars) history (evaluateQuery rt context request callCounter) tr r history')
    (hnone : ∀ S ∈ history', ∀ X, ¬ Blocks rt context request (callCounter context.sessionId) S X) :
    ∃ d, r = .ok d ∧ d.allowed = true := by
  -- every state that is read is one of those present in the end
  have hseen : ∀ {α : Type} {past : List RuleStore} {S : RuleStore} {p : Query α} {t : List ((q : Select) × q.Answer)}
      {r : Except Exc α}, past.getLast? = some S → Runs (Reading rt.chars) past p t r history' →
      ∀ X, ¬ Blocks rt context request (callCounter context.sessionId) S X := by
    intro α past S p t r hlast hrun
    exact hnone S (List.mem_of_getElem? (getElem?_of_select hrun hlast))
  unfold evaluateQuery at h
  rw [show missingField rt context ["user_id", "agent_id", "roles"] = none from hfields] at h
  obtain ⟨c₁, S₁, t₁, hlast₁, h⟩ := runs_select h
  rw [if_neg (show hasRole context (S₁.answer rt.chars .activeRoles) ≠ false from hseen hlast₁ h .roles)] at h
  obtain ⟨c₂, S₂, t₂, hlast₂, h⟩ := runs_select h
  rw [if_neg (show S₂.answer rt.chars (.toolExists request.toolName) ≠ false from hseen hlast₂ h .tools)] at h
  obtain ⟨c₃, S₃, t₃, hlast₃, h⟩ := runs_select h
  rw [if_neg (show ¬ (S₃.answer rt.chars (.visibilityRoles request.toolName) ≠ [] ∧
    hasRole context (S₃.answer rt.chars (.visibilityRoles request.toolName)) = false) from
      hseen hlast₃ h .toolVisibilityRoles)] at h
  obtain ⟨c₄, S₄, t₄, hlast₄, h⟩ := runs_select h
  rw [if_neg (show ¬ request.functionName ∉ S₄.answer rt.chars (.allowedFunctions request.toolName) from
    hseen hlast₄ h .toolFunctions)] at h
  obtain ⟨c₅, S₅, t₅, hlast₅, h⟩ := runs_select h
  have hpattern : matchedPattern rt request (S₅.answer rt.chars (.denyPatterns request.toolName)) = none :=
    not_not.1 (hseen hlast₅ h .parameterDenyPatterns)
  rw [hpattern] at h
  obtain ⟨c₆, S₆, t₆, hlast₆, h⟩ := runs_select h
  have hgate : closedGate rt context request (S₆.answer rt.chars (.roleGates request.toolName)) = none :=
    not_not.1 (hseen hlast₆ h .parameterRoleGates)
  rw [hgate] at h
  -- the limit is a number, and the session has not reached it
  have hroom : ∀ {S : RuleStore}, (∀ X, ¬ Blocks rt context request (callCounter context.sessionId) S X) →
      ∃ limit, S.rateLimitPerSession rt.chars = .ok limit ∧ callCounter context.sessionId < limit := by
    intro S hS
    simpa only [Blocks, not_forall, not_le, exists_prop] using hS .settings
  rcases runs_bind_iff.1 h with ⟨e, hlimit, -⟩ | ⟨limit, _, _, t₇, -, hlimit, h⟩
  · obtain ⟨_, -, ⟨c₇, S₇, -, hlast₇, rfl⟩, he⟩ := runs_await_iff.1 hlimit
    obtain ⟨limit, hok, -⟩ := hroom (hnone S₇ (List.mem_of_getLast? hlast₇))
    exact absurd (he.trans hok) (by simp)
  · obtain ⟨_, -, ⟨c₇, S₇, rfl, hlast₇, rfl⟩, hok⟩ := runs_await_iff.1 hlimit
    obtain ⟨limit', hok', hlt⟩ := hroom (hseen hlast₇ h)
    obtain rfl := Except.ok.inj (hok.trans hok')
    rw [if_neg (not_le.2 hlt)] at h
    obtain ⟨_, S₈, _, -, h⟩ := runs_select h
    obtain ⟨-, rfl, -⟩ := runs_ret_iff.1 h
    exact ⟨_, rfl, approve_allowed _⟩

/-- **Live updates are respected.**  Whatever is committed while the engine reads: a request that one table blocks in all
of the states is not allowed, and a request that no table blocks in any of them is allowed; patterns and values are such
that `re.search` and `str` do not raise. -/
theorem updates_respected (h : Runs (Reading rt.chars) history (evaluateQuery rt context request callCounter) tr r history') :
    (∀ X, (∀ S ∈ history', Blocks rt context request (callCounter context.sessionId) S X) →
        ∀ d, r = .ok d → d.allowed = false) ∧
      (missingField rt context identityFields = none →
        (∀ S ∈ history', ∀ X, ¬ Blocks rt context request (callCounter context.sessionId) S X) →
        ∃ d, r = .ok d ∧ d.allowed = true) := by
  constructor
  · rintro X hblocks d rfl
    by_contra hallowed
    obtain ⟨⟨s, horder, hallows⟩, -⟩ := allowed_on_patchwork h (Bool.not_eq_false _ ▸ hallowed)
    exact patchwork_not_allows horder hblocks hallows
  · intro hfields hnone
    exact allowed_of_unblocked hfields h hnone

/-- The function is added while the engine reads, so its table did not block all the time. -/
theorem updates_respected_reindex : ∃ d, d.allowed = true ∧
    Runs (Reading plainRuntime.chars) [seedExample]
      (evaluateQuery plainRuntime executor (bareRequest "search_tool" "reindex" "c1") fun _ => 0)
      (reindexTrace reindexAdded) (.ok d) [seedExample, reindexAdded] ∧
    ¬ ∀ S ∈ [seedExample, reindexAdded],
      Blocks plainRuntime executor (bareRequest "search_tool" "reindex" "c1") 0 S .toolFunctions := by
  have hrun : Runs (Reading plainRuntime.chars) [seedExample]
      (evaluateQuery plainRuntime executor (bareRequest "search_tool" "reindex" "c1") fun _ => 0)
      (reindexTrace reindexAdded) (.ok (approve false)) [seedExample, reindexAdded] := reindex_run (Or.inr rfl)
  refine ⟨approve false, rfl, hrun, fun hblocks => ?_⟩
  cases (updates_respected hrun).1 .toolFunctions hblocks _ rfl

end Runs

end Aimw.Policy
