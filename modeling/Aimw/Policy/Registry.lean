import Aimw.Policy.Migration

/-!
# What is shown and what is allowed

The tools that a registry lists and the calls that the engine of its tier allows, both read off the layers of
`Aimw.Policy.Access`: a registry lists what the layers offer (`static_lists_iff`, `db_lists_iff`), and a call
without parameters is allowed exactly when it is offered (`shown_iff_allowed`).
-/

namespace Aimw.Policy

open Lib

variable {rt : Runtime} {context : ExecutionContext}

/-- Some manifest is for the tool and lists the function. -/
def Lists (manifests : List ToolManifest) (toolName functionName : String) : Prop :=
  ∃ m ∈ manifests, m.toolName = toolName ∧ functionName ∈ m.functions

/-! ## The registries -/

lemma static_offers_iff {R : PolicyRuleSet} {t f : String} : (R.access rt).Offers (roleSet context) t f ↔
    ∃ rule, R.ruleOf t = some rule ∧ (rule.visibleToRoles = [] ∨ hasRole context rule.visibleToRoles = true) ∧
      f ∈ rule.allowedFunctions := by
  constructor
  · rintro ⟨⟨-, ⟨rule, hrule⟩, hvisible⟩, ⟨rule', hrule', hf⟩⟩
    obtain rfl := Option.some.inj (hrule.symm.trans hrule')
    have hset : (R.access rt).visibleTo t = {r | r ∈ rule.visibleToRoles} := by
      simp [PolicyRuleSet.access, hrule]
    rw [hset, setOf_mem_eq_empty_iff, ← hasRole_iff] at hvisible
    exact ⟨rule, hrule, hvisible, hf⟩
  · rintro ⟨rule, hrule, hvisible, hf⟩
    have hset : (R.access rt).visibleTo t = {r | r ∈ rule.visibleToRoles} := by
      simp [PolicyRuleSet.access, hrule]
    refine ⟨⟨by simp [PolicyRuleSet.access], ⟨rule, hrule⟩, ?_⟩, ⟨rule, hrule, hf⟩⟩
    rwa [hset, setOf_mem_eq_empty_iff, ← hasRole_iff]

/-- `_is_tool_visible` of the static registry, for a tool that has rules. -/
lemma static_isToolVisible_iff {R : PolicyRuleSet} {t : String} {rule : ToolRule} (hrule : R.ruleOf t = some rule) :
    R.isToolVisible t context = true ↔ rule.visibleToRoles = [] ∨ hasRole context rule.visibleToRoles = true := by
  unfold PolicyRuleSet.ruleOf at hrule
  split_ifs at hrule with ht
  rw [PolicyRuleSet.isToolVisible, if_neg (not_not.2 ht), hrule]
  by_cases hnil : rule.visibleToRoles = []
  · simp [hnil]
  · simp [hnil]

variable (rt) in
/-- **The static registry lists what the layers offer.** -/
theorem static_lists_iff {R : PolicyRuleSet} {t f : String} :
    Lists (R.getPermittedTools context) t f ↔ (R.access rt).Offers (roleSet context) t f := by
  rw [static_offers_iff]
  constructor
  · rintro ⟨m, hm, rfl, hf⟩
    obtain ⟨t, ht, hentry⟩ := List.mem_filterMap.1 hm
    cases hget : R.tools.get? t with
    | none => simp [hget] at hentry
    | some rule =>
      have hrule : R.ruleOf t = some rule := by rw [PolicyRuleSet.ruleOf, if_pos ht, hget]
      rw [hget] at hentry
      dsimp only at hentry
      split_ifs at hentry with hvisible
      obtain rfl := Option.some.inj hentry
      exact ⟨rule, hrule, (static_isToolVisible_iff hrule).1 hvisible, hf⟩
  · rintro ⟨rule, hrule, hvisible, hf⟩
    have hshown : R.isToolVisible t context = true := (static_isToolVisible_iff hrule).2 hvisible
    unfold PolicyRuleSet.ruleOf at hrule
    split_ifs at hrule with ht
    refine ⟨⟨t, rule.allowedFunctions⟩, List.mem_filterMap.2 ⟨t, ht, ?_⟩, rfl, hf⟩
    rw [hrule]
    exact if_pos hshown

variable (rt) in
/-- **The database registry lists what the layers offer.** -/
theorem db_lists_iff {S : RuleStore} {t f : String} :
    (∃ manifests, S.getPermittedTools rt context = .ok manifests ∧ Lists manifests t f) ↔
      (S.access rt).Offers (roleSet context) t f := by
  rw [getPermittedTools_eq]
  constructor
  · rintro ⟨_, ⟨⟩, m, hm, rfl, hf⟩
    obtain ⟨t, -, hentry⟩ := List.mem_filterMap.1 hm
    split_ifs at hentry with hvisible
    obtain rfl := Option.some.inj hentry
    exact ⟨(isToolVisible_iff rt).1 hvisible, hf⟩
  · rintro ⟨hsees, hf⟩
    refine ⟨_, rfl, ⟨t, S.allowedFunctions t⟩, List.mem_filterMap.2 ⟨t, hsees.2.1, ?_⟩, rfl, hf⟩
    exact if_pos ((isToolVisible_iff rt).2 hsees)

/-! ## The engines -/

/-- The engine of the database tier allows the request. -/
def DbBackedPolicyEngine.Allows (rt : Runtime) (engine : DbBackedPolicyEngine) (context : ExecutionContext)
    (request : ToolRequest) : Prop :=
  ∃ d, engine.evaluate rt context request = .ok d ∧ d.allowed = true

/-- The engine of the database tier denies the request. -/
def DbBackedPolicyEngine.Denies (rt : Runtime) (engine : DbBackedPolicyEngine) (context : ExecutionContext)
    (request : ToolRequest) : Prop :=
  ∃ d, engine.evaluate rt context request = .ok d ∧ d.allowed = false

lemma approve_allowed (b : Bool) : (approve b).allowed = true := by
  cases b <;> rfl

lemma static_allowed_iff (engine : StaticPolicyEngine) (request : ToolRequest) :
    (engine.evaluate rt context request).allowed = true ↔
      missingField rt context engine.ruleset.identityRequiredFields = none ∧
        (engine.ruleset.access rt).Permits (roleSet context) (invocation rt request)
          (engine.callCounter context.sessionId) := by
  rcases static_evaluate_cases rt context request engine with ⟨hmiss, hpermits, heval⟩ | ⟨hnot, reason, heval⟩
  · rw [heval]
    exact iff_of_true (approve_allowed _) ⟨hmiss, hpermits⟩
  · rw [heval]
    exact iff_of_false (by simp [deny]) hnot

lemma db_allows_iff (engine : DbBackedPolicyEngine) (request : ToolRequest) :
    engine.Allows rt context request ↔ missingField rt context identityFields = none ∧
      (engine.store.access rt).Permits (roleSet context) (invocation rt request)
        (engine.callCounter context.sessionId) := by
  unfold DbBackedPolicyEngine.Allows
  rcases db_evaluate_cases rt context request engine with ⟨hmiss, hpermits, heval⟩ | ⟨hnot, h⟩
  · exact iff_of_true ⟨_, heval, approve_allowed _⟩ ⟨hmiss, hpermits⟩
  · refine iff_of_false ?_ hnot
    rintro ⟨d, hd, hallowed⟩
    rcases h with ⟨reason, heval⟩ | ⟨e, -, -, heval⟩
    · obtain rfl := Except.ok.inj (heval.symm.trans hd)
      cases hallowed
    · cases heval.symm.trans hd

/-- A call that is not offered is denied, if the rate limit is a number. -/
lemma db_denies_of_not_offers {engine : DbBackedPolicyEngine} {request : ToolRequest}
    (hoffers : ¬ (engine.store.access rt).Offers (roleSet context) request.toolName request.functionName)
    {limit : ℤ} (hlimit : engine.store.rateLimitPerSession rt.chars = .ok limit) :
    engine.Denies rt context request := by
  rcases db_evaluate_cases rt context request engine with ⟨-, hpermits, -⟩ | ⟨-, ⟨reason, heval⟩ | ⟨e, -, herror, -⟩⟩
  · exact absurd hpermits.offers hoffers
  · exact ⟨_, heval, rfl⟩
  · cases hlimit.symm.trans herror

/-- The request for a function without parameters. -/
def bareRequest (toolName functionName callId : String) : ToolRequest where
  toolName
  functionName
  parameters := Dict.empty
  callId

variable (rt) in
lemma arg_bareRequest (t f callId : String) : ∀ p, (invocation rt (bareRequest t f callId)).arg p = none :=
  fun _ => rfl

/-- **What a context can see is what it can do**, in both tiers. -/
theorem shown_iff_allowed (rt : Runtime) (context : ExecutionContext) (t f callId : String) :
    (∀ engine : StaticPolicyEngine, missingField rt context engine.ruleset.identityRequiredFields = none →
      engine.callCounter context.sessionId < engine.ruleset.rateLimitPerSession →
        (Lists (engine.ruleset.getPermittedTools context) t f ↔
          (engine.evaluate rt context (bareRequest t f callId)).allowed = true) ∧
        (¬ Lists (engine.ruleset.getPermittedTools context) t f →
          ∀ parameters, (engine.evaluate rt context ⟨t, f, parameters, callId⟩).allowed = false)) ∧
      ∀ (engine : DbBackedPolicyEngine) (limit : ℤ), missingField rt context identityFields = none →
        engine.store.rateLimitPerSession rt.chars = .ok limit → engine.callCounter context.sessionId < limit →
          ∃ manifests, engine.store.getPermittedTools rt context = .ok manifests ∧
            (Lists manifests t f ↔ engine.Allows rt context (bareRequest t f callId)) ∧
            (¬ Lists manifests t f → ∀ parameters, engine.Denies rt context ⟨t, f, parameters, callId⟩) := by
  refine ⟨fun engine hmiss hroom => ⟨?_, fun hlists parameters => ?_⟩, fun engine limit hmiss hlimit hroom => ?_⟩
  · rw [static_lists_iff rt, static_allowed_iff,
      AccessRules.permits_iff_offers (arg_bareRequest rt t f callId)]
    exact ⟨fun hoffers => ⟨hmiss, hoffers, hroom⟩, fun h => h.2.1⟩
  · rw [← Bool.not_eq_true, static_allowed_iff]
    rintro ⟨-, hpermits⟩
    exact hlists ((static_lists_iff rt).2 hpermits.offers)
  · refine ⟨_, getPermittedTools_eq engine.store, ?_⟩
    have hlists : Lists (engine.store.tools.filterMap fun t =>
          if engine.store.isToolVisible t context then some ⟨t, engine.store.allowedFunctions t⟩ else none) t f ↔
        (engine.store.access rt).Offers (roleSet context) t f := by
      rw [← db_lists_iff rt, getPermittedTools_eq]
      simp only [Except.ok.injEq, exists_eq_left']
    rw [hlists]
    refine ⟨?_, fun hoffers parameters => db_denies_of_not_offers hoffers hlimit⟩
    rw [db_allows_iff, AccessRules.permits_iff_offers (arg_bareRequest rt t f callId)]
    exact ⟨fun hoffers => ⟨hmiss, hoffers, limit, hlimit, hroom⟩, fun h => h.2.1⟩

/-- What the example rules show to a production admin. -/
def shownToAdmin : List ToolManifest :=
  [⟨"search_tool", ["query"]⟩, ⟨"sql_tool", ["ExecuteReadOnlyQuery", "UpdateCustomerRecord"]⟩,
    ⟨"deploy_tool", ["deploy"]⟩]

lemma lists_shownToAdmin : Lists shownToAdmin "deploy_tool" "deploy" :=
  ⟨⟨"deploy_tool", ["deploy"]⟩, by simp [shownToAdmin], rfl, List.mem_singleton_self _⟩

theorem shown_iff_allowed_deploy :
    ((StaticPolicyEngine.mk exampleRuleset fun _ => 49).evaluate plainRuntime productionAdmin
        (bareRequest "deploy_tool" "deploy" "c1")).allowed = true ∧
      (DbBackedPolicyEngine.mk seedExample fun _ => 49).Allows plainRuntime productionAdmin
        (bareRequest "deploy_tool" "deploy" "c1") := by
  obtain ⟨hstatic, hdb⟩ := shown_iff_allowed plainRuntime productionAdmin "deploy_tool" "deploy" "c1"
  constructor
  · have hshown : exampleRuleset.getPermittedTools productionAdmin = shownToAdmin := rfl
    refine (hstatic ⟨exampleRuleset, fun _ => 49⟩ rfl (by decide)).1.1 ?_
    exact hshown ▸ lists_shownToAdmin
  · have hshown : seedExample.getPermittedTools plainRuntime productionAdmin = .ok shownToAdmin := rfl
    obtain ⟨manifests, hmanifests, hlists, -⟩ := hdb ⟨seedExample, fun _ => 49⟩ 50 rfl rfl (by decide)
    obtain rfl := Except.ok.inj (hshown.symm.trans hmanifests)
    exact hlists.1 lists_shownToAdmin

end Aimw.Policy
