import Aimw.Policy.Access

/-!
# From the static tier to the database tier

`SameRules R S` says that the tables of `S` hold the rules of `R`, row by row.  For a context with an active role the
two engines then decide alike (`migration_preserves_decisions`): the layers of `R` and of `S` agree on every known
tool (`access_agree`), though the one walks nested dictionaries and the other groups flat rows.
-/

namespace Aimw.Policy

open Lib

variable {rt : Runtime} {context : ExecutionContext} {request : ToolRequest} {R : PolicyRuleSet} {S : RuleStore}

/-- The store holds the rules of the ruleset.  What its other tables say of a tool that is not in `tools` is left
open, as is the order of rows. -/
structure SameRules (R : PolicyRuleSet) (S : RuleStore) : Prop where
  tools : ∀ t, t ∈ S.tools ↔ t ∈ R.allowedTools ∧ t ∈ R.tools.keys
  functions : ∀ t rule, R.ruleOf t = some rule → ∀ f,
    (∃ row ∈ S.toolFunctions, row.toolName = t ∧ row.functionName = f) ↔ f ∈ rule.allowedFunctions
  approval : ∀ t rule, R.ruleOf t = some rule → ∀ row ∈ S.toolFunctions, row.toolName = t →
    (row.requiresApproval ≠ 0 ↔ row.functionName ∈ rule.requiresApprovalFunctions)
  visibility : ∀ t rule, R.ruleOf t = some rule → ∀ r, ⟨t, r⟩ ∈ S.toolVisibilityRoles ↔ r ∈ rule.visibleToRoles
  denyPatterns : ∀ t rule, R.ruleOf t = some rule → ∀ p pat, ⟨t, p, pat⟩ ∈ S.parameterDenyPatterns ↔
    ∃ pats, (p, pats) ∈ rule.parameterDenyPatterns.items ∧ pat ∈ pats
  roleGates : ∀ t rule, R.ruleOf t = some rule → ∀ p v r, ⟨t, p, v, r⟩ ∈ S.parameterRoleGates ↔
    ∃ gate roles, (gate, roles) ∈ rule.requiresRoleFor.items ∧ gateParts gate = (p, v) ∧ r ∈ roles
  rateLimit : ∃ text, pyIntStr R.rateLimitPerSession = some text ∧
    ("rate_limit_per_session", String.ofList text) ∈ S.settings

/-- Every gate is written `param=value` and lets at least one role through. -/
def PolicyRuleSet.GatesWellFormed (R : PolicyRuleSet) : Prop :=
  ∀ t rule, (t, rule) ∈ R.tools.items → ∀ gate roles, (gate, roles) ∈ rule.requiresRoleFor.items →
    '=' ∈ gate.toList ∧ roles ≠ []

/-! ## Gates -/

/-- A key that is taken apart at its first `=` can be put together again. -/
lemma gateParts_join {gate p v : String} (hgate : '=' ∈ gate.toList) (h : gateParts gate = (p, v)) :
    p ++ "=" ++ v = gate := by
  obtain ⟨p', v', heq, hp'⟩ := List.eq_append_cons_of_mem hgate
  rw [gateParts, heq, partition_append hp'] at h
  obtain ⟨rfl, rfl⟩ := Prod.mk.inj h
  apply String.toList_injective
  simp [heq]

/-- Dictionaries that group the same rows have the same gates. -/
lemma gatesOf_congr {d d' : Dict (List String)} {rows : List (String × String)} (h : Dict.Groups d rows)
    (h' : Dict.Groups d' rows) : gatesOf d ⊆ gatesOf d' := by
  rintro g ⟨gate, roles, hmem, rfl⟩
  obtain ⟨hne, hroles⟩ := h.1 gate roles hmem
  obtain ⟨r, hr⟩ := List.exists_mem_of_ne_nil roles hne
  obtain ⟨roles', hmem'⟩ := h'.2 gate r ((hroles r).1 hr)
  refine ⟨gate, roles', hmem', ?_⟩
  have hset : {r | r ∈ roles} = {r | r ∈ roles'} := by
    ext r
    exact (hroles r).trans ((h'.1 gate roles' hmem').2 r).symm
  rw [hset]

/-- The nested dictionary of a rule groups the flat rows of the store. -/
lemma groups_roleGateRows (h : SameRules R S) (hgates : R.GatesWellFormed) {t : String} {rule : ToolRule}
    (hrule : R.ruleOf t = some rule) : Dict.Groups rule.requiresRoleFor (S.roleGateRows t) := by
  have hmem : (t, rule) ∈ R.tools.items := by
    unfold PolicyRuleSet.ruleOf at hrule
    split_ifs at hrule
    exact R.tools.get?_eq_some_iff.1 hrule
  have hrow : ∀ gate r, (gate, r) ∈ S.roleGateRows t ↔
      ∃ roles, (gate, roles) ∈ rule.requiresRoleFor.items ∧ r ∈ roles := by
    intro gate r
    constructor
    · intro hkeyed
      obtain ⟨⟨t', p, v, r'⟩, hfilter, heq⟩ := List.mem_map.1 hkeyed
      obtain ⟨hin, ht⟩ := List.mem_filter.1 hfilter
      obtain rfl : t' = t := by simpa using ht
      obtain ⟨hkey, rfl⟩ := Prod.mk.inj heq
      obtain ⟨gate', roles, hitem, hparts, hr⟩ := (h.roleGates t' rule hrule p v r').1 hin
      have hjoin := gateParts_join (hgates t' rule hmem gate' roles hitem).1 hparts
      exact ⟨roles, hkey ▸ hjoin ▸ hitem, hr⟩
    · rintro ⟨roles, hitem, hr⟩
      have hin := (h.roleGates t rule hrule (gateParts gate).1 (gateParts gate).2 r).2 ⟨gate, roles, hitem, rfl, hr⟩
      have hjoin : (gateParts gate).1 ++ "=" ++ (gateParts gate).2 = gate :=
        gateParts_join (hgates t rule hmem gate roles hitem).1 rfl
      exact List.mem_map.2 ⟨_, List.mem_filter.2 ⟨hin, by simp⟩, Prod.ext hjoin rfl⟩
  constructor
  · intro gate roles hitem
    refine ⟨(hgates t rule hmem gate roles hitem).2, fun r => ?_⟩
    rw [hrow]
    constructor
    · intro hr
      exact ⟨roles, hitem, hr⟩
    · rintro ⟨roles', hitem', hr⟩
      obtain rfl := Option.some.inj
        ((rule.requiresRoleFor.get?_eq_some_iff.2 hitem).symm.trans (rule.requiresRoleFor.get?_eq_some_iff.2 hitem'))
      exact hr
  · intro gate r hr
    obtain ⟨roles, hitem, -⟩ := (hrow gate r).1 hr
    exact ⟨roles, hitem⟩

/-! ## The layers agree -/

lemma known_agree (h : SameRules R S) (t : String) : (∃ rule, R.ruleOf t = some rule) ↔ t ∈ S.tools := by
  rw [h.tools, ← R.tools.get?_isSome_iff, Option.isSome_iff_exists]
  unfold PolicyRuleSet.ruleOf
  by_cases ht : t ∈ R.allowedTools
  · simp only [ht, if_true, true_and]
  · simp only [ht, if_false, false_and, reduceCtorEq, exists_false]

lemma rateLimit_agree (h : SameRules R S) (u : CharTable) : S.rateLimitPerSession u = .ok R.rateLimitPerSession := by
  obtain ⟨text, htext, hrow⟩ := h.rateLimit
  have hlookup := (Dict.lookup_eq_some_iff S.settings_key).2 hrow
  have hint := pyInt_pyIntStr u htext
  simp only [RuleStore.rateLimitPerSession, hlookup, String.toList_ofList, hint]

/-- **On a known tool the nested rules and the flat rows say the same.** -/
lemma access_agree (h : SameRules R S) (hgates : R.GatesWellFormed) {t : String} {rule : ToolRule}
    (hrule : R.ruleOf t = some rule) :
    (R.access rt).visibleTo t = (S.access rt).visibleTo t ∧ (R.access rt).functions t = (S.access rt).functions t ∧
      (R.access rt).forbidden t = (S.access rt).forbidden t ∧ (R.access rt).gates t = (S.access rt).gates t := by
  simp only [PolicyRuleSet.access, RuleStore.access, hrule, Option.some.injEq, exists_eq_left']
  refine ⟨?_, ?_, ?_, ?_⟩
  · ext r
    simp only [Set.mem_ofPred_eq, ← h.visibility t rule hrule, RuleStore.visibilityRoles, List.mem_map, List.mem_filter,
      decide_eq_true_eq]
    constructor
    · intro hrow
      exact ⟨_, ⟨hrow, rfl⟩, rfl⟩
    · rintro ⟨row, ⟨hrow, rfl⟩, rfl⟩
      exact hrow
  · ext f
    simp only [Set.mem_ofPred_eq, ← h.functions t rule hrule, RuleStore.allowedFunctions, List.mem_map, List.mem_filter,
      decide_eq_true_eq, and_assoc]
  · have hrows : ∀ p pat, (p, pat) ∈ S.denyPatternRows t ↔
        ∃ pats, (p, pats) ∈ rule.parameterDenyPatterns.items ∧ pat ∈ pats := by
      intro p pat
      rw [← h.denyPatterns t rule hrule]
      simp only [RuleStore.denyPatternRows, List.mem_map, List.mem_filter, decide_eq_true_eq, Prod.mk.injEq]
      constructor
      · rintro ⟨row, ⟨hrow, rfl⟩, rfl, rfl⟩
        exact hrow
      · intro hrow
        exact ⟨_, ⟨hrow, rfl⟩, rfl, rfl⟩
    ext text
    simp only [Set.mem_ofPred_eq, hrows]
    constructor
    · rintro ⟨_, pats, pat, rfl, hitem, hpat, hs⟩
      exact ⟨pat, ⟨pats, hitem, hpat⟩, hs⟩
    · rintro ⟨pat, ⟨pats, hitem, hpat⟩, hs⟩
      exact ⟨rule, pats, pat, rfl, hitem, hpat, hs⟩
  · have hstatic := groups_roleGateRows h hgates hrule
    have hdb := Dict.groups_group (S.roleGateRows t)
    exact (gatesOf_congr hstatic hdb).antisymm (gatesOf_congr hdb hstatic)

lemma requiresApproval_agree (h : SameRules R S) {t f : String} (hrule : (∃ rule, R.ruleOf t = some rule))
    (hf : f ∈ S.allowedFunctions t) : S.requiresApproval t f = R.needsApproval t f := by
  obtain ⟨rule, hrule⟩ := hrule
  simp only [PolicyRuleSet.needsApproval, hrule, Option.elim_some]
  unfold RuleStore.requiresApproval
  cases hfind : S.toolFunctions.find? fun r => r.toolName = t ∧ r.functionName = f with
  | none =>
    obtain ⟨row, hrow, rfl⟩ := List.mem_map.1 hf
    obtain ⟨hrow, ht⟩ := List.mem_filter.1 hrow
    exact absurd (decide_eq_true ⟨of_decide_eq_true ht, rfl⟩) (List.find?_eq_none.1 hfind row hrow)
  | some row =>
    have hrow := List.mem_of_find?_eq_some hfind
    obtain ⟨rfl, rfl⟩ : row.toolName = t ∧ row.functionName = f := by simpa using List.find?_some hfind
    have hiff := h.approval row.toolName rule hrule row hrow rfl
    by_cases hne : row.requiresApproval ≠ 0
    · simp [hne, hiff.1 hne]
    · simp [not_not.1 hne, mt hiff.2 hne]

/-! ## The engines agree -/

lemma missingField_eq_none_iff {fields : List String} :
    missingField rt context fields = none ↔ ∀ field ∈ fields, hasField rt context field = true := by
  simp [missingField]

/-- **Migration preserves decisions**, for the contexts that the global layer lets in. -/
theorem migration_preserves_decisions (hfields : ∀ field, field ∈ R.identityRequiredFields ↔ field ∈ identityFields)
    (hgates : R.GatesWellFormed) (hsame : SameRules R S) (hactive : ∃ r ∈ context.roles, r ∈ S.activeRoles)
    (callCounter : String → ℤ) :
    ∃ d, (DbBackedPolicyEngine.mk S callCounter).evaluate rt context request = .ok d ∧
      d.allowed = ((StaticPolicyEngine.mk R callCounter).evaluate rt context request).allowed ∧
      d.actionRequirements = ((StaticPolicyEngine.mk R callCounter).evaluate rt context request).actionRequirements := by
  have hmiss : missingField rt context R.identityRequiredFields = none ↔
      missingField rt context identityFields = none := by
    simp only [missingField_eq_none_iff, hfields]
  have hplatform : ∀ required ∈ (S.access rt).platform, Meets (roleSet context) required := by
    rintro _ rfl
    obtain ⟨r, hr, hmem⟩ := hactive
    exact ⟨r, hmem, hr⟩
  have hlimit := rateLimit_agree hsame rt.chars
  have hpermits : (R.access rt).Permits (roleSet context) (invocation rt request) (callCounter context.sessionId) ↔
      (S.access rt).Permits (roleSet context) (invocation rt request) (callCounter context.sessionId) := by
    refine AccessRules.permits_congr ?_ (known_agree hsame request.toolName) ?_ ?_
    · exact iff_of_true (fun required hr => absurd hr (Set.notMem_empty required)) hplatform
    · rintro ⟨rule, hrule⟩
      exact access_agree hsame hgates hrule
    · ext n
      simp [PolicyRuleSet.access, RuleStore.access, hlimit]
  rcases static_evaluate_cases rt context request ⟨R, callCounter⟩ with
    ⟨hm, hp, hstatic⟩ | ⟨hnot, reason, hstatic⟩ <;>
  rcases db_evaluate_cases rt context request ⟨S, callCounter⟩ with
    ⟨hm', hp', hdb⟩ | ⟨hnot', hres⟩
  · -- both approve, with the same need for a human
    have hneeds : S.requiresApproval request.toolName request.functionName =
        R.needsApproval request.toolName request.functionName := requiresApproval_agree hsame hp.sees.2.1 hp'.open_
    refine ⟨_, hdb, ?_, ?_⟩ <;> rw [hstatic]
    · exact congrArg (fun b => (approve b).allowed) hneeds
    · exact congrArg (fun b => (approve b).actionRequirements) hneeds
  · exact absurd ⟨hmiss.1 hm, hpermits.1 hp⟩ hnot'
  · exact absurd ⟨hmiss.2 hm', hpermits.2 hp'⟩ hnot
  · -- both deny
    rcases hres with ⟨reason', hdb⟩ | ⟨e, -, he, -⟩
    · exact ⟨_, hdb, by rw [hstatic]; rfl, by rw [hstatic]; rfl⟩
    · exact absurd (hlimit.symm.trans he) (by simp)

/-! ### The example rules -/

def searchRule : ToolRule where
  toolName := "search_tool"
  allowedFunctions := ["query"]

def sqlRule : ToolRule where
  toolName := "sql_tool"
  allowedFunctions := ["ExecuteReadOnlyQuery", "UpdateCustomerRecord"]
  parameterDenyPatterns := ⟨[("query", ["(?i)(DROP|DELETE|TRUNCATE|ALTER)"])], by decide⟩

def deployRule : ToolRule where
  toolName := "deploy_tool"
  allowedFunctions := ["deploy"]
  visibleToRoles := ["DeployEngineer", "ProductionAdmin"]
  requiresRoleFor := ⟨[("environment=production", ["ProductionAdmin"])], by decide⟩
  requiresApprovalFunctions := ["deploy"]

/-- `configs/policy.example.yaml`. -/
def exampleRuleset : PolicyRuleSet where
  allowedTools := ["search_tool", "sql_tool", "deploy_tool"]
  tools := ⟨[("search_tool", searchRule), ("sql_tool", sqlRule), ("deploy_tool", deployRule)], by decide⟩

lemma exampleRuleset_items {t : String} {rule : ToolRule} (h : (t, rule) ∈ exampleRuleset.tools.items) :
    (t = "search_tool" ∧ rule = searchRule) ∨ (t = "sql_tool" ∧ rule = sqlRule) ∨
      (t = "deploy_tool" ∧ rule = deployRule) := by
  simpa [exampleRuleset] using h

lemma exampleRuleset_ruleOf {t : String} {rule : ToolRule} (h : exampleRuleset.ruleOf t = some rule) :
    (t = "search_tool" ∧ rule = searchRule) ∨ (t = "sql_tool" ∧ rule = sqlRule) ∨
      (t = "deploy_tool" ∧ rule = deployRule) := by
  unfold PolicyRuleSet.ruleOf at h
  split_ifs at h
  exact exampleRuleset_items (exampleRuleset.tools.get?_eq_some_iff.1 h)

lemma exampleRuleset_gates : exampleRuleset.GatesWellFormed := by
  intro t rule hmem gate roles hitem
  rcases exampleRuleset_items hmem with ⟨-, rfl⟩ | ⟨-, rfl⟩ | ⟨-, rfl⟩
  · exact absurd hitem List.not_mem_nil
  · exact absurd hitem List.not_mem_nil
  · obtain ⟨rfl, rfl⟩ := Prod.mk.inj (List.mem_singleton.1 hitem)
    exact ⟨by decide, by decide⟩

lemma gateParts_environment : gateParts "environment=production" = ("environment", "production") := rfl

/-- `seed_example` keeps its word: it seeds the rules of the example file. -/
theorem sameRules_seedExample : SameRules exampleRuleset seedExample where
  tools t := by simp [seedExample, exampleRuleset, Dict.keys]
  functions t rule h f := by
    rcases exampleRuleset_ruleOf h with ⟨rfl, rfl⟩ | ⟨rfl, rfl⟩ | ⟨rfl, rfl⟩ <;>
      simp [seedExample, searchRule, sqlRule, deployRule, eq_comm]
  approval t rule h row hrow ht := by
    have hrows : row = ⟨"search_tool", "query", 0⟩ ∨ row = ⟨"sql_tool", "ExecuteReadOnlyQuery", 0⟩ ∨
        row = ⟨"sql_tool", "UpdateCustomerRecord", 0⟩ ∨ row = ⟨"deploy_tool", "deploy", 1⟩ := by
      simpa [seedExample] using hrow
    subst ht
    rcases exampleRuleset_ruleOf h with ⟨ht, rfl⟩ | ⟨ht, rfl⟩ | ⟨ht, rfl⟩ <;>
      rcases hrows with rfl | rfl | rfl | rfl <;> simp [searchRule, sqlRule, deployRule] at ht ⊢
  visibility t rule h r := by
    rcases exampleRuleset_ruleOf h with ⟨rfl, rfl⟩ | ⟨rfl, rfl⟩ | ⟨rfl, rfl⟩ <;>
      simp [seedExample, searchRule, sqlRule, deployRule]
  denyPatterns t rule h p pat := by
    rcases exampleRuleset_ruleOf h with ⟨rfl, rfl⟩ | ⟨rfl, rfl⟩ | ⟨rfl, rfl⟩ <;>
      simp [seedExample, searchRule, sqlRule, deployRule, Dict.empty]
  roleGates t rule h p v r := by
    rcases exampleRuleset_ruleOf h with ⟨rfl, rfl⟩ | ⟨rfl, rfl⟩ | ⟨rfl, rfl⟩ <;>
      simp [seedExample, searchRule, sqlRule, deployRule, Dict.empty, gateParts_environment, eq_comm, and_assoc]
  rateLimit := ⟨"50".toList, by decide, by decide⟩

def productionAdmin : ExecutionContext where
  userId := "u1"
  agentId := "a1"
  sessionId := "s1"
  roles := ["ProductionAdmin"]

def deployToProduction : ToolRequest where
  toolName := "deploy_tool"
  functionName := "deploy"
  parameters := ⟨[("environment", .str "production")], by decide⟩
  callId := "c1"

theorem migration_preserves_decisions_deploy :
    ∃ d, (DbBackedPolicyEngine.mk seedExample fun _ => 49).evaluate plainRuntime productionAdmin deployToProduction =
        .ok d ∧ d.allowed = true ∧ d.actionRequirements = ["human_approval"] :=
  migration_preserves_decisions (R := exampleRuleset) (fun _ => Iff.rfl) exampleRuleset_gates sameRules_seedExample
    ⟨"ProductionAdmin", by decide, by decide⟩ fun _ => 49

end Aimw.Policy
