import Aimw.Policy.Registry

/-!
# The layers of a ruleset

What `StaticPolicyEngine` allows, as one conjunction that does not depend on any order:

* `PolicyRuleSet.Grants`, `static_allowed_iff_grants`: every layer lets the call through;
* `PolicyRuleSet.Reordered`, `Grants.reorder`: the same rules in another order let through the same calls.

The roles of a context enter the layers under existentials only; `roles_monotone` is about both tiers.
-/

namespace Aimw.Policy

open Lib

variable {rt : Runtime} {context : ExecutionContext} {request : ToolRequest}

/-! ## The conjunction -/

variable (rt context request) in
/-- The rules of the tool let the call through. -/
structure ToolRule.Grants (rule : ToolRule) : Prop where
  visible : rule.visibleToRoles = [] ∨ ∃ role ∈ rule.visibleToRoles, role ∈ context.roles
  function : request.functionName ∈ rule.allowedFunctions
  clean : ∀ param patterns, (param, patterns) ∈ rule.parameterDenyPatterns.items →
    ∀ value, request.parameters.get? param = some value → value ≠ .none →
      ∀ pattern ∈ patterns, rt.search pattern (rt.str value) = false
  gated : ∀ gate required, (gate, required) ∈ rule.requiresRoleFor.items →
    ∀ value, request.parameters.get? (gateParts gate).1 = some value → value ≠ .none →
      rt.str value = (gateParts gate).2 → ∃ role ∈ required, role ∈ context.roles

variable (rt context request) in
/-- All layers of the ruleset let the call through, with so many calls before it. -/
structure PolicyRuleSet.Grants (R : PolicyRuleSet) (calls : ℤ) : Prop where
  identity : ∀ field ∈ R.identityRequiredFields, hasField rt context field = true
  allowed : request.toolName ∈ R.allowedTools
  tool : ∃ rule, R.tools.get? request.toolName = some rule ∧ rule.Grants rt context request
  room : calls < R.rateLimitPerSession

lemma hasRole_eq_true_iff {roles : List String} :
    hasRole context roles = true ↔ ∃ role ∈ roles, role ∈ context.roles := by
  simp [hasRole]

lemma argument_eq_some_iff {param text : String} : argument rt request param = some text ↔
    ∃ value, request.parameters.get? param = some value ∧ value ≠ .none ∧ rt.str value = text := by
  unfold argument
  split <;> simp_all

lemma ToolRule.grants_iff {rule : ToolRule} : rule.Grants rt context request ↔
    (rule.visibleToRoles = [] ∨ hasRole context rule.visibleToRoles = true) ∧
      request.functionName ∈ rule.allowedFunctions ∧ matchedPattern rt request rule.parameterDenyPatterns = none ∧
      closedGate rt context request rule.requiresRoleFor = none := by
  rw [hasRole_eq_true_iff, matchedPattern_eq_none_iff, closedGate_eq_none_iff]
  constructor
  · rintro ⟨hvisible, hfn, hclean, hgated⟩
    refine ⟨hvisible, hfn, ?_, ?_⟩
    · intro param text harg patterns pattern hmem hpattern
      obtain ⟨value, hget, hne, rfl⟩ := argument_eq_some_iff.1 harg
      exact hclean param patterns hmem value hget hne pattern hpattern
    · intro gate required hmem harg
      obtain ⟨value, hget, hne, htext⟩ := argument_eq_some_iff.1 harg
      exact hgated gate required hmem value hget hne htext
  · rintro ⟨hvisible, hfn, hclean, hgated⟩
    refine ⟨hvisible, hfn, ?_, ?_⟩
    · intro param patterns hmem value hget hne pattern hpattern
      exact hclean param _ (argument_eq_some_iff.2 ⟨value, hget, hne, rfl⟩) patterns pattern hmem hpattern
    · intro gate required hmem value hget hne htext
      exact hgated gate required hmem (argument_eq_some_iff.2 ⟨value, hget, hne, htext⟩)

/-- The conjunction is what the layers permit. -/
lemma PolicyRuleSet.grants_iff {R : PolicyRuleSet} {calls : ℤ} : R.Grants rt context request calls ↔
    missingField rt context R.identityRequiredFields = none ∧
      (R.access rt).Permits (roleSet context) (invocation rt request) calls := by
  rw [missingField_eq_none_iff]
  constructor
  · rintro ⟨hidentity, hallowed, ⟨rule, hget, hrule⟩, hroom⟩
    have hruleOf : R.ruleOf request.toolName = some rule := by
      rw [PolicyRuleSet.ruleOf, if_pos hallowed, hget]
    obtain ⟨hvisible, hfn, hclean, hgated⟩ := ToolRule.grants_iff.1 hrule
    exact ⟨hidentity, (static_permits_iff hruleOf).2 ⟨hvisible, hfn, hclean, hgated, hroom⟩⟩
  · rintro ⟨hidentity, hpermits⟩
    obtain ⟨rule, hruleOf⟩ := hpermits.sees.2.1
    obtain ⟨hvisible, hfn, hclean, hgated, hroom⟩ := (static_permits_iff hruleOf).1 hpermits
    rw [show (invocation rt request).tool = request.toolName from rfl, PolicyRuleSet.ruleOf] at hruleOf
    split_ifs at hruleOf with hallowed
    exact ⟨hidentity, hallowed, ⟨rule, hruleOf, ToolRule.grants_iff.2 ⟨hvisible, hfn, hclean, hgated⟩⟩, hroom⟩

theorem static_allowed_iff_grants (engine : StaticPolicyEngine) :
    (engine.evaluate rt context request).allowed = true ↔
      engine.ruleset.Grants rt context request (engine.callCounter context.sessionId) := by
  rw [static_allowed_iff, PolicyRuleSet.grants_iff]

lemma approve_actionRequirements (b : Bool) :
    (approve b).actionRequirements = if b then ["human_approval"] else [] := by
  cases b <;> rfl

/-- An allowed call needs an approval iff its function is listed for one; a denied one asks for nothing. -/
lemma static_actionRequirements (engine : StaticPolicyEngine) :
    (engine.evaluate rt context request).actionRequirements =
      if (engine.evaluate rt context request).allowed = true ∧
          engine.ruleset.needsApproval request.toolName request.functionName = true then ["human_approval"]
      else [] := by
  rcases static_evaluate_cases rt context request engine with ⟨-, -, heval⟩ | ⟨-, reason, heval⟩
  · rw [heval, approve_actionRequirements, approve_allowed]
    simp only [true_and]
  · rw [heval]
    rfl

lemma needsApproval_eq {R : PolicyRuleSet} {rule : ToolRule} {t f : String} (hallowed : t ∈ R.allowedTools)
    (hget : R.tools.get? t = some rule) : R.needsApproval t f = decide (f ∈ rule.requiresApprovalFunctions) := by
  rw [PolicyRuleSet.needsApproval, PolicyRuleSet.ruleOf, if_pos hallowed, hget]
  rfl

/-! ## The order of the rules -/

/-- The same rules of a tool, in another order. -/
structure ToolRule.Reordered (rule rule' : ToolRule) : Prop where
  toolName : rule.toolName = rule'.toolName
  allowedFunctions : rule.allowedFunctions.Perm rule'.allowedFunctions
  visibleToRoles : rule.visibleToRoles.Perm rule'.visibleToRoles
  parameterDenyPatterns : Dict.Reordered List.Perm rule.parameterDenyPatterns rule'.parameterDenyPatterns
  requiresRoleFor : Dict.Reordered List.Perm rule.requiresRoleFor rule'.requiresRoleFor
  requiresApprovalFunctions : rule.requiresApprovalFunctions.Perm rule'.requiresApprovalFunctions

/-- The same ruleset, in another order. -/
structure PolicyRuleSet.Reordered (R R' : PolicyRuleSet) : Prop where
  identityRequiredFields : R.identityRequiredFields.Perm R'.identityRequiredFields
  allowedTools : R.allowedTools.Perm R'.allowedTools
  tools : Dict.Reordered ToolRule.Reordered R.tools R'.tools
  rateLimitPerSession : R.rateLimitPerSession = R'.rateLimitPerSession

theorem ToolRule.Reordered.symm {rule rule' : ToolRule} (h : rule.Reordered rule') : rule'.Reordered rule where
  toolName := h.toolName.symm
  allowedFunctions := h.allowedFunctions.symm
  visibleToRoles := h.visibleToRoles.symm
  parameterDenyPatterns := h.parameterDenyPatterns.symm fun _ _ => List.Perm.symm
  requiresRoleFor := h.requiresRoleFor.symm fun _ _ => List.Perm.symm
  requiresApprovalFunctions := h.requiresApprovalFunctions.symm

theorem PolicyRuleSet.Reordered.symm {R R' : PolicyRuleSet} (h : R.Reordered R') : R'.Reordered R where
  identityRequiredFields := h.identityRequiredFields.symm
  allowedTools := h.allowedTools.symm
  tools := h.tools.symm fun _ _ => ToolRule.Reordered.symm
  rateLimitPerSession := h.rateLimitPerSession.symm

/-- Contexts and requests that differ in the order of the roles and of the parameters. -/
structure SameCall (context context' : ExecutionContext) (request request' : ToolRequest) : Prop where
  context : ∃ roles, context.roles.Perm roles ∧ context' = { context with roles }
  request : ∃ parameters : Dict PyVal, request.parameters.items.Perm parameters.items ∧
    request' = { request with parameters }

section SameCall

variable {context' : ExecutionContext} {request' : ToolRequest}

theorem SameCall.symm (h : SameCall context context' request request') :
    SameCall context' context request' request := by
  obtain ⟨⟨roles, hroles, rfl⟩, ⟨parameters, hparameters, rfl⟩⟩ := h
  exact ⟨⟨context.roles, hroles.symm, rfl⟩, ⟨request.parameters, hparameters.symm, rfl⟩⟩

lemma SameCall.mem_roles (h : SameCall context context' request request') {role : String} :
    role ∈ context.roles ↔ role ∈ context'.roles := by
  obtain ⟨⟨roles, hroles, rfl⟩, -⟩ := h
  exact hroles.mem_iff

lemma SameCall.get? (h : SameCall context context' request request') (param : String) :
    request.parameters.get? param = request'.parameters.get? param := by
  obtain ⟨-, ⟨parameters, hparameters, rfl⟩⟩ := h
  exact Dict.get?_of_perm hparameters param

/-- Roles count as a field when there are any. -/
lemma hasField_of_roles {roles : List String} (h : context.roles ≠ [] → roles ≠ []) {field : String}
    (hfield : hasField rt context field = true) : hasField rt { context with roles } field = true := by
  unfold hasField at hfield ⊢
  split_ifs at hfield ⊢ <;> try exact hfield
  simp only [Bool.not_eq_true', List.isEmpty_eq_false_iff] at hfield ⊢
  exact h hfield

lemma SameCall.hasField (h : SameCall context context' request request') {field : String}
    (hfield : hasField rt context field = true) : hasField rt context' field = true := by
  obtain ⟨⟨roles, hroles, rfl⟩, -⟩ := h
  refine hasField_of_roles (fun hne hnil => ?_) hfield
  rw [hnil] at hroles
  exact hne hroles.eq_nil

lemma ToolRule.Grants.reorder {rule rule' : ToolRule} (hrule : rule.Reordered rule')
    (hcall : SameCall context context' request request') (h : rule.Grants rt context request) :
    rule'.Grants rt context' request' where
  visible := by
    rcases h.visible with hnil | ⟨role, hrole, hmem⟩
    · have hperm := hrule.visibleToRoles
      rw [hnil] at hperm
      exact Or.inl hperm.symm.eq_nil
    · exact Or.inr ⟨role, hrule.visibleToRoles.mem_iff.1 hrole, hcall.mem_roles.1 hmem⟩
  function := by
    obtain ⟨-, ⟨parameters, -, rfl⟩⟩ := hcall
    exact hrule.allowedFunctions.mem_iff.1 h.function
  clean := by
    intro param patterns hmem value hget hne pattern hpattern
    obtain ⟨patterns', hmem', hperm⟩ := hrule.symm.parameterDenyPatterns.mem hmem
    rw [← hcall.get?] at hget
    exact h.clean param patterns' hmem' value hget hne pattern (hperm.mem_iff.1 hpattern)
  gated := by
    intro gate required hmem value hget hne htext
    obtain ⟨required', hmem', hperm⟩ := hrule.symm.requiresRoleFor.mem hmem
    rw [← hcall.get?] at hget
    obtain ⟨role, hrole, hhas⟩ := h.gated gate required' hmem' value hget hne htext
    exact ⟨role, hperm.mem_iff.2 hrole, hcall.mem_roles.1 hhas⟩

theorem PolicyRuleSet.Grants.reorder {R R' : PolicyRuleSet} {calls : ℤ} (hR : R.Reordered R')
    (hcall : SameCall context context' request request') (h : R.Grants rt context request calls) :
    R'.Grants rt context' request' calls where
  identity := by
    intro field hfield
    exact hcall.hasField (h.identity field (hR.identityRequiredFields.mem_iff.2 hfield))
  allowed := by
    obtain ⟨-, ⟨parameters, -, rfl⟩⟩ := hcall
    exact hR.allowedTools.mem_iff.1 h.allowed
  tool := by
    obtain ⟨rule, hget, hrule⟩ := h.tool
    obtain ⟨rule', hget', hreordered⟩ := hR.tools.get? hget
    refine ⟨rule', ?_, hrule.reorder hreordered hcall⟩
    obtain ⟨-, ⟨parameters, -, rfl⟩⟩ := hcall
    exact hget'
  room := hR.rateLimitPerSession ▸ h.room

end SameCall

lemma PolicyRuleSet.Reordered.needsApproval {R R' : PolicyRuleSet} (h : R.Reordered R') {t f : String}
    (hneeds : R.needsApproval t f = true) : R'.needsApproval t f = true := by
  unfold PolicyRuleSet.needsApproval PolicyRuleSet.ruleOf at hneeds
  split_ifs at hneeds with hallowed
  · cases hget : R.tools.get? t with
    | none => simp [hget] at hneeds
    | some rule =>
      rw [hget] at hneeds
      obtain ⟨rule', hget', hreordered⟩ := h.tools.get? hget
      rw [needsApproval_eq (h.allowedTools.mem_iff.1 hallowed) hget', decide_eq_true_eq,
        ← hreordered.requiresApprovalFunctions.mem_iff]
      simpa using hneeds
  · simp at hneeds

/-- **The layers of the static tier are enforced, in whatever order they are written.** -/
theorem static_enforces_layers (rt : Runtime) (engine : StaticPolicyEngine) (context : ExecutionContext)
    (request : ToolRequest) :
    ((engine.evaluate rt context request).allowed = true ↔
        engine.ruleset.Grants rt context request (engine.callCounter context.sessionId)) ∧
      ((engine.evaluate rt context request).allowed = true →
        ∀ rule, engine.ruleset.tools.get? request.toolName = some rule →
          (engine.evaluate rt context request).actionRequirements =
            if request.functionName ∈ rule.requiresApprovalFunctions then ["human_approval"] else []) ∧
      ∀ (ruleset : PolicyRuleSet) (context' : ExecutionContext) (request' : ToolRequest),
        engine.ruleset.Reordered ruleset → SameCall context context' request request' →
          ({ engine with ruleset }.evaluate rt context' request').allowed =
              (engine.evaluate rt context request).allowed ∧
            ({ engine with ruleset }.evaluate rt context' request').actionRequirements =
              (engine.evaluate rt context request).actionRequirements := by
  refine ⟨static_allowed_iff_grants engine, fun hallowed rule hget => ?_, ?_⟩
  · have hmem := ((static_allowed_iff_grants engine).1 hallowed).allowed
    rw [static_actionRequirements, needsApproval_eq hmem hget]
    simp only [hallowed, true_and, decide_eq_true_eq]
  · intro ruleset context' request' hR hcall
    have hallowed : ({ engine with ruleset }.evaluate rt context' request').allowed =
        (engine.evaluate rt context request).allowed := by
      have hsession : context'.sessionId = context.sessionId := by
        obtain ⟨⟨roles, -, rfl⟩, -⟩ := hcall
        rfl
      rw [Bool.eq_iff_iff, static_allowed_iff_grants, static_allowed_iff_grants, hsession]
      exact ⟨fun h => h.reorder hR.symm hcall.symm, fun h => h.reorder hR hcall⟩
    have hneeds : ruleset.needsApproval request'.toolName request'.functionName =
        engine.ruleset.needsApproval request.toolName request.functionName := by
      obtain ⟨-, ⟨parameters, -, rfl⟩⟩ := hcall
      exact Bool.eq_iff_iff.2 ⟨hR.symm.needsApproval, hR.needsApproval⟩
    refine ⟨hallowed, ?_⟩
    rw [static_actionRequirements, static_actionRequirements, hallowed, hneeds]

lemma reordered_refl (rule : ToolRule) : rule.Reordered rule where
  toolName := rfl
  allowedFunctions := List.Perm.refl _
  visibleToRoles := List.Perm.refl _
  parameterDenyPatterns := Dict.reordered_of_perm List.Perm.refl (List.Perm.refl _)
  requiresRoleFor := Dict.reordered_of_perm List.Perm.refl (List.Perm.refl _)
  requiresApprovalFunctions := List.Perm.refl _

/-- The example rules, last tool first. -/
def reversedRuleset : PolicyRuleSet where
  identityRequiredFields := ["roles", "agent_id", "user_id"]
  allowedTools := ["deploy_tool", "sql_tool", "search_tool"]
  tools := ⟨[("deploy_tool", deployRule), ("sql_tool", sqlRule), ("search_tool", searchRule)], by decide⟩

lemma reordered_reversedRuleset : exampleRuleset.Reordered reversedRuleset where
  identityRequiredFields := List.reverse_perm ["roles", "agent_id", "user_id"]
  allowedTools := List.reverse_perm reversedRuleset.allowedTools
  tools := Dict.reordered_of_perm reordered_refl (List.reverse_perm reversedRuleset.tools.items)
  rateLimitPerSession := rfl

/-- A deployment to production passes the gate, and is decided as by the rules in their order. -/
theorem static_enforces_layers_deploy :
    ((StaticPolicyEngine.mk exampleRuleset fun _ => 49).evaluate plainRuntime productionAdmin
        deployToProduction).actionRequirements = ["human_approval"] ∧
      ((StaticPolicyEngine.mk reversedRuleset fun _ => 49).evaluate plainRuntime productionAdmin
        deployToProduction).allowed = true ∧
      ((StaticPolicyEngine.mk exampleRuleset fun _ => 49).evaluate plainRuntime
        { productionAdmin with roles := ["DeployEngineer"] } deployToProduction).allowed = false := by
  obtain ⟨-, hrequirements, hreordered⟩ := static_enforces_layers plainRuntime ⟨exampleRuleset, fun _ => 49⟩
    productionAdmin deployToProduction
  have hsame : SameCall productionAdmin productionAdmin deployToProduction deployToProduction :=
    ⟨⟨_, List.Perm.refl _, rfl⟩, ⟨_, List.Perm.refl _, rfl⟩⟩
  refine ⟨hrequirements rfl deployRule rfl, (hreordered reversedRuleset _ _ reordered_reversedRuleset hsame).1, ?_⟩
  rw [Bool.eq_false_iff, ne_eq, (static_enforces_layers plainRuntime ⟨exampleRuleset, fun _ => 49⟩
    { productionAdmin with roles := ["DeployEngineer"] } deployToProduction).1]
  rintro ⟨-, -, ⟨rule, hget, hrule⟩, -⟩
  -- an engineer does not have the role that the gate asks for
  obtain rfl : deployRule = rule := Option.some.inj hget
  obtain ⟨role, hrole, hhas⟩ := hrule.gated "environment=production" ["ProductionAdmin"] (List.mem_singleton_self _)
    (.str "production") rfl (by simp) rfl
  obtain rfl := List.mem_singleton.1 hrole
  exact absurd hhas (by decide)

/-! ## More roles -/

section MoreRoles

variable {roles : List String} (hroles : ∀ role ∈ context.roles, role ∈ roles)
include hroles

lemma roleSet_subset : roleSet context ⊆ roleSet { context with roles } := hroles

lemma hasRole_mono {required : List String} (h : hasRole context required = true) :
    hasRole { context with roles } required = true := by
  rw [hasRole_iff] at h ⊢
  exact h.mono (roleSet_subset hroles)

lemma missingField_mono {fields : List String} (h : missingField rt context fields = none) :
    missingField rt { context with roles } fields = none := by
  rw [missingField_eq_none_iff] at h ⊢
  intro field hfield
  refine hasField_of_roles (fun hne hnil => hne ?_) (h field hfield)
  rw [hnil] at hroles
  exact List.eq_nil_iff_forall_not_mem.2 fun role hrole => absurd (hroles role hrole) List.not_mem_nil

lemma static_evaluate_mono (engine : StaticPolicyEngine) (h : (engine.evaluate rt context request).allowed = true) :
    engine.evaluate rt { context with roles } request = engine.evaluate rt context request := by
  rcases static_evaluate_cases rt context request engine with ⟨hmiss, hpermits, heval⟩ | ⟨-, reason, heval⟩
  · rcases static_evaluate_cases rt { context with roles } request engine with ⟨-, -, heval'⟩ | ⟨hnot, -⟩
    · rw [heval, heval']
    · exact absurd ⟨missingField_mono hroles hmiss, hpermits.mono (roleSet_subset hroles)⟩ hnot
  · rw [heval] at h
    cases h

lemma db_evaluate_mono (engine : DbBackedPolicyEngine) {d : PolicyDecision}
    (h : engine.evaluate rt context request = .ok d) (hallowed : d.allowed = true) :
    engine.evaluate rt { context with roles } request = .ok d := by
  have hallows : engine.Allows rt context request := ⟨d, h, hallowed⟩
  rcases db_evaluate_cases rt context request engine with ⟨hmiss, hpermits, heval⟩ | ⟨hnot, -⟩
  · rcases db_evaluate_cases rt { context with roles } request engine with ⟨-, -, heval'⟩ | ⟨hnot, -⟩
    · rw [← h, heval, heval']
    · exact absurd ⟨missingField_mono hroles hmiss, hpermits.mono (roleSet_subset hroles)⟩ hnot
  · exact absurd ((db_allows_iff engine request).1 hallows) hnot

omit hroles in
lemma filterMap_sublist_filterMap {α β : Type} {f g : α → Option β} (hfg : ∀ a b, f a = some b → g a = some b)
    (l : List α) : (l.filterMap f).Sublist (l.filterMap g) := by
  induction l with
  | nil => exact List.Sublist.refl _
  | cons a l ih =>
    rw [List.filterMap_cons, List.filterMap_cons]
    cases hf : f a with
    | none =>
      cases hg : g a with
      | none => exact ih
      | some b => exact ih.cons b
    | some b =>
      rw [hfg a b hf]
      exact ih.cons_cons b

lemma static_isToolVisible_mono {R : PolicyRuleSet} {t : String} (h : R.isToolVisible t context = true) :
    R.isToolVisible t { context with roles } = true := by
  unfold PolicyRuleSet.isToolVisible at h ⊢
  split_ifs at h ⊢ with ht
  cases hget : R.tools.get? t with
  | none => simp [hget] at h
  | some rule =>
    rw [hget] at h
    dsimp only at h ⊢
    split_ifs at h ⊢ with hnil
    · rfl
    · exact hasRole_mono hroles h

lemma static_getPermittedTools_mono (R : PolicyRuleSet) :
    (R.getPermittedTools context).Sublist (R.getPermittedTools { context with roles }) := by
  refine filterMap_sublist_filterMap (fun t manifest hmanifest => ?_) R.allowedTools
  cases hget : R.tools.get? t with
  | none => simp [hget] at hmanifest
  | some rule =>
    rw [hget] at hmanifest
    dsimp only at hmanifest ⊢
    split_ifs at hmanifest with hvisible
    rw [if_pos (static_isToolVisible_mono hroles hvisible)]
    exact hmanifest

lemma db_getPermittedTools_mono (S : RuleStore) :
    ∃ tools tools', S.getPermittedTools rt context = .ok tools ∧
      S.getPermittedTools rt { context with roles } = .ok tools' ∧ tools.Sublist tools' := by
  refine ⟨_, _, getPermittedTools_eq S, getPermittedTools_eq S, ?_⟩
  refine filterMap_sublist_filterMap (fun t manifest hmanifest => ?_) S.tools
  split_ifs at hmanifest with hvisible
  have hsees := (isToolVisible_iff rt).1 hvisible
  rw [if_pos ((isToolVisible_iff rt).2 (hsees.mono (roleSet_subset hroles)))]
  exact hmanifest

end MoreRoles

/-- **With more roles a context can do and see more**, in both tiers: what was allowed is decided as before, and what
was shown stays in the list, in the same order. -/
theorem roles_monotone (rt : Runtime) (context : ExecutionContext) (request : ToolRequest) (roles : List String)
    (hroles : ∀ role ∈ context.roles, role ∈ roles) :
    (∀ engine : StaticPolicyEngine, (engine.evaluate rt context request).allowed = true →
        engine.evaluate rt { context with roles } request = engine.evaluate rt context request) ∧
      (∀ (engine : DbBackedPolicyEngine) (d : PolicyDecision), engine.evaluate rt context request = .ok d →
        d.allowed = true → engine.evaluate rt { context with roles } request = .ok d) ∧
      (∀ R : PolicyRuleSet, (R.getPermittedTools context).Sublist (R.getPermittedTools { context with roles })) ∧
      ∀ S : RuleStore, ∃ tools tools', S.getPermittedTools rt context = .ok tools ∧
        S.getPermittedTools rt { context with roles } = .ok tools' ∧ tools.Sublist tools' :=
  ⟨static_evaluate_mono hroles, fun engine _ => db_evaluate_mono hroles engine, static_getPermittedTools_mono hroles,
    db_getPermittedTools_mono hroles⟩

theorem roles_monotone_engineer :
    (StaticPolicyEngine.mk exampleRuleset fun _ => 49).evaluate plainRuntime
        { productionAdmin with roles := ["AgentExecutor", "ProductionAdmin"] } deployToProduction = approve true ∧
      (DbBackedPolicyEngine.mk seedExample fun _ => 49).evaluate plainRuntime
        { productionAdmin with roles := ["AgentExecutor", "ProductionAdmin"] } deployToProduction = .ok (approve true) ∧
      (exampleRuleset.getPermittedTools productionAdmin).Sublist (exampleRuleset.getPermittedTools
        { productionAdmin with roles := ["AgentExecutor", "ProductionAdmin"] }) ∧
      ∃ tools tools', seedExample.getPermittedTools plainRuntime productionAdmin = .ok tools ∧
        seedExample.getPermittedTools plainRuntime
          { productionAdmin with roles := ["AgentExecutor", "ProductionAdmin"] } = .ok tools' ∧ tools.Sublist tools' := by
  obtain ⟨hstatic, hdb, hshown, hlisted⟩ := roles_monotone plainRuntime productionAdmin deployToProduction
    ["AgentExecutor", "ProductionAdmin"] (by decide)
  exact ⟨hstatic ⟨exampleRuleset, fun _ => 49⟩ rfl, hdb ⟨seedExample, fun _ => 49⟩ _ rfl rfl, hshown exampleRuleset,
    hlisted seedExample⟩

end Aimw.Policy
