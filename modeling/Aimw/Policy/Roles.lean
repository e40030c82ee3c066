import Aimw.Policy.Access

/-!
# Inactive roles

What the roles of a context confer in the database tier when the `roles` table does not list them as active.  A
context is let in by one active role (`denied_of_no_active`); past this first layer the engine and the registry look
at all its roles, and `active_roles_confer` says what is left when the inactive ones are taken away.
-/

namespace Aimw.Policy

open Lib

variable {rt : Runtime} {context : ExecutionContext} {request : ToolRequest}

/-- The context with its roles cut down to the active ones. -/
def RuleStore.activeContext (S : RuleStore) (context : ExecutionContext) : ExecutionContext :=
  { context with roles := context.roles.filter (· ∈ S.activeRoles) }

/-- The context has one of the roles, and the role is active. -/
def RuleStore.HoldsActive (S : RuleStore) (context : ExecutionContext) (roles : List String) : Prop :=
  ∃ r ∈ roles, r ∈ context.roles ∧ r ∈ S.activeRoles

instance (S : RuleStore) (roles : List String) : Decidable (S.HoldsActive context roles) :=
  inferInstanceAs (Decidable (∃ r ∈ roles, r ∈ context.roles ∧ r ∈ S.activeRoles))

variable (rt request) in
/-- Wherever the request asks for a role of the context, an active one is among those it has. -/
def RuleStore.RestsOnActive (S : RuleStore) (context : ExecutionContext) : Prop :=
  (S.visibilityRoles request.toolName = [] ∨ S.HoldsActive context (S.visibilityRoles request.toolName)) ∧
    ∀ gate roles, (gate, roles) ∈ (S.roleGates request.toolName).items →
      argument rt request (gateParts gate).1 = some (gateParts gate).2 → S.HoldsActive context roles

/-! ## The layers, with active roles only -/

section Layers

variable (S : RuleStore)

lemma hasRole_activeContext {roles : List String} :
    hasRole (S.activeContext context) roles = true ↔ S.HoldsActive context roles := by
  simp [hasRole, RuleStore.activeContext, RuleStore.HoldsActive]

lemma roleSet_activeContext_subset : roleSet (S.activeContext context) ⊆ roleSet context := by
  intro r hr
  exact List.mem_of_mem_filter hr

lemma meets_activeContext {roles : List String} :
    Meets (roleSet (S.activeContext context)) {r | r ∈ roles} ↔ S.HoldsActive context roles := by
  rw [← hasRole_iff, hasRole_activeContext]

/-- The global layer does not tell the two contexts apart. -/
lemma holdsActive_activeRoles : S.HoldsActive context S.activeRoles ↔ hasRole context S.activeRoles = true := by
  simp only [RuleStore.HoldsActive, hasRole, List.any_eq_true, decide_eq_true_eq]
  constructor
  · rintro ⟨r, hr, hmem, -⟩
    exact ⟨r, hr, hmem⟩
  · rintro ⟨r, hr, hmem⟩
    exact ⟨r, hr, hmem, hr⟩

lemma missingField_identityFields : missingField rt context identityFields = none ↔
    context.userId ≠ "" ∧ context.agentId ≠ "" ∧ context.roles ≠ [] := by
  simp [missingField, identityFields, hasField]

lemma missingField_activeContext (h : missingField rt context identityFields = none)
    (hactive : hasRole context S.activeRoles = true) :
    missingField rt (S.activeContext context) identityFields = none := by
  obtain ⟨huser, hagent, -⟩ := missingField_identityFields.1 h
  obtain ⟨r, hr, hmem, -⟩ := (holdsActive_activeRoles S).2 hactive
  refine missingField_identityFields.2 ⟨huser, hagent, ?_⟩
  exact List.ne_nil_of_mem (List.mem_filter.2 ⟨hmem, by simpa using hr⟩)

lemma restsOnActive_iff : S.RestsOnActive rt request context ↔
    ((S.access rt).visibleTo request.toolName = ∅ ∨
        Meets (roleSet (S.activeContext context)) ((S.access rt).visibleTo request.toolName)) ∧
      ∀ p v required, (p, v, required) ∈ (S.access rt).gates request.toolName → argument rt request p = some v →
        Meets (roleSet (S.activeContext context)) required := by
  have hgates : (∀ p v required, (p, v, required) ∈ (S.access rt).gates request.toolName →
      argument rt request p = some v → Meets (roleSet (S.activeContext context)) required) ↔
      ∀ gate roles, (gate, roles) ∈ (S.roleGates request.toolName).items →
        argument rt request (gateParts gate).1 = some (gateParts gate).2 → S.HoldsActive context roles := by
    rw [RuleStore.access, ← closedGate_eq_none_iff', closedGate_eq_none_iff]
    simp only [meets_activeContext]
  rw [hgates, RuleStore.access, setOf_mem_eq_empty_iff, meets_activeContext]
  rfl

end Layers

/-! ## Contexts without an active role -/

/-- **Without an active role every request is denied and every tool is hidden.** -/
theorem denied_of_no_active (engine : DbBackedPolicyEngine)
    (h : ∀ r ∈ context.roles, r ∉ engine.store.activeRoles) :
    (∃ reason, engine.evaluate rt context request = .ok (deny reason)) ∧
      engine.store.getPermittedTools rt context = .ok [] := by
  have hrole : hasRole context engine.store.activeRoles = false := by
    rw [hasRole_eq_false_iff]
    rintro ⟨r, hr, hmem⟩
    exact h r hmem hr
  have hsees : ∀ t, ¬ (engine.store.access rt).Sees (roleSet context) t := by
    intro t hs
    exact absurd (hrole.symm.trans ((db_sees_iff rt).1 hs).1) (by simp)
  constructor
  · rcases db_evaluate_cases rt context request engine with
      ⟨-, hp, -⟩ | ⟨-, hdeny | ⟨e, hs, -, -⟩⟩
    · exact absurd hp.sees (hsees _)
    · exact hdeny
    · exact absurd hs (hsees _)
  · have hnone : ∀ t, (if engine.store.isToolVisible t context then
        some (⟨t, engine.store.allowedFunctions t⟩ : ToolManifest) else none) = none := by
      intro t
      exact if_neg fun hv => hsees t ((isToolVisible_iff rt).1 hv)
    rw [getPermittedTools_eq]
    simp [hnone]

lemma activeRoles_deactivate (S : RuleStore) (roleName : String) :
    ∀ r, r ∈ (S.deactivate roleName).activeRoles ↔ r ∈ S.activeRoles ∧ r ≠ roleName := by
  intro r
  simp only [RuleStore.activeRoles, RuleStore.deactivate, List.mem_map, List.mem_filter, decide_eq_true_eq]
  constructor
  · rintro ⟨_, ⟨⟨row, hrow, rfl⟩, hactive⟩, rfl⟩
    by_cases hname : row.roleName = roleName
    · rw [if_pos hname] at hactive
      exact absurd hactive zero_ne_one
    · rw [if_neg hname] at hactive ⊢
      exact ⟨⟨row, ⟨hrow, hactive⟩, rfl⟩, hname⟩
  · rintro ⟨⟨row, ⟨hrow, hactive⟩, rfl⟩, hname⟩
    exact ⟨row, ⟨⟨row, hrow, if_neg hname⟩, hactive⟩, rfl⟩

/-! ## Taking the inactive roles away -/

/-- What is allowed stays allowed iff no inactive role was needed. -/
theorem evaluate_activeContext (engine : DbBackedPolicyEngine) {d : PolicyDecision}
    (h : engine.evaluate rt context request = .ok d) (hallowed : d.allowed = true) :
    (engine.store.RestsOnActive rt request context →
        engine.evaluate rt (engine.store.activeContext context) request = .ok d) ∧
      (¬ engine.store.RestsOnActive rt request context →
        ∃ reason, engine.evaluate rt (engine.store.activeContext context) request = .ok (deny reason)) := by
  set S := engine.store with hS
  rcases db_evaluate_cases rt context request engine with
    ⟨hmiss, hp, heval⟩ | ⟨-, ⟨reason, heval⟩ | ⟨e, -, -, heval⟩⟩
  · have hrole := (db_permits_iff.1 hp).1.1
    have hmiss' := missingField_activeContext S hmiss hrole
    have hplatform : ∀ required ∈ (S.access rt).platform, Meets (roleSet (S.activeContext context)) required := by
      rintro _ rfl
      exact (meets_activeContext S).2 ((holdsActive_activeRoles S).2 hrole)
    have hiff : (S.access rt).Permits (roleSet (S.activeContext context)) (invocation rt request)
        (engine.callCounter context.sessionId) ↔ S.RestsOnActive rt request context := by
      rw [hp.other_roles_iff, restsOnActive_iff]
      exact and_iff_right hplatform
    rcases db_evaluate_cases rt (S.activeContext context) request engine with
      ⟨-, hp', heval'⟩ | ⟨hnot, hres⟩
    · refine ⟨fun _ => ?_, fun hrests => absurd (hiff.1 hp') hrests⟩
      rw [← h, heval, heval']
    · refine ⟨fun hrests => absurd ⟨hmiss', hiff.2 hrests⟩ hnot, fun _ => ?_⟩
      rcases hres with hdeny | ⟨e, -, hlimit, -⟩
      · exact hdeny
      · -- the limit was read for the whole context already
        obtain ⟨limit, hl, -⟩ := hp.room
        exact absurd (hl.symm.trans hlimit) (by simp)
  · obtain rfl := Except.ok.inj (heval.symm.trans h)
    exact absurd hallowed (by simp [deny])
  · exact absurd (heval.symm.trans h) (by simp)

/-- The tools that stay listed are those whose list of roles is empty or has an active role of the context. -/
theorem getPermittedTools_activeContext (S : RuleStore) :
    S.getPermittedTools rt (S.activeContext context) = (S.getPermittedTools rt context).map fun tools =>
      tools.filter fun m => S.visibilityRoles m.toolName = [] ∨ S.HoldsActive context (S.visibilityRoles m.toolName) := by
  rw [getPermittedTools_eq, getPermittedTools_eq, Except.map, List.filter_filterMap]
  congr 2
  funext t
  have hsub : S.isToolVisible t (S.activeContext context) = true → S.isToolVisible t context = true := by
    rw [isToolVisible_iff rt, isToolVisible_iff rt]
    intro hs
    exact hs.mono (roleSet_activeContext_subset S)
  by_cases hv : S.isToolVisible t context = true
  · obtain ⟨hrole, htool, -⟩ := (db_sees_iff rt).1 ((isToolVisible_iff rt).1 hv)
    have hiff : S.isToolVisible t (S.activeContext context) = true ↔
        S.visibilityRoles t = [] ∨ S.HoldsActive context (S.visibilityRoles t) := by
      rw [isToolVisible_iff rt, db_sees_iff, hasRole_activeContext, hasRole_activeContext, holdsActive_activeRoles]
      simp [hrole, htool]
    by_cases hrest : S.visibilityRoles t = [] ∨ S.HoldsActive context (S.visibilityRoles t)
    · rw [if_pos (hiff.2 hrest), if_pos hv]
      exact (Option.filter_some_pos (by simpa using hrest)).symm
    · have hv' : S.isToolVisible t (S.activeContext context) ≠ true := fun h => hrest (hiff.1 h)
      rw [if_neg hv', if_pos hv]
      exact (Option.filter_some_neg (by simpa using hrest)).symm
  · rw [if_neg (mt hsub hv), if_neg hv]
    rfl

/-- **What roles confer that are not active.**  None of them opens the platform; past it, they count like active ones
for the visibility of tools and for the gates, and for nothing else. -/
theorem active_roles_confer (engine : DbBackedPolicyEngine) :
    ((∀ r ∈ context.roles, r ∉ engine.store.activeRoles) →
        (∃ reason, engine.evaluate rt context request = .ok (deny reason)) ∧
          engine.store.getPermittedTools rt context = .ok []) ∧
      (∀ d, engine.evaluate rt context request = .ok d → d.allowed = true →
        (engine.store.RestsOnActive rt request context →
            engine.evaluate rt (engine.store.activeContext context) request = .ok d) ∧
          (¬ engine.store.RestsOnActive rt request context →
            ∃ reason, engine.evaluate rt (engine.store.activeContext context) request = .ok (deny reason))) ∧
      (engine.store.getPermittedTools rt (engine.store.activeContext context) =
        (engine.store.getPermittedTools rt context).map fun tools => tools.filter fun m =>
          engine.store.visibilityRoles m.toolName = [] ∨
            engine.store.HoldsActive context (engine.store.visibilityRoles m.toolName)) ∧
      ∀ roleName, (∀ r ∈ context.roles, r ∈ engine.store.activeRoles → r = roleName) →
        (∃ reason,
            { engine with store := engine.store.deactivate roleName }.evaluate rt context request = .ok (deny reason)) ∧
          (engine.store.deactivate roleName).getPermittedTools rt context = .ok [] := by
  refine ⟨denied_of_no_active engine, fun d => evaluate_activeContext engine, getPermittedTools_activeContext _, ?_⟩
  intro roleName honly
  refine denied_of_no_active { engine with store := engine.store.deactivate roleName } fun r hr hactive => ?_
  obtain ⟨hold, hne⟩ := (activeRoles_deactivate engine.store roleName r).1 hactive
  exact hne (honly r hr hold)

/-! ### An engineer whose role was switched off -/

/-- The example rules after `UPDATE roles SET active = 0` for the engineers. -/
def engineersOff : DbBackedPolicyEngine where
  store := seedExample.deactivate "DeployEngineer"

def engineer : ExecutionContext where
  userId := "u1"
  agentId := "a1"
  sessionId := "s1"
  roles := ["AgentExecutor", "DeployEngineer"]

def requestOf (toolName functionName : String) : ToolRequest :=
  { toolName, functionName, parameters := Dict.empty, callId := "c1" }

/-- An engineer who is an administrator too. -/
def releaseManager : ExecutionContext := { engineer with roles := ["DeployEngineer", "ProductionAdmin"] }

lemma production_nodup : ([("environment", PyVal.str "production")].map Prod.fst).Nodup := by decide

def productionRequest : ToolRequest :=
  { requestOf "deploy_tool" "deploy" with parameters := ⟨[("environment", .str "production")], production_nodup⟩ }

/-- The role that is left shows the tool and opens the gate. -/
theorem active_roles_confer_deploy :
    (engineersOff.store.activeContext releaseManager).roles = ["ProductionAdmin"] ∧
      engineersOff.evaluate plainRuntime (engineersOff.store.activeContext releaseManager) productionRequest =
        .ok (approve true) := by
  have hadmin : engineersOff.store.HoldsActive releaseManager ["ProductionAdmin"] := by decide
  have hrests : engineersOff.store.RestsOnActive plainRuntime productionRequest releaseManager := by
    refine ⟨Or.inr (by decide), fun gate roles hmem _ => ?_⟩
    obtain ⟨-, rfl⟩ := Prod.mk.inj (List.mem_singleton.1 hmem)
    exact hadmin
  exact ⟨rfl, ((active_roles_confer engineersOff).2.1 (approve true) rfl rfl).1 hrests⟩

/-- The role that is switched off still shows the tool and opens its function. -/
theorem inactive_role_confers_visibility :
    "DeployEngineer" ∉ engineersOff.store.activeRoles ∧
      (engineersOff.store.activeContext engineer).roles = ["AgentExecutor"] ∧
      engineersOff.evaluate plainRuntime engineer (requestOf "deploy_tool" "deploy") = .ok (approve true) ∧
      engineersOff.evaluate plainRuntime (engineersOff.store.activeContext engineer) (requestOf "deploy_tool" "deploy") =
        .ok (deny "tool 'deploy_tool' requires one of roles ['DeployEngineer', 'ProductionAdmin']") ∧
      (engineersOff.store.getPermittedTools plainRuntime engineer).map (List.map ToolManifest.toolName) =
        .ok ["search_tool", "sql_tool", "deploy_tool"] ∧
      (engineersOff.store.getPermittedTools plainRuntime (engineersOff.store.activeContext engineer)).map
        (List.map ToolManifest.toolName) = .ok ["search_tool", "sql_tool"] := by
  refine ⟨by decide, rfl, rfl, rfl, rfl, rfl⟩

end Aimw.Policy
