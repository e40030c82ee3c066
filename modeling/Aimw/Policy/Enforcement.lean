import Aimw.Policy.Registry

/-!
# Rows that are stored and not enforced

Which of the rules of a database bind its engine:

* `gate_enforced_iff` — the rows of `parameter_role_gates`, whose parameter and value are joined to one key that is
  taken apart again;
* `identity_enforced_iff` — the setting `identity_required_fields`, which the engine does not read.
-/

namespace Aimw.Policy

open Lib

variable {rt : Runtime}

/-! ## A store that stands in nobody's way -/

/-- One tool with one function for one role, under the given gates and the given setting. -/
def openStore (gates : List RoleGateRow) (setting : Option String) (toolName roleName : String) : RuleStore where
  roles := [{ roleName }]
  tools := [toolName]
  toolVisibilityRoles := []
  toolFunctions := [{ toolName, functionName := "call" }]
  parameterDenyPatterns := []
  parameterRoleGates := gates
  settings := setting.toList.map fun value => ("identity_required_fields", value)
  roles_key := List.nodup_singleton _
  tools_key := List.nodup_singleton _
  visibility_key := List.nodup_nil
  functions_key := List.nodup_singleton _
  settings_key := by cases setting <;> simp

/-- A context with one role and an empty session id. -/
def memberOf (roleName : String) : ExecutionContext where
  userId := "u1"
  agentId := "a1"
  sessionId := ""
  roles := [roleName]

/-- The call of the tool's function with these parameters. -/
def callOf (toolName : String) (parameters : Dict PyVal) : ToolRequest where
  toolName
  functionName := "call"
  parameters
  callId := "c1"

lemma openStore_allows (gates : List RoleGateRow) (setting : Option String) (t role : String) (parameters : Dict PyVal)
    (hgates : closedGate rt (memberOf role) (callOf t parameters)
      ((openStore gates setting t role).roleGates t) = none) :
    (DbBackedPolicyEngine.mk (openStore gates setting t role) fun _ => 0).Allows rt (memberOf role)
      (callOf t parameters) := by
  have hroles : (openStore gates setting t role).activeRoles = [role] := by
    simp [RuleStore.activeRoles, openStore]
  have hlimit : (openStore gates setting t role).rateLimitPerSession rt.chars = .ok DEFAULT_RATE_LIMIT := by
    cases setting <;> simp [RuleStore.rateLimitPerSession, openStore]
  rw [db_allows_iff, db_permits_iff]
  refine ⟨?_, ⟨?_, ?_, Or.inl rfl⟩, ?_, ?_, hgates, _, hlimit, ?_⟩
  · simp [missingField, identityFields, hasField, memberOf]
  · rw [hroles]
    simp [hasRole, memberOf]
  · simp [RuleStore.toolExists, openStore, callOf]
  · simp [RuleStore.allowedFunctions, openStore, callOf]
  · rw [matchedPattern_eq_none_iff]
    rintro p text - pats pat hmem
    exact absurd hmem List.not_mem_nil
  · simp [DEFAULT_RATE_LIMIT]

/-! ## Gates -/

/-- The roles of the rows with exactly this tool, parameter and value. -/
def requiredRoles (gates : List RoleGateRow) (toolName paramName paramValue : String) : List String :=
  (gates.filter fun r => r.toolName = toolName ∧ r.paramName = paramName ∧ r.paramValue = paramValue).map
    RoleGateRow.requiredRole

/-- Whatever else a store with these gates holds: a request that is allowed with this value of the parameter comes
with one of the roles that the rows ask for. -/
def GateEnforced (rt : Runtime) (gates : List RoleGateRow) (toolName paramName paramValue : String) : Prop :=
  ∀ (engine : DbBackedPolicyEngine) (context : ExecutionContext) (request : ToolRequest),
    engine.store.parameterRoleGates = gates → engine.Allows rt context request → request.toolName = toolName →
      argument rt request paramName = some paramValue →
        ∃ role ∈ requiredRoles gates toolName paramName paramValue, role ∈ context.roles

lemma mem_requiredRoles {gates : List RoleGateRow} {t p v role : String} :
    role ∈ requiredRoles gates t p v ↔
      ∃ row ∈ gates, row.toolName = t ∧ row.paramName = p ∧ row.paramValue = v ∧ row.requiredRole = role := by
  simp [requiredRoles, and_assoc]

lemma mem_roleGateRows {S : RuleStore} {t gate role : String} : (gate, role) ∈ S.roleGateRows t ↔
    ∃ row ∈ S.parameterRoleGates, row.toolName = t ∧ row.paramName ++ "=" ++ row.paramValue = gate ∧
      row.requiredRole = role := by
  simp [RuleStore.roleGateRows, and_assoc]

/-- A key is taken apart where it was joined, if the parameter has no `=` of its own. -/
lemma gateParts_key {p : String} (hp : '=' ∉ p.toList) (v : String) : gateParts (p ++ "=" ++ v) = (p, v) := by
  have hkey : (p ++ "=" ++ v).toList = p.toList ++ '=' :: v.toList := by simp
  rw [gateParts, hkey, partition_append hp]
  simp

lemma not_mem_gateParts (gate : String) : '=' ∉ (gateParts gate).1.toList := by
  rw [gateParts, String.toList_ofList]
  exact not_mem_partition '=' gate.toList

/-- The key of every row has a separator. -/
lemma mem_key (row : RoleGateRow) : '=' ∈ (row.paramName ++ "=" ++ row.paramValue).toList := by
  simp

section Gates

variable {gates : List RoleGateRow} {t p v : String}

lemma gateEnforced_of (hrow : requiredRoles gates t p v ≠ []) (hp : '=' ∉ p.toList)
    (hmerged : ∀ row ∈ gates, row.toolName = t → row.paramName ++ "=" ++ row.paramValue = p ++ "=" ++ v →
      row.requiredRole ∈ requiredRoles gates t p v) : GateEnforced rt gates t p v := by
  rintro engine context request rfl hallows rfl harg
  obtain ⟨-, hpermits⟩ := (db_allows_iff engine request).1 hallows
  have hgates := closedGate_eq_none_iff.1 (db_permits_iff.1 hpermits).2.2.2.1
  obtain ⟨hval, hkey⟩ := Dict.groups_group (engine.store.roleGateRows request.toolName)
  obtain ⟨role, hrole⟩ := List.exists_mem_of_ne_nil _ hrow
  obtain ⟨row, hmem, htool, rfl, rfl, rfl⟩ := mem_requiredRoles.1 hrole
  -- the group of the joined key holds the roles of all rows with this key
  obtain ⟨roles, hroles⟩ := hkey _ _ (mem_roleGateRows.2 ⟨row, hmem, htool, rfl, rfl⟩)
  have hparts := gateParts_key hp row.paramValue
  obtain ⟨role, hin, hhas⟩ := hgates _ roles hroles (by rw [hparts]; exact harg)
  obtain ⟨row', hmem', htool', hjoin, rfl⟩ := mem_roleGateRows.1 (((hval _ _ hroles).2 role).1 hin)
  exact ⟨row'.requiredRole, hmerged row' hmem' htool' hjoin, hhas⟩

variable (hstr : ∀ s, rt.str (.str s) = s)
include hstr

lemma argument_singleton {name : String} :
    argument rt (callOf t ⟨[(p, .str v)], List.nodup_singleton _⟩) name = if name = p then some v else none := by
  by_cases hname : name = p
  · subst hname
    simp [argument, callOf, Dict.get?, hstr]
  · have hbeq : (name == p) = false := by simpa using hname
    simp [argument, callOf, Dict.get?, List.lookup_cons, hbeq, hname]

/-- A role that gets past the gates of the open store is one that the rows ask for. -/
lemma mem_of_closedGate_eq_none (h : GateEnforced rt gates t p v) {role : String}
    (hgates : closedGate rt (memberOf role) (callOf t ⟨[(p, .str v)], List.nodup_singleton _⟩)
      ((openStore gates none t role).roleGates t) = none) : role ∈ requiredRoles gates t p v := by
  have harg : argument rt (callOf t ⟨[(p, .str v)], List.nodup_singleton _⟩) p = some v := by
    rw [argument_singleton hstr, if_pos rfl]
  obtain ⟨role', hrole, hhas⟩ := h _ _ _ rfl (openStore_allows gates none t role _ hgates) rfl harg
  obtain rfl := List.mem_singleton.1 hhas
  exact hrole

/-- A parameter with an `=` is no key's parameter, so no role is needed. -/
lemma not_gateEnforced_of_mem (hp : '=' ∈ p.toList) : ¬ GateEnforced rt gates t p v := by
  intro h
  obtain ⟨role, hfresh⟩ := Infinite.exists_notMem_finset (requiredRoles gates t p v).toFinset
  refine hfresh (List.mem_toFinset.2 (mem_of_closedGate_eq_none hstr h ?_))
  rw [closedGate_eq_none_iff]
  intro gate roles hmem harg
  rw [argument_singleton hstr] at harg
  split_ifs at harg with hname
  exact absurd (hname ▸ hp) (not_mem_gateParts gate)

/-- A row with the same key lends its role to the gate. -/
lemma mem_of_gateEnforced (h : GateEnforced rt gates t p v) {row : RoleGateRow} (hmem : row ∈ gates)
    (htool : row.toolName = t) (hjoin : row.paramName ++ "=" ++ row.paramValue = p ++ "=" ++ v) :
    row.requiredRole ∈ requiredRoles gates t p v := by
  refine mem_of_closedGate_eq_none hstr h ?_
  rw [closedGate_eq_none_iff]
  intro gate roles hgate harg
  obtain ⟨hval, -⟩ := Dict.groups_group ((openStore gates none t row.requiredRole).roleGateRows t)
  obtain ⟨hne, hroles⟩ := hval gate roles hgate
  obtain ⟨role, hrole⟩ := List.exists_mem_of_ne_nil roles hne
  obtain ⟨row', -, -, rfl, -⟩ := mem_roleGateRows.1 ((hroles role).1 hrole)
  rw [argument_singleton hstr] at harg
  split_ifs at harg with hname
  -- the only key with this parameter and this value is the one that the row shares
  have hkey := gateParts_join (mem_key row') (Prod.ext hname (Option.some.inj harg).symm)
  refine ⟨row.requiredRole, (hroles _).2 ?_, List.mem_singleton_self _⟩
  exact mem_roleGateRows.2 ⟨row, hmem, htool, hjoin.trans hkey, rfl⟩

end Gates

/-- **Which stored gates are enforced**: those whose parameter has no `=`, if no row of the tool joins to the same key
and asks for another role. -/
theorem gate_enforced_iff (rt : Runtime) (hstr : ∀ s, rt.str (.str s) = s) (gates : List RoleGateRow) (t p v : String)
    (hrow : ∃ row ∈ gates, row.toolName = t ∧ row.paramName = p ∧ row.paramValue = v) :
    GateEnforced rt gates t p v ↔ '=' ∉ p.toList ∧ ∀ row ∈ gates, row.toolName = t →
      row.paramName ++ "=" ++ row.paramValue = p ++ "=" ++ v → row.requiredRole ∈ requiredRoles gates t p v := by
  constructor
  · intro h
    refine ⟨fun hp => not_gateEnforced_of_mem hstr hp h, ?_⟩
    intro row hmem htool hjoin
    exact mem_of_gateEnforced hstr h hmem htool hjoin
  · rintro ⟨hp, hmerged⟩
    obtain ⟨row, hmem, htool, hparam, hvalue⟩ := hrow
    refine gateEnforced_of ?_ hp hmerged
    exact List.ne_nil_of_mem (mem_requiredRoles.2 ⟨row, hmem, htool, hparam, hvalue, rfl⟩)

theorem gate_enforced_iff_production :
    GateEnforced plainRuntime seedExample.parameterRoleGates "deploy_tool" "environment" "production" := by
  refine (gate_enforced_iff plainRuntime (fun _ => rfl) seedExample.parameterRoleGates "deploy_tool" "environment"
    "production" ⟨_, List.mem_singleton_self _, rfl, rfl, rfl⟩).2 ⟨by decide, ?_⟩
  intro row hmem _ _
  obtain rfl := List.mem_singleton.1 hmem
  decide

/-- A gate on the value `c` of a parameter that is called `a=b`. -/
def gateWithSeparator : RoleGateRow where
  toolName := "deploy_tool"
  paramName := "a=b"
  paramValue := "c"
  requiredRole := "ProductionAdmin"

/-- The parameter `a=b` with the value `c`. -/
def parameterWithSeparator : Dict PyVal := ⟨[("a=b", .str "c")], by decide⟩

/-- The row is read as a gate on the value `b=c` of the parameter `a`, and the request passes without the role. -/
theorem gate_with_separator_is_open :
    (DbBackedPolicyEngine.mk (openStore [gateWithSeparator] none "deploy_tool" "AgentExecutor") fun _ => 0).evaluate
        plainRuntime (memberOf "AgentExecutor") (callOf "deploy_tool" parameterWithSeparator) = .ok (approve false) ∧
      argument plainRuntime (callOf "deploy_tool" parameterWithSeparator) "a=b" = some "c" ∧
      requiredRoles [gateWithSeparator] "deploy_tool" "a=b" "c" = ["ProductionAdmin"] ∧
      ¬ ∃ role ∈ requiredRoles [gateWithSeparator] "deploy_tool" "a=b" "c",
        role ∈ (memberOf "AgentExecutor").roles := by
  refine ⟨rfl, rfl, by decide, by decide⟩

/-! ## Identity fields -/

def DEFAULT_IDENTITY_FIELDS : List String := ["user_id", "agent_id", "roles"]

/-- What `identity_required_fields` makes of the setting: `split(",")`, or the default. -/
def requiredFields : Option String → List String
  | some value => (value.toList.splitOn ',').map String.ofList
  | none => DEFAULT_IDENTITY_FIELDS

/-- `DbRuleStore.identity_required_fields`. -/
def RuleStore.identityRequiredFields (S : RuleStore) : List String :=
  requiredFields (S.settings.lookup "identity_required_fields")

/-- Whatever else a store with this setting holds: a request that is allowed comes from a context with all the fields
that the setting names. -/
def IdentityEnforced (rt : Runtime) (setting : Option String) : Prop :=
  ∀ (engine : DbBackedPolicyEngine) (context : ExecutionContext) (request : ToolRequest),
    engine.store.settings.lookup "identity_required_fields" = setting → engine.Allows rt context request →
      ∀ field ∈ engine.store.identityRequiredFields, hasField rt context field = true

/-- The fields of a context that may be empty for all the engine cares. -/
def uncheckedFields : List String := ["session_id", "delegated_scopes", "metadata"]

lemma hasField_of_checked {context : ExecutionContext} (h : missingField rt context identityFields = none)
    {field : String} (hfield : field ∈ DEFAULT_IDENTITY_FIELDS) : hasField rt context field = true := by
  rw [missingField_eq_none_iff] at h
  exact h field hfield

/-- A name that is no field of a context is looked up among its attributes. -/
lemma hasField_of_not_mem {context : ExecutionContext} {field : String} (hchecked : field ∉ DEFAULT_IDENTITY_FIELDS)
    (hfield : field ∉ uncheckedFields) : hasField rt context field = rt.attr field := by
  simp only [DEFAULT_IDENTITY_FIELDS, uncheckedFields, List.mem_cons, List.not_mem_nil, or_false, not_or]
    at hchecked hfield
  simp only [hasField, hchecked, hfield, if_false]

lemma hasField_memberOf {role field : String} (hfield : field ∈ uncheckedFields) :
    hasField rt (memberOf role) field = false := by
  simp only [uncheckedFields, List.mem_cons, List.not_mem_nil, or_false] at hfield
  rcases hfield with rfl | rfl | rfl <;> simp [hasField, memberOf, Dict.empty]

/-- **Which settings are enforced**: those that name the three fields the engine has written into it, and names that
every context has as an attribute. -/
theorem identity_enforced_iff (rt : Runtime) (setting : Option String) :
    IdentityEnforced rt setting ↔ ∀ field ∈ requiredFields setting, field ∈ DEFAULT_IDENTITY_FIELDS ∨
      (field ∉ uncheckedFields ∧ rt.attr field = true) := by
  constructor
  · intro h field hfield
    by_contra hnot
    obtain ⟨hchecked, hattr⟩ := not_or.1 hnot
    have hsetting : (openStore [] setting "deploy_tool" "AgentExecutor").settings.lookup "identity_required_fields" =
        setting := by
      cases setting <;> simp [openStore]
    have hallows : (DbBackedPolicyEngine.mk (openStore [] setting "deploy_tool" "AgentExecutor") fun _ => 0).Allows rt
        (memberOf "AgentExecutor") (callOf "deploy_tool" Dict.empty) :=
      openStore_allows [] setting "deploy_tool" "AgentExecutor" Dict.empty rfl
    have hhas := h _ _ _ hsetting hallows field (by rwa [RuleStore.identityRequiredFields, hsetting])
    by_cases hun : field ∈ uncheckedFields
    · rw [hasField_memberOf hun] at hhas
      cases hhas
    · rw [hasField_of_not_mem hchecked hun] at hhas
      exact hattr ⟨hun, hhas⟩
  · rintro h engine context request rfl hallows field hfield
    rcases h field hfield with hchecked | ⟨hun, hattr⟩
    · exact hasField_of_checked ((db_allows_iff engine request).1 hallows).1 hchecked
    · by_cases hchecked : field ∈ DEFAULT_IDENTITY_FIELDS
      · exact hasField_of_checked ((db_allows_iff engine request).1 hallows).1 hchecked
      · rw [hasField_of_not_mem hchecked hun, hattr]

/-- The setting asks for a session id, and a context without one is let in. -/
theorem session_id_is_not_enforced :
    (openStore [] (some "user_id,agent_id,roles,session_id") "deploy_tool" "AgentExecutor").identityRequiredFields =
        ["user_id", "agent_id", "roles", "session_id"] ∧
      (DbBackedPolicyEngine.mk (openStore [] (some "user_id,agent_id,roles,session_id") "deploy_tool" "AgentExecutor")
        fun _ => 0).evaluate plainRuntime (memberOf "AgentExecutor") (callOf "deploy_tool" Dict.empty) =
          .ok (approve false) ∧
      hasField plainRuntime (memberOf "AgentExecutor") "session_id" = false := by
  refine ⟨by decide, rfl, rfl⟩

end Aimw.Policy
