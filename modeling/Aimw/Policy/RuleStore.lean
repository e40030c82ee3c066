import Aimw.Lib.Coroutine
import Aimw.Lib.Text
import Aimw.Models

/-!
# The rule store

`policy/db_rules.py`: the tables, with their primary keys, and the reads of `DbRuleStore`.  The rows of a table are
in the order in which a `SELECT` returns them, whichever it is: SQLite promises none, and answers from the index of a
key where there is one.  `seedExample` keeps the order of its inserts, on which nothing depends.
-/

namespace Aimw.Policy

open Lib

/-! ## Tables -/

structure RoleRow where
  roleName : String
  active : ℤ := 1

structure FunctionRow where
  toolName : String
  functionName : String
  requiresApproval : ℤ := 0

structure VisibilityRow where
  toolName : String
  roleName : String

structure DenyPatternRow where
  toolName : String
  paramName : String
  pattern : String

structure RoleGateRow where
  toolName : String
  paramName : String
  paramValue : String
  requiredRole : String

structure RuleStore where
  roles : List RoleRow
  tools : List String
  toolVisibilityRoles : List VisibilityRow
  toolFunctions : List FunctionRow
  parameterDenyPatterns : List DenyPatternRow
  parameterRoleGates : List RoleGateRow
  settings : List (String × String)
  roles_key : (roles.map RoleRow.roleName).Nodup
  tools_key : tools.Nodup
  visibility_key : (toolVisibilityRoles.map fun r => (r.toolName, r.roleName)).Nodup
  functions_key : (toolFunctions.map fun r => (r.toolName, r.functionName)).Nodup
  settings_key : (settings.map Prod.fst).Nodup

def DEFAULT_RATE_LIMIT : ℤ := 50

/-! ## `DbRuleStore` -/

namespace RuleStore

variable (S : RuleStore)

def activeRoles : List String := (S.roles.filter fun r => r.active = 1).map RoleRow.roleName

def toolExists (toolName : String) : Bool := toolName ∈ S.tools

def toolNames : List String := S.tools

def visibilityRoles (toolName : String) : List String :=
  (S.toolVisibilityRoles.filter fun r => r.toolName = toolName).map VisibilityRow.roleName

def allowedFunctions (toolName : String) : List String :=
  (S.toolFunctions.filter fun r => r.toolName = toolName).map FunctionRow.functionName

def requiresApproval (toolName functionName : String) : Bool :=
  match S.toolFunctions.find? fun r => r.toolName = toolName ∧ r.functionName = functionName with
  | some row => row.requiresApproval ≠ 0
  | none => false

/-- The rows of a tool, as keys and patterns. -/
def denyPatternRows (toolName : String) : List (String × String) :=
  (S.parameterDenyPatterns.filter fun r => r.toolName = toolName).map fun r => (r.paramName, r.pattern)

def denyPatterns (toolName : String) : Dict (List String) := Dict.group (S.denyPatternRows toolName)

/-- The rows of a tool, as keys and roles. -/
def roleGateRows (toolName : String) : List (String × String) :=
  (S.parameterRoleGates.filter fun r => r.toolName = toolName).map fun r =>
    (r.paramName ++ "=" ++ r.paramValue, r.requiredRole)

def roleGates (toolName : String) : Dict (List String) := Dict.group (S.roleGateRows toolName)

/-- `int(row["value"])` raises when the setting is no number. -/
def rateLimitPerSession (u : CharTable) : Except Exc ℤ :=
  match S.settings.lookup "rate_limit_per_session" with
  | some value =>
    match pyInt u value.toList with
    | some n => .ok n
    | none => .error (.exception "invalid literal for int() with base 10")
  | none => .ok DEFAULT_RATE_LIMIT

/-- `UPDATE roles SET active = 0 WHERE role_name = ?`. -/
def deactivate (roleName : String) : RuleStore :=
  { S with
    roles := S.roles.map fun r => if r.roleName = roleName then { r with active := 0 } else r
    roles_key := by
      rw [List.map_map, show RoleRow.roleName ∘ (fun r => if r.roleName = roleName then { r with active := 0 } else r) =
        RoleRow.roleName from funext fun r => by simp only [Function.comp_apply]; split_ifs <;> rfl]
      exact S.roles_key }

end RuleStore

/-- `seed_example`. -/
def seedExample : RuleStore where
  roles := [{ roleName := "AgentExecutor" }, { roleName := "DeployEngineer" }, { roleName := "ProductionAdmin" }]
  tools := ["search_tool", "sql_tool", "deploy_tool"]
  toolFunctions := [
    { toolName := "search_tool", functionName := "query", requiresApproval := 0 },
    { toolName := "sql_tool", functionName := "ExecuteReadOnlyQuery", requiresApproval := 0 },
    { toolName := "sql_tool", functionName := "UpdateCustomerRecord", requiresApproval := 0 },
    { toolName := "deploy_tool", functionName := "deploy", requiresApproval := 1 }]
  toolVisibilityRoles := [
    { toolName := "deploy_tool", roleName := "DeployEngineer" },
    { toolName := "deploy_tool", roleName := "ProductionAdmin" }]
  parameterDenyPatterns := [
    { toolName := "sql_tool", paramName := "query", pattern := "(?i)(DROP|DELETE|TRUNCATE|ALTER)" }]
  parameterRoleGates := [
    { toolName := "deploy_tool", paramName := "environment", paramValue := "production", requiredRole := "ProductionAdmin" }]
  settings := [("rate_limit_per_session", "50"), ("identity_required_fields", "user_id,agent_id,roles")]
  roles_key := by decide
  tools_key := by decide
  visibility_key := by decide
  functions_key := by decide
  settings_key := by decide

/-! ## Reads -/

/-- One read of the store, a single `SELECT`. -/
inductive Select
  | activeRoles
  | toolExists (toolName : String)
  | toolNames
  | visibilityRoles (toolName : String)
  | allowedFunctions (toolName : String)
  | denyPatterns (toolName : String)
  | roleGates (toolName : String)
  | rateLimitPerSession
  | requiresApproval (toolName functionName : String)

abbrev Select.Answer : Select → Type
  | activeRoles => List String
  | toolExists _ => Bool
  | toolNames => List String
  | visibilityRoles _ => List String
  | allowedFunctions _ => List String
  | denyPatterns _ => Dict (List String)
  | roleGates _ => Dict (List String)
  | rateLimitPerSession => Except Exc ℤ
  | requiresApproval _ _ => Bool

/-- What a store answers. -/
def RuleStore.answer (u : CharTable) (S : RuleStore) : (q : Select) → q.Answer
  | .activeRoles => S.activeRoles
  | .toolExists t => S.toolExists t
  | .toolNames => S.toolNames
  | .visibilityRoles t => S.visibilityRoles t
  | .allowedFunctions t => S.allowedFunctions t
  | .denyPatterns t => S.denyPatterns t
  | .roleGates t => S.roleGates t
  | .rateLimitPerSession => S.rateLimitPerSession u
  | .requiresApproval t f => S.requiresApproval t f

/-- A program that reads the store. -/
abbrev Query (α : Type) : Type := Coro Select Select.Answer Exc α

end Aimw.Policy
