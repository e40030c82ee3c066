import Aimw.Policy.RuleStore
import Aimw.Policy.Static

/-!
# The database tier

`policy/db_engine.py` and `registry/db_registry.py`, as programs that read the store one `SELECT` at a time, and
what they give on a store that does not change meanwhile.
-/

namespace Aimw.Policy

open Lib Coro

/-! ## `DbBackedPolicyEngine` -/

structure DbBackedPolicyEngine where
  store : RuleStore
  callCounter : String → ℤ := fun _ => 0

section Queries

variable (rt : Runtime) (context : ExecutionContext) (request : ToolRequest)

/-- `DbBackedPolicyEngine._evaluate`. -/
def evaluateQuery (callCounter : String → ℤ) : Query PolicyDecision :=
  match missingField rt context ["user_id", "agent_id", "roles"] with
  | some field => return deny s!"invalid identity context: missing or empty '{field}'"
  | none => do
    let activeRoles ← perform .activeRoles
    if hasRole context activeRoles = false then
      return deny
        s!"no active platform role for context roles {rt.reprList context.roles}: global RBAC denied"
    else do
    let toolExists ← perform (.toolExists request.toolName)
    if toolExists = false then return deny s!"tool not permitted: '{request.toolName}'"
    else do
    let visibilityRoles ← perform (.visibilityRoles request.toolName)
    if visibilityRoles ≠ [] ∧ hasRole context visibilityRoles = false then
      return deny s!"tool '{request.toolName}' requires one of roles {rt.reprList visibilityRoles}"
    else do
    let allowedFunctions ← perform (.allowedFunctions request.toolName)
    if request.functionName ∉ allowedFunctions then
      return deny s!"function not permitted: '{request.toolName}.{request.functionName}'"
    else do
    let denyPatterns ← perform (.denyPatterns request.toolName)
    match matchedPattern rt request denyPatterns with
    | some (param, pattern, text) => return denyPattern rt param pattern text
    | none => do
    let roleGates ← perform (.roleGates request.toolName)
    match closedGate rt context request roleGates with
    | some (gate, roles) => return denyGate rt gate roles
    | none => do
    let currentCalls := callCounter context.sessionId
    let rateLimit ← await .rateLimitPerSession id
    if currentCalls ≥ rateLimit then return deny s!"rate limit exceeded: {currentCalls} >= {rateLimit}"
    else do
    let requiresApproval ← perform (.requiresApproval request.toolName request.functionName)
    return approve requiresApproval

/-- `DbBackedToolRegistry._is_tool_visible`. -/
def isToolVisibleQuery (toolName : String) : Query Bool := do
  let activeRoles ← perform .activeRoles
  if hasRole context activeRoles = false then return false
  else do
  let toolExists ← perform (.toolExists toolName)
  if toolExists = false then return false
  else do
  let visibilityRoles ← perform (.visibilityRoles toolName)
  if visibilityRoles = [] then return true
  else return hasRole context visibilityRoles

/-- The loop of `DbBackedToolRegistry.get_permitted_tools`. -/
def manifestsQuery : List String → Query (List ToolManifest)
  | [] => return []
  | toolName :: toolNames => do
    let visible ← isToolVisibleQuery context toolName
    if visible = false then manifestsQuery toolNames
    else do
      let functions ← perform (.allowedFunctions toolName)
      let manifests ← manifestsQuery toolNames
      return { toolName, functions } :: manifests

def getPermittedToolsQuery : Query (List ToolManifest) := do
  let toolNames ← perform .toolNames
  manifestsQuery context toolNames

end Queries

/-- `DbBackedPolicyEngine._evaluate` on a store that stays as it is. -/
def DbBackedPolicyEngine.evaluate (rt : Runtime) (engine : DbBackedPolicyEngine) (context : ExecutionContext)
    (request : ToolRequest) : Except Exc PolicyDecision :=
  (evaluateQuery rt context request engine.callCounter).eval (engine.store.answer rt.chars)

/-- `DbBackedToolRegistry(store).get_permitted_tools(context)` on a store that stays as it is. -/
def RuleStore.getPermittedTools (rt : Runtime) (store : RuleStore) (context : ExecutionContext) :
    Except Exc (List ToolManifest) :=
  (getPermittedToolsQuery context).eval (store.answer rt.chars)

end Aimw.Policy
