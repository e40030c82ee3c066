import Aimw.Lib.Text
import Aimw.Models

/-!
# The static tier

`policy/rules.py`, `policy/static_engine.py` and `registry/static_registry.py`.  The checks of parameters, which
the two policy engines share word for word, are here as well.
-/

namespace Aimw.Policy

open Lib

/-- What Python gives for a value: `str(value)`, `repr` of a string and of a list of strings, `re.search` with
`IGNORECASE`; `attr` tells of an attribute that is no field of a context whether its value is true.  The patterns compile
and the values have a text: a pattern that raises `re.error`, or a value whose `str` raises, is outside this model, and
the engine would turn it into a `PolicyEvaluationError`. -/
structure Runtime where
  str : PyVal → String
  repr : String → String
  reprList : List String → String
  search : String → String → Bool
  attr : String → Bool
  chars : CharTable

/-- A runtime to compute with: Python's values for texts without quotes, and for patterns that are plain text. -/
def plainRuntime : Runtime where
  str
    | .str s => s
    | .int i => String.ofList (decimal i)
    | .bool b => if b then "True" else "False"
    | _ => "None"
  repr s := "'" ++ s ++ "'"
  reprList l := "[" ++ ", ".intercalate (l.map fun s => "'" ++ s ++ "'") ++ "]"
  search pattern text := decide (pattern.toList <:+: text.toList)
  attr _ := false
  chars := .ascii

/-! ## Rules -/

structure ToolRule where
  toolName : String
  allowedFunctions : List String
  visibleToRoles : List String := []
  parameterDenyPatterns : Dict (List String) := Dict.empty
  requiresRoleFor : Dict (List String) := Dict.empty
  requiresApprovalFunctions : List String := []

structure PolicyRuleSet where
  identityRequiredFields : List String := ["user_id", "agent_id", "roles"]
  allowedTools : List String
  tools : Dict ToolRule
  rateLimitPerSession : ℤ := 50

/-! ## Checks -/

def deny (reason : String) : PolicyDecision := { allowed := false, reason }

section Checks

variable (rt : Runtime) (context : ExecutionContext) (request : ToolRequest)

/-- `bool(getattr(context, field_name, None))`. -/
def hasField (field : String) : Bool :=
  if field = "user_id" then context.userId ≠ ""
  else if field = "agent_id" then context.agentId ≠ ""
  else if field = "session_id" then context.sessionId ≠ ""
  else if field = "roles" then !context.roles.isEmpty
  else if field = "delegated_scopes" then !context.delegatedScopes.isEmpty
  else if field = "metadata" then !context.metadata.items.isEmpty
  else rt.attr field

/-- The first required field that is missing or empty. -/
def missingField (fields : List String) : Option String := fields.find? fun field => !hasField rt context field

/-- `any(role in context.roles for role in roles)`. -/
def hasRole (roles : List String) : Bool := roles.any (· ∈ context.roles)

/-- The text of a parameter that is there and is not `None`. -/
def argument (param : String) : Option String :=
  match request.parameters.get? param with
  | none => none
  | some .none => none
  | some value => some (rt.str value)

/-- The first deny-pattern that a parameter matches: the parameter, the pattern and the parameter's text. -/
def matchedPattern (patterns : Dict (List String)) : Option (String × String × String) :=
  patterns.items.findSome? fun (param, patterns) =>
    (argument rt request param).bind fun text =>
      (patterns.find? fun pattern => rt.search pattern text).map fun pattern => (param, pattern, text)

/-- `gate.partition("=")`: the parameter and the value. -/
def gateParts (gate : String) : String × String :=
  let (param, value) := partition '=' gate.toList
  (String.ofList param, String.ofList value)

/-- The first gate that keeps the request out, with the roles it asks for. -/
def closedGate (gates : Dict (List String)) : Option (String × List String) :=
  gates.items.find? fun (gate, roles) =>
    decide (argument rt request (gateParts gate).1 = some (gateParts gate).2) && !hasRole context roles

def denyPattern (param pattern text : String) : PolicyDecision :=
  let excerpt := String.ofList (text.toList.take 40) ++ if text.toList.length > 40 then "..." else ""
  deny s!"parameter '{param}' matched deny-pattern '{pattern}' (excerpt: {rt.repr excerpt})"

def denyGate (gate : String) (roles : List String) : PolicyDecision :=
  deny s!"parameter '{gate}' requires one of roles {rt.reprList roles}"

def approve (needsApproval : Bool) : PolicyDecision :=
  if needsApproval then
    { allowed := true, reason := "approved pending human-in-the-loop review", actionRequirements := ["human_approval"] }
  else { allowed := true, reason := "all policy checks passed" }

end Checks

/-! ## `StaticPolicyEngine` -/

structure StaticPolicyEngine where
  ruleset : PolicyRuleSet
  callCounter : String → ℤ := fun _ => 0

/-- `StaticPolicyEngine._evaluate`. -/
def StaticPolicyEngine.evaluate (rt : Runtime) (engine : StaticPolicyEngine) (context : ExecutionContext)
    (request : ToolRequest) : PolicyDecision :=
  let ruleset := engine.ruleset
  match missingField rt context ruleset.identityRequiredFields with
  | some field => deny s!"invalid identity context: missing or empty '{field}'"
  | none =>
    if request.toolName ∉ ruleset.allowedTools then deny s!"tool not permitted: '{request.toolName}'"
    else match ruleset.tools.get? request.toolName with
    | none => deny s!"tool not permitted: '{request.toolName}'"
    | some rule =>
      if rule.visibleToRoles ≠ [] ∧ hasRole context rule.visibleToRoles = false then
        deny s!"tool '{request.toolName}' requires one of roles {rt.reprList rule.visibleToRoles}"
      else if request.functionName ∉ rule.allowedFunctions then
        deny s!"function not permitted: '{request.toolName}.{request.functionName}'"
      else match matchedPattern rt request rule.parameterDenyPatterns with
      | some (param, pattern, text) => denyPattern rt param pattern text
      | none =>
        match closedGate rt context request rule.requiresRoleFor with
        | some (gate, roles) => denyGate rt gate roles
        | none =>
          let currentCalls := engine.callCounter context.sessionId
          if currentCalls ≥ ruleset.rateLimitPerSession then
            deny s!"rate limit exceeded: {currentCalls} >= {ruleset.rateLimitPerSession}"
          else approve (request.functionName ∈ rule.requiresApprovalFunctions)

/-! ## `StaticToolRegistry` -/

/-- What a context is shown of a tool. -/
structure ToolManifest where
  toolName : String
  functions : List String

/-- `StaticToolRegistry._is_tool_visible`. -/
def PolicyRuleSet.isToolVisible (ruleset : PolicyRuleSet) (toolName : String) (context : ExecutionContext) : Bool :=
  if toolName ∉ ruleset.allowedTools then false
  else match ruleset.tools.get? toolName with
  | none => false
  | some rule => if rule.visibleToRoles = [] then true else hasRole context rule.visibleToRoles

/-- `StaticToolRegistry.get_permitted_tools`. -/
def PolicyRuleSet.getPermittedTools (ruleset : PolicyRuleSet) (context : ExecutionContext) : List ToolManifest :=
  ruleset.allowedTools.filterMap fun toolName =>
    match ruleset.tools.get? toolName with
    | none => none
    | some rule =>
      if ruleset.isToolVisible toolName context then some { toolName, functions := rule.allowedFunctions } else none

end Aimw.Policy
