import Aimw.Audit.Chain
import Aimw.Lib.Coroutine

/-!
# The tool call interceptor

`interceptor.py` as a coroutine over the calls it makes: the circuit breaker, the policy engine under
`asyncio.wait_for`, the approval callback, the sandbox, the clock and the audit log.  An answer is what the call
returns or raises; a task that is cancelled while it awaits gets `CancelledError` for an answer.
-/

namespace Aimw.Interceptor

open Lib Audit

/-! ## Calls and answers -/

/-- How an awaitable under `asyncio.wait_for` ends; `exceeded` when the timeout expires first. -/
inductive Awaited (α : Type)
  | returned (a : α)
  | raised (e : Exc)
  | exceeded

/-- `asyncio.wait_for`. -/
def waitFor {α : Type} : Awaited α → Except Exc α
  | .returned a => .ok a
  | .raised e => .error e
  | .exceeded => .error (.timeoutError "")

inductive Op
  | check (agentId toolName : String)
  | evaluateToolCall (context : ExecutionContext) (request : ToolRequest) (timeout : JFloat)
  | approvalCallback (context : ExecutionContext) (request : ToolRequest) (decision : PolicyDecision)
  | monotonic
  | execute (request : ToolRequest) (context : ExecutionContext)
  | recordResult (agentId toolName : String) (success : Bool)
  | logCall (context : ExecutionContext) (request : ToolRequest) (decision : PolicyDecision)
      (sandboxResult : Option (List (String × PyVal)))

abbrev Op.Answer : Op → Type
  | check _ _ => Except Exc Bool
  | evaluateToolCall _ _ _ => Awaited PolicyDecision
  | approvalCallback _ _ _ => Except Exc Bool
  | monotonic => JFloat
  | execute _ _ => Except Exc SandboxResult
  | recordResult _ _ _ => Except Exc Unit
  | logCall _ _ _ _ => Except Exc AuditRecord

/-- A call with its answer. -/
abbrev Event : Type := (q : Op) × q.Answer

abbrev Prog (α : Type) : Type := Coro Op Op.Answer Exc α

/-- What the texts and numbers of Python give: `repr` of a list of strings, and `(now - start) * 1000`. -/
structure Runtime where
  repr : List String → String
  elapsedMs : JFloat → JFloat → JFloat

/-! ## `ToolCallInterceptor` -/

def SUPPORTED_REQUIREMENTS : List String := ["human_approval"]

structure InterceptorResult where
  allowed : Bool
  decision : PolicyDecision
  sandboxResult : Option SandboxResult
  auditRecord : AuditRecord

/-- `circuitBreaker` and `approvalCallback` say whether these collaborators are configured. -/
structure ToolCallInterceptor where
  circuitBreaker : Bool
  approvalCallback : Bool
  decisionTimeoutS : JFloat

namespace ToolCallInterceptor

open Coro

variable (rt : Runtime) (ic : ToolCallInterceptor) (context : ExecutionContext) (request : ToolRequest)

/-- `_audit_and_wrap`. -/
def auditAndWrap (decision : PolicyDecision) (sandboxResult : Option SandboxResult) : Prog InterceptorResult := do
  let auditRecord ← await (.logCall context request decision (sandboxResult.map SandboxResult.modelDump)) id
  return { allowed := decision.allowed, decision, sandboxResult, auditRecord }

/-- `_evaluate_decision`. -/
def evaluateDecision : Prog PolicyDecision :=
  tryExcept (await (.evaluateToolCall context request ic.decisionTimeoutS) waitFor) fun
    | .timeoutError _ => return { allowed := false, reason := "policy engine timeout: fail-closed" }
    | exc =>
      if exc.isException then
        return { allowed := false, reason := s!"policy engine failure: fail-closed ({exc.text})" }
      else raise exc

/-- `set(decision.action_requirements) - _SUPPORTED_REQUIREMENTS`. -/
def unsupported (decision : PolicyDecision) : List String :=
  (decision.actionRequirements.filter (· ∉ SUPPORTED_REQUIREMENTS)).dedup

/-- `_resolve_action_requirements`. -/
def resolveActionRequirements (decision : PolicyDecision) : Prog PolicyDecision :=
  if unsupported decision ≠ [] then
    let sorted := (unsupported decision).insertionSort (· ≤ ·)
    return { allowed := false, reason := s!"unsupported action requirement(s): {rt.repr sorted}" }
  else if "human_approval" ∈ decision.actionRequirements then
    if ic.approvalCallback = false then
      return { allowed := false, reason := "approval required but no approval_callback configured" }
    else do
      let approved ← await (.approvalCallback context request decision) id
      if approved = false then return { allowed := false, reason := "approval required but not granted" }
      else return { allowed := true, reason := s!"{decision.reason}; human-approved" }
  else return decision

/-- `_safely_resolve_action_requirements`. -/
def safelyResolveActionRequirements (decision : PolicyDecision) : Prog PolicyDecision :=
  tryExcept (ic.resolveActionRequirements rt context request decision) fun exc =>
    if exc.isException then
      return { allowed := false, reason := s!"approval resolution failure: fail-closed ({exc.text})" }
    else raise exc

/-- `_execute_sandboxed`. -/
def executeSandboxed : Prog SandboxResult := do
  let start ← perform .monotonic
  tryExcept (await (.execute request context) id) fun exc =>
    if exc.isException then do
      let now ← perform .monotonic
      return { stdout := "", stderr := exc.text, exitCode := 1, durationMs := rt.elapsedMs start now }
    else raise exc

/-- `_record_circuit_breaker_outcome`. -/
def recordCircuitBreakerOutcome (sandboxResult : SandboxResult) : Prog Unit :=
  if ic.circuitBreaker = false then return ()
  else
    let success := sandboxResult.exitCode == 0 && !sandboxResult.timedOut
    await (.recordResult context.agentId request.toolName success) id

/-- The local variables of `handle`. -/
structure Locals where
  decision : PolicyDecision := { allowed := false, reason := "unresolved: interceptor did not complete" }
  sandboxResult : Option SandboxResult := none

/-- The statements between `try` and `finally`. -/
def handleBody : Block Op Op.Answer Exc Locals :=
  seq (assign (fun _ => ic.evaluateDecision context request) fun v d => { v with decision := d }) <|
  seq (whenever (·.decision.allowed) <|
    assign (fun v => ic.safelyResolveActionRequirements rt context request v.decision) fun v d =>
      { v with decision := d }) <|
  whenever (·.decision.allowed) <|
    seq (assign (fun _ => executeSandboxed rt context request) fun v r => { v with sandboxResult := some r }) <|
    assign (fun v => v.sandboxResult.elim (return ()) (ic.recordCircuitBreakerOutcome context request)) fun v _ => v

/-- `self._circuit_breaker is not None and not await self._circuit_breaker.check(...)`. -/
def circuitOpen : Prog Bool :=
  if ic.circuitBreaker then do
    let closed ← await (.check context.agentId request.toolName) id
    return !closed
  else return false

def handle : Prog InterceptorResult := do
  if ← ic.circuitOpen context request then
    let decision := {
      allowed := false
      reason := s!"circuit breaker open for agent '{context.agentId}' tool '{request.toolName}': " ++
        "too many recent failures" }
    auditAndWrap context request decision none
  else
    tryFinally (ic.handleBody rt context request) (fun v => auditAndWrap context request v.decision v.sandboxResult) {}

end ToolCallInterceptor

/-! ## The environment -/

/-- The audit log: its file, and the logger that the interceptor holds. -/
structure LogState where
  file : Option String
  logger : HashChainedJSONLLogger

/-- A call at which the coroutine suspends. -/
def Op.isAwait : Op → Bool
  | monotonic => false
  | logCall _ _ _ _ => false
  | _ => true

/-- What can come back from a call.  The collaborators answer as they like; while one is awaited, other tasks may
move the log as `interference` allows.  `log_call` is the logger's own. -/
inductive Environment (P : Platform) (py : PyStr) (interference : LogState → LogState → Prop) :
    LogState → (q : Op) → q.Answer → LogState → Prop
  | monotonic (s : LogState) (now : JFloat) : Environment P py interference s .monotonic now s
  | awaited {s s' : LogState} {q : Op} (a : q.Answer) :
      q.isAwait = true → interference s s' → Environment P py interference s q a s'
  | logged {s : LogState} {context : ExecutionContext} {request : ToolRequest} {decision : PolicyDecision}
      {sandboxResult : Option (List (String × PyVal))} {recordId timestamp : String} {file : Option String}
      {logger : HashChainedJSONLLogger} {record : AuditRecord} :
      s.logger.logCall P py s.file context request decision sandboxResult recordId timestamp
        = .ok (file, logger, record) →
      Environment P py interference s (.logCall context request decision sandboxResult) (.ok record) ⟨file, logger⟩
  | notLogged {s : LogState} {context : ExecutionContext} {request : ToolRequest} {decision : PolicyDecision}
      {sandboxResult : Option (List (String × PyVal))} (e : Exc) (s' : LogState) :
      Environment P py interference s (.logCall context request decision sandboxResult) (.error e) s'

end Aimw.Interceptor
