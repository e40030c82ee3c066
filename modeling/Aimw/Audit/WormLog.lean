import Aimw.Audit.Record
import Aimw.Lib.HashChain

/-!
# The hash-chained JSONL log

`audit/worm_log.py`: `verify_chain`, and the logger with its constructor, `append` and `log_call`.  The log file
is an `Option String`, `none` for a missing file; a logger is its own state, and several may share a file.
-/

namespace Aimw.Audit

open Lib

/-- Python's `str`, where it goes beyond a Lean `String`: what `str(value)` gives for the values of a request, a text with
a lone surrogate also where it raises; and which characters stand for lone surrogates, which no `Char` is. -/
structure PyStr where
  str : PyVal → String
  surrogate : Char → Bool
  surrogate_ascii : ∀ c, c.toNat < 128 → surrogate c = false

/-- `text.encode("utf-8")` does not raise: the text holds no lone surrogate. -/
def PyStr.encodes (py : PyStr) (text : String) : Bool := text.toList.all fun c => !py.surrogate c

/-- `str(value)` does not raise, and has an encoding. -/
def PyStr.encodable (py : PyStr) (value : PyVal) : Bool := py.encodes (py.str value)

/-! ## `verify_chain` -/

structure ChainVerificationResult where
  valid : Bool
  recordCount : ℕ
  firstBrokenIndex : Option ℕ := none
  deriving DecidableEq

/-- The loop over the lines of the file, with the line number, `count` and `prev_hash`. -/
def verifyLines (P : Platform) : List (List Char) → ℕ → ℕ → String → Except Exc ChainVerificationResult
  | [], _, count, _ => .ok ⟨true, count, none⟩
  | line :: lines, index, count, prevHash =>
    if strip line = [] then verifyLines P lines (index + 1) count prevHash
    else do
      let record ← P.modelValidateJson (String.ofList (strip line))
      let expectedHash ← computeRecordHash P prevHash record
      if record.prevHash ≠ prevHash ∨ record.recordHash ≠ expectedHash then .ok ⟨false, count, some index⟩
      else verifyLines P lines (index + 1) (count + 1) record.recordHash

def verifyChain (P : Platform) (file : Option String) : Except Exc ChainVerificationResult :=
  match file with
  | none => .ok ⟨true, 0, none⟩
  | some text => if text = "" then .ok ⟨true, 0, none⟩ else verifyLines P (splitLines text.toList) 0 0 GENESIS_HASH

/-! ## The logger -/

structure HashChainedJSONLLogger where
  redactParameters : Bool
  sinks : List BaseAuditSink
  prevHash : String

/-- The loop of `_load_last_hash`: the `record_hash` of the last record. -/
def loadLines (P : Platform) : List (List Char) → String → Except Exc String
  | [], lastHash => .ok lastHash
  | line :: lines, lastHash =>
    if strip line = [] then loadLines P lines lastHash
    else do
      let record ← P.modelValidateJson (String.ofList (strip line))
      loadLines P lines record.recordHash

def loadLastHash (P : Platform) (file : Option String) : Except Exc String :=
  match file with
  | none => .ok GENESIS_HASH
  | some text => if text = "" then .ok GENESIS_HASH else loadLines P (splitLines text.toList) GENESIS_HASH

/-- `HashChainedJSONLLogger(path, redact_parameters, sinks)`. -/
def HashChainedJSONLLogger.init (P : Platform) (file : Option String) (redactParameters : Bool)
    (sinks : List BaseAuditSink) : Except Exc HashChainedJSONLLogger := do
  let prevHash ← loadLastHash P file
  .ok { redactParameters, sinks, prevHash }

/-- `_hash_value`. -/
def hashValue (P : Platform) (py : PyStr) (value : PyVal) : Except Exc String :=
  if py.encodable value then .ok (P.sha256.hexdigest (py.str value).toUTF8)
  else .error (.exception "surrogates not allowed")

namespace HashChainedJSONLLogger

variable (P : Platform) (py : PyStr)

/-- `_redact_request`. -/
def redactRequest (logger : HashChainedJSONLLogger) (request : ToolRequest) : Except Exc RedactedRequest := do
  let parameters ← request.parameters.items.mapM fun p => do
    let value ← if logger.redactParameters then hashValue P py p.2 else .ok (py.str p.2)
    .ok (p.1, value)
  .ok { toolName := request.toolName, functionName := request.functionName, callId := request.callId, parameters }

/-- `append`: the file and the logger after it, and the record it returns. -/
def append (logger : HashChainedJSONLLogger) (file : Option String) (record : AuditRecord) :
    Except Exc (Option String × HashChainedJSONLLogger × AuditRecord) := do
  let record := { record with prevHash := logger.prevHash }
  let recordHash ← computeRecordHash P logger.prevHash record
  let record := { record with recordHash := recordHash }
  let line ← P.modelDumpJson record
  let file := some (file.getD "" ++ line ++ "\n")
  .ok (file, { logger with prevHash := recordHash, sinks := forwardBestEffort logger.sinks record }, record)

/-- The record `log_call` builds; `uuid4()` and the clock are arguments. -/
def buildRecord (logger : HashChainedJSONLLogger) (context : ExecutionContext) (request : ToolRequest)
    (decision : PolicyDecision) (sandboxResult : Option (List (String × PyVal))) (recordId timestamp : String) :
    Except Exc AuditRecord := do
  let request' ← redactRequest P py logger request
  .ok {
    recordId
    timestamp
    callId := request.callId
    context := {
      userId := context.userId
      agentId := context.agentId
      sessionId := context.sessionId
      roles := context.roles }
    request := request'
    decision := decision.modelDump
    sandboxResult
    prevHash := GENESIS_HASH }

/-- `log_call`. -/
def logCall (logger : HashChainedJSONLLogger) (file : Option String) (context : ExecutionContext)
    (request : ToolRequest) (decision : PolicyDecision) (sandboxResult : Option (List (String × PyVal)))
    (recordId timestamp : String) : Except Exc (Option String × HashChainedJSONLLogger × AuditRecord) := do
  let record ← buildRecord P py logger context request decision sandboxResult recordId timestamp
  append P logger file record

/-- `verify` asks the file alone. -/
def verify (_ : HashChainedJSONLLogger) (file : Option String) : Except Exc ChainVerificationResult :=
  verifyChain P file

end HashChainedJSONLLogger

end Aimw.Audit
