import Aimw.Lib.Text
import Aimw.Models

/-!
# The audit record

The record of one call (`audit/models.py`), the sinks it is forwarded to (`audit/siem.py`), and the hash that
covers it (`_canonical_bytes`, `_hash_value`, `_compute_record_hash` of `audit/worm_log.py`).

Three library functions stay parameters, in the structure `Platform`: SHA-256 (of which only the length of a
digest is fixed) and pydantic's JSON writer and reader of an `AuditRecord`.
-/

namespace Aimw.Audit

open Lib

structure RedactedContext where
  userId : String
  agentId : String
  sessionId : String
  roles : List String

/-- `parameters` holds a digest for each value, or `str(value)` if redaction is off. -/
structure RedactedRequest where
  toolName : String
  functionName : String
  callId : String
  parameters : List (String × String)

structure AuditRecord where
  recordId : String
  timestamp : String
  callId : String
  context : RedactedContext
  request : RedactedRequest
  decision : List (String × PyVal)
  sandboxResult : Option (List (String × PyVal)) := none
  prevHash : String
  recordHash : String := ""

/-- The items of `record.model_dump(exclude={"record_hash"})`. -/
def AuditRecord.fields (r : AuditRecord) : List (String × PyVal) :=
  [("record_id", .str r.recordId), ("timestamp", .str r.timestamp), ("call_id", .str r.callId),
    ("context", .ofItems
      [("user_id", .str r.context.userId), ("agent_id", .str r.context.agentId),
        ("session_id", .str r.context.sessionId), ("roles", .ofStrings r.context.roles)]),
    ("request", .ofItems
      [("tool_name", .str r.request.toolName), ("function_name", .str r.request.functionName),
        ("call_id", .str r.request.callId),
        ("parameters", .ofItems (r.request.parameters.map fun p => (p.1, .str p.2)))]),
    ("decision", .ofItems r.decision),
    ("sandbox_result", .ofItems? r.sandboxResult),
    ("prev_hash", .str r.prevHash)]

/-- The payload the record's hash covers: everything but `record_hash`. -/
def AuditRecord.payload (r : AuditRecord) : PyVal := .ofItems r.fields

/-- Every value of the record is JSON-native. -/
def AuditRecord.isNative (r : AuditRecord) : Bool :=
  (PyVal.ofItems r.decision).isNative && (PyVal.ofItems? r.sandboxResult).isNative

/-- The record's decision says `allowed = b`. -/
def AuditRecord.Says (r : AuditRecord) (b : Bool) : Prop := r.decision.lookup "allowed" = some (.bool b)

/-! ## What is not in the repository -/

/-- SHA-256 of some bytes, in hexadecimal. -/
structure Sha256 where
  hexdigest : ByteArray → String
  length_hexdigest : ∀ b, (hexdigest b).toList.length = 64

structure Platform where
  sha256 : Sha256
  /-- `record.model_dump_json()` -/
  modelDumpJson : AuditRecord → Except Exc String
  /-- `AuditRecord.model_validate_json(line)` -/
  modelValidateJson : String → Except Exc AuditRecord

/-- The text of a JSON object, on one line. -/
structure JsonLine (s : String) : Prop where
  oneLine : OneLine s.toList
  head : s.toList.head? = some '{'
  last : s.toList.getLast? = some '}'

/-- Pydantic writes every record of JSON-native values as one line of JSON, and reads the same record back. -/
def Platform.RoundTrips (P : Platform) : Prop :=
  ∀ r : AuditRecord, r.isNative = true →
    ∃ line, P.modelDumpJson r = .ok line ∧ JsonLine line ∧ P.modelValidateJson line = .ok r

/-! ## Hashes -/

def GENESIS_HASH : String := "0000000000000000000000000000000000000000000000000000000000000000"

/-- `_canonical_bytes`; a value JSON cannot hold is a `TypeError`. -/
def canonicalBytes (payload : PyVal) : Except Exc ByteArray :=
  match payload.dumps with
  | some s => .ok s.toUTF8
  | none => .error (.exception "not JSON serializable")

/-- The bytes `_compute_record_hash` hashes. -/
def hashInput (prevHash : String) (record : AuditRecord) : Except Exc ByteArray :=
  (canonicalBytes record.payload).map fun b => prevHash.toUTF8 ++ b

def computeRecordHash (P : Platform) (prevHash : String) (record : AuditRecord) : Except Exc String :=
  (hashInput prevHash record).map P.sha256.hexdigest

/-! ## Sinks -/

/-- A destination a record is forwarded to: the in-memory collector, or one that raises on some records. -/
inductive BaseAuditSink
  | localSiemForwarder (forwarded : List AuditRecord)
  | other (raisesOn : AuditRecord → Bool)

/-- `sink.forward(record)`; `none` if it raises. -/
def BaseAuditSink.forward (record : AuditRecord) : BaseAuditSink → Option BaseAuditSink
  | .localSiemForwarder forwarded => some (.localSiemForwarder (forwarded ++ [record]))
  | .other raisesOn => if raisesOn record then none else some (.other raisesOn)

/-- A sink that raises is left as it was, and the next one gets the record all the same. -/
def forwardBestEffort (sinks : List BaseAuditSink) (record : AuditRecord) : List BaseAuditSink :=
  sinks.map fun sink => (sink.forward record).getD sink

/-! ## Lemmas -/

lemma genesis_length : GENESIS_HASH.toList.length = 64 := by decide

/-- The fields of a record are plain data, if its values are. -/
theorem fields_isPlain_of {r : AuditRecord} (hdecision : (PyVal.ofItems r.decision).isPlain = true)
    (hsandbox : (PyVal.ofItems? r.sandboxResult).isPlain = true) : ∀ p ∈ r.fields, p.2.isPlain = true := by
  have hcontext := isPlain_ofItems
    [("user_id", .str r.context.userId), ("agent_id", .str r.context.agentId),
      ("session_id", .str r.context.sessionId), ("roles", .ofStrings r.context.roles)]
    (by simpa using ⟨rfl, rfl, rfl, isPlain_ofStrings _⟩)
  have hparams := isPlain_ofItems (r.request.parameters.map fun p => (p.1, .str p.2))
    (by intro p hp; obtain ⟨q, -, rfl⟩ := List.mem_map.1 hp; rfl)
  have hrequest := isPlain_ofItems
    [("tool_name", .str r.request.toolName), ("function_name", .str r.request.functionName),
      ("call_id", .str r.request.callId),
      ("parameters", .ofItems (r.request.parameters.map fun p => (p.1, .str p.2)))]
    (by simpa using ⟨rfl, rfl, rfl, hparams⟩)
  simpa [AuditRecord.fields] using ⟨rfl, rfl, rfl, hcontext, hrequest, hdecision, hsandbox, rfl⟩

/-- The fields of a record of JSON-native values are plain data. -/
theorem fields_isPlain {r : AuditRecord} (h : r.isNative = true) : ∀ p ∈ r.fields, p.2.isPlain = true := by
  simp only [AuditRecord.isNative, Bool.and_eq_true] at h
  exact fields_isPlain_of (isPlain_of_isNative _ h.1) (isPlain_of_isNative _ h.2)

/-- The hash of a record of plain data can be computed. -/
theorem computeRecordHash_ok_of_plain (P : Platform) (h : String) {r : AuditRecord}
    (hdecision : (PyVal.ofItems r.decision).isPlain = true) (hsandbox : (PyVal.ofItems? r.sandboxResult).isPlain = true) :
    ∃ d, computeRecordHash P h r = .ok d := by
  have hplain := isPlain_ofItems r.fields (fields_isPlain_of hdecision hsandbox)
  obtain ⟨j, hj⟩ := Option.isSome_iff_exists.1 (toJson_isSome r.payload hplain)
  exact ⟨_, by simp only [computeRecordHash, hashInput, canonicalBytes, PyVal.dumps, hj, Option.map_some]; rfl⟩

/-- The hash of a record of JSON-native values can be computed. -/
theorem computeRecordHash_ok_of_native (P : Platform) (h : String) {r : AuditRecord} (hr : r.isNative = true) :
    ∃ d, computeRecordHash P h r = .ok d := by
  simp only [AuditRecord.isNative, Bool.and_eq_true] at hr
  exact computeRecordHash_ok_of_plain P h (isPlain_of_isNative _ hr.1) (isPlain_of_isNative _ hr.2)

/-- A record's own hash is no part of what is hashed. -/
lemma computeRecordHash_recordHash (P : Platform) (h d : String) (r : AuditRecord) :
    computeRecordHash P h { r with recordHash := d } = computeRecordHash P h r := rfl

/-- A record of which a hash is computed has a payload that `json.dumps` takes. -/
lemma toJson_of_hash {P : Platform} {h d : String} {r : AuditRecord} (hd : computeRecordHash P h r = .ok d) :
    ∃ j, r.payload.toJson = some j := by
  unfold computeRecordHash hashInput canonicalBytes PyVal.dumps at hd
  cases hj : r.payload.toJson with
  | some j => exact ⟨j, rfl⟩
  | none =>
    rw [hj] at hd
    cases hd

/-- A hash that is computed is the digest of some bytes. -/
lemma hashInput_of_hash {P : Platform} {h d : String} {r : AuditRecord} (hd : computeRecordHash P h r = .ok d) :
    ∃ b, hashInput h r = .ok b ∧ P.sha256.hexdigest b = d := by
  unfold computeRecordHash at hd
  cases hb : hashInput h r with
  | error e =>
    rw [hb] at hd
    cases hd
  | ok b =>
    rw [hb] at hd
    exact ⟨b, rfl, Except.ok.inj hd⟩

/-- The bytes hashed determine the previous hash and the payload, up to the order of keys. -/
theorem hashInput_inj {h k : String} {r s : AuditRecord} {b : ByteArray} (hlen : h.toList.length = k.toList.length)
    (hr : hashInput h r = .ok b) (hs : hashInput k s = .ok b) :
    h = k ∧ r.payload.toJson = s.payload.toJson := by
  unfold hashInput canonicalBytes at hr hs
  cases hx : r.payload.dumps with
  | none => simp [hx, Except.map] at hr
  | some x =>
    cases hy : s.payload.dumps with
    | none => simp [hy, Except.map] at hs
    | some y =>
      simp only [hx, hy, Except.map, Except.ok.injEq] at hr hs
      have happ : h ++ x = k ++ y := by
        rw [← String.toByteArray_inj, String.toByteArray_append, String.toByteArray_append]
        exact hr.trans hs.symm
      have hl : h.toList ++ x.toList = k.toList ++ y.toList := by
        rw [← String.toList_append, ← String.toList_append, happ]
      obtain ⟨h1, h2⟩ := List.append_inj hl hlen
      obtain rfl := String.toList_inj.1 h2
      exact ⟨String.toList_inj.1 h1, toJson_eq_of_dumps_eq hx hy⟩

end Aimw.Audit
