import Aimw.Audit.Stored

/-!
# What has an encoding

A Python text may hold lone surrogates.  Pydantic's models take it, and `json.dumps` writes it, but it has no UTF-8 encoding:
no digest of it is computed, and pydantic does not write it.  So `log_call` raises on some calls (`logCall_ok_iff`).
-/

namespace Aimw

open Lib Audit

mutual
/-- Every text in the value has an encoding, the keys included. -/
def PyVal.encodes (py : PyStr) : PyVal → Bool
  | .str s => py.encodes s
  | .list xs => listEncodes py xs
  | .dict items => itemsEncode py items
  | _ => true
def listEncodes (py : PyStr) : List PyVal → Bool
  | [] => true
  | x :: xs => x.encodes py && listEncodes py xs
def itemsEncode (py : PyStr) : List (PyKey × PyVal) → Bool
  | [] => true
  | (k, x) :: items => (k.asStr.map py.encodes).getD true && x.encodes py && itemsEncode py items
end

/-- The result can be recorded: its texts have encodings, and `str()` writes its exit code. -/
def SandboxResult.recordable (py : PyStr) (r : SandboxResult) : Bool :=
  py.encodes r.stdout && py.encodes r.stderr && fitsStr r.exitCode

namespace Audit

def AuditRecord.encodes (py : PyStr) (r : AuditRecord) : Bool := (PyVal.ofItems r.dump).encodes py

/-- Pydantic writes a record that JSON can hold exactly if its texts have encodings; digests are ASCII. -/
structure Platform.Writes (P : Platform) (py : PyStr) : Prop where
  digests : ∀ b, py.encodes (P.sha256.hexdigest b) = true
  records : ∀ r : AuditRecord, r.isStorable = true → ((∃ line, P.modelDumpJson r = .ok line) ↔ r.encodes py = true)

/-- The texts of a call, of which its record holds some and digests of the others, have encodings. -/
structure CallEncodes (py : PyStr) (context : ExecutionContext) (request : ToolRequest) : Prop where
  caller : ∀ t ∈ [context.userId, context.agentId, context.sessionId] ++ context.roles, py.encodes t = true
  names : ∀ t ∈ [request.toolName, request.functionName, request.callId], py.encodes t = true
  parameters : ∀ p ∈ request.parameters.items, py.encodes p.1 = true ∧ py.encodable p.2 = true

structure DecisionEncodes (py : PyStr) (d : PolicyDecision) : Prop where
  reason : py.encodes d.reason = true
  requirements : ∀ q ∈ d.actionRequirements, py.encodes q = true

variable {py : PyStr}

/-! ## Texts -/

lemma encodes_of_ascii {text : String} (h : (text.toList.all fun c => decide (c.toNat < 128)) = true) :
    py.encodes text = true := by
  refine List.all_eq_true.2 fun c hc => ?_
  rw [py.surrogate_ascii c (of_decide_eq_true (List.all_eq_true.1 h c hc))]
  rfl

lemma encodes_ofItems (items : List (String × PyVal)) :
    (PyVal.ofItems items).encodes py = items.all fun p => py.encodes p.1 && p.2.encodes py := by
  rw [PyVal.ofItems, PyVal.encodes]
  induction items with
  | nil => rfl
  | cons p items ih => rw [List.map_cons, itemsEncode, ih, List.all_cons]; rfl

lemma encodes_ofStrings (l : List String) : (PyVal.ofStrings l).encodes py = l.all py.encodes := by
  rw [PyVal.ofStrings, PyVal.encodes]
  induction l with
  | nil => rfl
  | cons s l ih => rw [List.map_cons, listEncodes, ih, List.all_cons, PyVal.encodes]

/-! ## Records -/

lemma encodes_modelDump {d : PolicyDecision} (hd : d.modifiedParameters = none) :
    (PyVal.ofItems d.modelDump).encodes py = true ↔ DecisionEncodes py d := by
  have hnone : (PyVal.ofItems? (d.modifiedParameters.map Dict.items)).encodes py = true := by rw [hd]; rfl
  simp (disch := decide) only [PolicyDecision.modelDump, encodes_ofItems, List.all_cons, List.all_nil, PyVal.encodes,
    encodes_ofStrings, encodes_of_ascii, hnone, Bool.true_and, Bool.and_true, Bool.and_eq_true, List.all_eq_true]
  exact ⟨fun h => ⟨h.1, h.2⟩, fun h => ⟨h.reason, h.requirements⟩⟩

lemma encodes_sandbox (r : SandboxResult) :
    (PyVal.ofItems r.modelDump).encodes py = (py.encodes r.stdout && py.encodes r.stderr) := by
  simp (disch := decide) only [SandboxResult.modelDump, encodes_ofItems, List.all_cons, List.all_nil, PyVal.encodes,
    encodes_of_ascii, Bool.true_and, Bool.and_true]

lemma modelDump_isNative {d : PolicyDecision} (hd : d.modifiedParameters = none) :
    (PyVal.ofItems d.modelDump).isNative = true := by
  have hrequirements : (PyVal.ofStrings d.actionRequirements).isNative = true := by
    generalize d.actionRequirements = requirements
    induction requirements with
    | nil => rfl
    | cons q requirements ih => simpa [PyVal.ofStrings, PyVal.isNative, areNative] using ih
  simp [PolicyDecision.modelDump, PyVal.ofItems, PyVal.ofItems?, hd, PyVal.isNative, areNativeItems, PyKey.asStr,
    hrequirements]

/-- An outcome whose exit code is not too long can be stored. -/
lemma sandbox_storable {s : Option SandboxResult} (h : ∀ r, s = some r → fitsStr r.exitCode = true) :
    (PyVal.ofItems? (s.map SandboxResult.modelDump)).isPlain = true ∧
      (PyVal.ofItems? (s.map SandboxResult.modelDump)).isStorable = true := by
  cases s with
  | none => exact ⟨rfl, rfl⟩
  | some r =>
    have hfits := h r rfl
    constructor
    · simp [SandboxResult.modelDump, PyVal.ofItems?, PyVal.ofItems, PyVal.isPlain, arePlainItems, PyKey.asStr, hfits]
    · simp [SandboxResult.modelDump, PyVal.ofItems?, PyVal.ofItems, PyVal.isStorable, areStorableItems, PyKey.fits,
        PyKey.clashes, keyText, hfits]

/-- `json.dumps` does not take an exit code that is too long. -/
lemma fits_of_toJson {s : Option SandboxResult} {j : Json}
    (h : (PyVal.ofItems? (s.map SandboxResult.modelDump)).toJson = some j) :
    ∀ r, s = some r → fitsStr r.exitCode = true := by
  rintro r rfl
  obtain ⟨k, hk⟩ := exists_toJson_of_mem h (p := ("exit_code", .int r.exitCode)) (by simp [SandboxResult.modelDump])
  exact (toJson_int_eq_some_iff.1 hk).1

section LogCall

variable {P : Platform} {logger : HashChainedJSONLLogger} {file : Option String} {context : ExecutionContext}
  {request : ToolRequest} {d : PolicyDecision} {s : Option SandboxResult} {recordId timestamp : String}

lemma encodes_redactedValues (hdigests : ∀ b, py.encodes (P.sha256.hexdigest b) = true) {redactParameters : Bool}
    (hredact : redactParameters = true → ∀ p ∈ request.parameters.items, py.encodable p.2 = true) :
    (redactedValues P py redactParameters request).all (fun p => py.encodes p.1 && py.encodes p.2) = true ↔
      ∀ p ∈ request.parameters.items, py.encodes p.1 = true ∧ py.encodable p.2 = true := by
  rw [redactedValues, List.all_map, List.all_eq_true]
  refine forall₂_congr fun p hp => ?_
  cases redactParameters with
  | false => simp [PyStr.encodable]
  | true => simp [hdigests, hredact rfl p hp]

/-- The texts of the record of a call. -/
lemma encodes_record (hdigests : ∀ b, py.encodes (P.sha256.hexdigest b) = true) (hd : d.modifiedParameters = none)
    {redactParameters : Bool}
    (hredact : redactParameters = true → ∀ p ∈ request.parameters.items, py.encodable p.2 = true)
    (hid : py.encodes recordId = true) (htime : py.encodes timestamp = true) {h g : String}
    (hprev : py.encodes h = true) (hhash : py.encodes g = true) :
    ({ recordOfCall context (redactedRequest P py redactParameters request) d (s.map SandboxResult.modelDump) recordId
          timestamp with prevHash := h, recordHash := g } : AuditRecord).encodes py = true ↔
      CallEncodes py context request ∧ DecisionEncodes py d ∧
        ∀ r, s = some r → py.encodes r.stdout = true ∧ py.encodes r.stderr = true := by
  have hparameters : (((redactedValues P py redactParameters request).map fun p => (p.1, PyVal.str p.2)).all fun p =>
      py.encodes p.1 && p.2.encodes py) = true ↔
        ∀ p ∈ request.parameters.items, py.encodes p.1 = true ∧ py.encodable p.2 = true := by
    rw [List.all_map, ← encodes_redactedValues hdigests hredact]
    rfl
  have hdecision : (d.modelDump.all fun p => py.encodes p.1 && p.2.encodes py) = true ↔ DecisionEncodes py d := by
    rw [← encodes_ofItems, encodes_modelDump hd]
  have hsandbox : (PyVal.ofItems? (s.map SandboxResult.modelDump)).encodes py = true ↔
      ∀ r, s = some r → py.encodes r.stdout = true ∧ py.encodes r.stderr = true := by
    cases s with
    | none => exact iff_of_true rfl (by simp)
    | some r =>
      rw [Option.map_some, PyVal.ofItems?, encodes_sandbox, Bool.and_eq_true]
      exact ⟨fun h _ heq => Option.some.inj heq ▸ h, fun h => h r rfl⟩
  rw [AuditRecord.encodes]
  simp (disch := decide) only [AuditRecord.dump, AuditRecord.fields, recordOfCall, redactedRequest,
    List.cons_append, List.nil_append, encodes_ofItems, List.all_cons, List.all_nil, PyVal.encodes, encodes_ofStrings, encodes_of_ascii, hid, htime, hprev, hhash,
    Bool.true_and, Bool.and_true, Bool.and_eq_true, hparameters, hdecision, hsandbox, List.all_eq_true]
  constructor
  · rintro ⟨-, ⟨huser, hagent, hsession, hroles⟩, ⟨htool, hfunction, hcall, hvalues⟩, hrest⟩
    exact ⟨⟨by simpa using ⟨huser, hagent, hsession, hroles⟩, by simpa using ⟨htool, hfunction, hcall⟩, hvalues⟩, hrest⟩
  · rintro ⟨hencodes, hrest⟩
    obtain ⟨huser, hagent, hsession, hroles⟩ := by simpa using hencodes.caller
    obtain ⟨htool, hfunction, hcall⟩ := by simpa using hencodes.names
    exact ⟨hcall, ⟨huser, hagent, hsession, hroles⟩, ⟨htool, hfunction, hcall, hencodes.parameters⟩, hrest⟩

/-- **When `log_call` does not raise**: exactly if the texts of the call, of the decision and of the outcome have encodings,
and `json.dumps` can write the exit code. -/
theorem logCall_ok_iff (hP : P.Writes py) (hd : d.modifiedParameters = none) (hhead : py.encodes logger.prevHash = true)
    (hid : py.encodes recordId = true) (htime : py.encodes timestamp = true) :
    (∃ out, logger.logCall P py file context request d (s.map SandboxResult.modelDump) recordId timestamp = .ok out) ↔
      CallEncodes py context request ∧ DecisionEncodes py d ∧ ∀ r, s = some r → r.recordable py = true := by
  by_cases hredact : logger.redactParameters = true → ∀ p ∈ request.parameters.items, py.encodable p.2 = true
  swap
  · refine iff_of_false ?_ fun hencodes => hredact fun _ p hp => (hencodes.1.parameters p hp).2
    rintro ⟨⟨file', logger', record⟩, hcall⟩
    obtain ⟨r, hr, -⟩ := logCall_ok hcall
    exact hredact (redactRequest_eq_ok_iff.1 hr).1
  rw [logCall_of_redacted (redactRequest_eq_ok_iff.2 ⟨hredact, rfl⟩)]
  rw [append_ok_iff]
  by_cases hfits : ∀ r, s = some r → fitsStr r.exitCode = true
  swap
  · refine iff_of_false ?_ fun hencodes => hfits fun r hr => ?_
    · rintro ⟨digest, hdigest, -⟩
      obtain ⟨j, hj⟩ := toJson_of_hash hdigest
      obtain ⟨k, hk⟩ := exists_toJson_of_mem hj (p := ("sandbox_result", .ofItems? (s.map SandboxResult.modelDump)))
        (by simp [AuditRecord.fields, recordOfCall])
      exact hfits (fits_of_toJson hk)
    · exact (Bool.and_eq_true_iff.1 (hencodes.2.2 r hr)).2
  have hnative := modelDump_isNative hd
  obtain ⟨hplain, hstorable⟩ := sandbox_storable hfits
  obtain ⟨digest, hdigest⟩ := computeRecordHash_ok_of_plain P logger.prevHash
    (r := { recordOfCall context (redactedRequest P py logger.redactParameters request) d
        (s.map SandboxResult.modelDump) recordId timestamp with prevHash := logger.prevHash })
    (isPlain_of_isNative _ hnative) hplain
  have hbuilt : ∀ h g, ({ recordOfCall context (redactedRequest P py logger.redactParameters request) d
      (s.map SandboxResult.modelDump) recordId timestamp with prevHash := h, recordHash := g } : AuditRecord).isStorable
      = true := by
    intro h g
    rw [AuditRecord.isStorable, recordOfCall, isStorable_of_isNative _ hnative, hstorable, Bool.and_self]
  obtain ⟨b, -, hb⟩ := hashInput_of_hash hdigest
  have hencodes := @encodes_record py P context request d s recordId timestamp hP.digests hd _ hredact hid htime _ _ hhead
    (hb ▸ hP.digests b : py.encodes digest = true)
  constructor
  · rintro ⟨digest', hdigest', hline⟩
    obtain rfl := Except.ok.inj (hdigest.symm.trans hdigest')
    obtain ⟨hcall, hdecision, houtcome⟩ := hencodes.1 ((hP.records _ (hbuilt _ _)).1 hline)
    refine ⟨hcall, hdecision, fun r hr => ?_⟩
    rw [SandboxResult.recordable, (houtcome r hr).1, (houtcome r hr).2, hfits r hr]
    rfl
  · rintro ⟨hcall, hdecision, houtcome⟩
    refine ⟨digest, hdigest, (hP.records _ (hbuilt _ _)).2 (hencodes.2 ⟨hcall, hdecision, fun r hr => ?_⟩)⟩
    exact Bool.and_eq_true_iff.1 (Bool.and_eq_true_iff.1 (houtcome r hr)).1

end LogCall

end Audit

end Aimw
