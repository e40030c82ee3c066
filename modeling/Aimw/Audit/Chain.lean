import Aimw.Audit.WormLog

/-!
# The chain in the file

The refinement between the bytes on disk and a chain of records.  `Reads P lines rs` reads the lines of a file
as the records `rs`, and `Links P` is one step of the hash chain, so that

* `verify_accepts_iff`: `verify_chain` accepts exactly the files whose records are `Linked` from `GENESIS_HASH`;
* `verifyLines_reject_append`: a rejection stands, whatever is appended;
* `append_spec`: one `append` adds one line, that reads as the returned record and continues the chain;
* `sessions_spec`: so does any sequence of sessions, each with a logger that reloads the last hash.
-/

namespace Aimw.Audit

open Lib

variable (P : Platform)

/-! ## Lines and records -/

/-- The lines of the file. -/
def lines (file : Option String) : List (List Char) := splitLines (file.getD "").toList

/-- What a line holds, read as a record. -/
def readLine (line : List Char) : Except Exc AuditRecord := P.modelValidateJson (String.ofList (strip line))

/-- The lines that are not blank hold the records `rs`. -/
inductive Reads : List (List Char) → List AuditRecord → Prop
  | nil : Reads [] []
  | blank {l : List Char} {ls : List (List Char)} {rs : List AuditRecord} :
      strip l = [] → Reads ls rs → Reads (l :: ls) rs
  | record {l : List Char} {ls : List (List Char)} {r : AuditRecord} {rs : List AuditRecord} :
      strip l ≠ [] → readLine P l = .ok r → Reads ls rs → Reads (l :: ls) (r :: rs)

/-- A line that is not blank and holds the record `r`. -/
def RecordLine (l : List Char) (r : AuditRecord) : Prop := strip l ≠ [] ∧ readLine P l = .ok r

/-- One step of the chain: the record names the hash before it and carries its own. -/
def Links (h : String) (r : AuditRecord) (k : String) : Prop :=
  r.prevHash = h ∧ computeRecordHash P h r = .ok r.recordHash ∧ r.recordHash = k

/-- The hash of the last record, `h` if there is none. -/
def lastHash (h : String) (rs : List AuditRecord) : String := (rs.getLast?.map AuditRecord.recordHash).getD h

variable {P}

lemma verifyChain_eq (file : Option String) : verifyChain P file = verifyLines P (lines file) 0 0 GENESIS_HASH := by
  cases file with
  | none => rfl
  | some t =>
    by_cases ht : t = ""
    · subst ht; rfl
    · simp [verifyChain, ht, lines]

lemma loadLastHash_eq (file : Option String) : loadLastHash P file = loadLines P (lines file) GENESIS_HASH := by
  cases file with
  | none => rfl
  | some t =>
    by_cases ht : t = ""
    · subst ht; rfl
    · simp [loadLastHash, ht, lines]

theorem Reads.append {ls ms : List (List Char)} {rs ss : List AuditRecord} (h : Reads P ls rs) (h' : Reads P ms ss) :
    Reads P (ls ++ ms) (rs ++ ss) := by
  induction h with
  | nil => exact h'
  | blank hl _ ih => exact .blank hl ih
  | record hl hr _ ih => exact .record hl hr ih

theorem reads_of_recordLines {ls : List (List Char)} {rs : List AuditRecord} (h : List.Forall₂ (RecordLine P) ls rs) :
    Reads P ls rs := by
  induction h with
  | nil => exact .nil
  | cons hl _ ih => exact .record hl.1 hl.2 ih

theorem map_readLine {ls : List (List Char)} {rs : List AuditRecord} (h : List.Forall₂ (RecordLine P) ls rs) :
    ls.map (readLine P) = rs.map .ok := by
  induction h with
  | nil => rfl
  | cons hl _ ih => rw [List.map_cons, List.map_cons, hl.2, ih]

/-- Lines hold one list of records only. -/
theorem Reads.unique {ls : List (List Char)} {rs ss : List AuditRecord} (h : Reads P ls rs) (h' : Reads P ls ss) :
    rs = ss := by
  induction h generalizing ss with
  | nil => cases h'; rfl
  | blank hl _ ih =>
    cases h' with
    | blank _ h' => exact ih h'
    | record hl' _ _ => exact absurd hl hl'
  | record hl hr _ ih =>
    cases h' with
    | blank hl' _ => exact absurd hl' hl
    | record _ hr' h' =>
      rw [hr] at hr'
      obtain rfl := Except.ok.inj hr'
      rw [ih h']

/-- A file whose lines are all blank or records is read. -/
theorem reads_of_forall {ls : List (List Char)} (h : ∀ l ∈ ls, strip l = [] ∨ ∃ r, readLine P l = .ok r) :
    ∃ rs, Reads P ls rs := by
  induction ls with
  | nil => exact ⟨[], .nil⟩
  | cons l ls ih =>
    obtain ⟨rs, hrs⟩ := ih fun l hl => h l (by simp [hl])
    by_cases hl : strip l = []
    · exact ⟨rs, .blank hl hrs⟩
    · obtain ⟨r, hr⟩ := (h l (by simp)).resolve_left hl
      exact ⟨r :: rs, .record hl hr hrs⟩

lemma lastHash_cons (h : String) (r : AuditRecord) (rs : List AuditRecord) :
    lastHash h (r :: rs) = lastHash r.recordHash rs := by
  cases rs with
  | nil => rfl
  | cons s rs =>
    simp only [lastHash, List.getLast?_cons_cons]
    cases hl : (s :: rs).getLast? with
    | none => simp at hl
    | some t => rfl

lemma lastHash_append (h : String) (rs ss : List AuditRecord) :
    lastHash h (rs ++ ss) = lastHash (lastHash h rs) ss := by
  induction rs generalizing h with
  | nil => rfl
  | cons r rs ih => rw [List.cons_append, lastHash_cons, lastHash_cons, ih]

/-- A chain ends at the hash of its last record. -/
theorem linked_lastHash {h k : String} {rs : List AuditRecord} (hrs : Linked (Links P) h rs k) :
    k = lastHash h rs := by
  induction hrs with
  | nil h => rfl
  | cons hr _ ih =>
    obtain ⟨-, -, rfl⟩ := hr
    rw [ih, lastHash_cons]

theorem loadLines_of_reads {ls : List (List Char)} {rs : List AuditRecord} (h : Reads P ls rs) (k : String) :
    loadLines P ls k = .ok (lastHash k rs) := by
  induction h generalizing k with
  | nil => rfl
  | blank hl _ ih => rw [loadLines, if_pos hl, ih]
  | @record l _ r _ hl hr _ ih =>
    have hr' : P.modelValidateJson (String.ofList (strip l)) = .ok r := hr
    rw [loadLines, if_neg hl, hr', lastHash_cons]
    exact ih r.recordHash

/-! ## What `verify_chain` accepts -/

/-- One line of the loop: a record that links is passed over, any other record is the first broken one. -/
lemma verifyLines_record {l : List Char} {r : AuditRecord} (hl : strip l ≠ []) (hr : readLine P l = .ok r)
    {d h : String} (hd : computeRecordHash P h r = .ok d) (ls : List (List Char)) (i c : ℕ) :
    verifyLines P (l :: ls) i c h =
      if r.prevHash ≠ h ∨ r.recordHash ≠ d then .ok ⟨false, c, some i⟩
      else verifyLines P ls (i + 1) (c + 1) r.recordHash := by
  have hr' : P.modelValidateJson (String.ofList (strip l)) = .ok r := hr
  rw [verifyLines, if_neg hl, hr']
  simp only [bind, Except.bind, hd]

/-- A line that cannot be read ends the loop with its exception. -/
lemma verifyLines_unread {l : List Char} {e : Exc} (hl : strip l ≠ []) (hr : readLine P l = .error e)
    (ls : List (List Char)) (i c : ℕ) (h : String) : verifyLines P (l :: ls) i c h = .error e := by
  have hr' : P.modelValidateJson (String.ofList (strip l)) = .error e := hr
  rw [verifyLines, if_neg hl, hr']
  rfl

/-- The loop inverted: it returns only if every line up to the end, or to the first broken record, is read and
hashed. -/
lemma verifyLines_cons_ok {l : List Char} {ls : List (List Char)} {i c : ℕ} {h : String}
    {res : ChainVerificationResult} (hl : strip l ≠ []) (hv : verifyLines P (l :: ls) i c h = .ok res) :
    ∃ r d, readLine P l = .ok r ∧ computeRecordHash P h r = .ok d := by
  rw [verifyLines, if_neg hl] at hv
  cases hr : readLine P l with
  | error e =>
    simp only [show P.modelValidateJson (String.ofList (strip l)) = _ from hr, bind, Except.bind] at hv
    cases hv
  | ok r =>
    cases hd : computeRecordHash P h r with
    | error e =>
      simp only [show P.modelValidateJson (String.ofList (strip l)) = _ from hr, bind, Except.bind, hd] at hv
      cases hv
    | ok d => exact ⟨r, d, rfl, hd⟩

/-- The loop passes over a chain. -/
theorem verifyLines_append {ls : List (List Char)} {rs : List AuditRecord} (hls : Reads P ls rs) {h k : String}
    (hrs : Linked (Links P) h rs k) (ms : List (List Char)) (i c : ℕ) :
    verifyLines P (ls ++ ms) i c h = verifyLines P ms (i + ls.length) (c + rs.length) k := by
  induction hls generalizing h i c with
  | nil =>
    obtain rfl := linked_nil_iff.1 hrs
    rfl
  | @blank l ls rs hl _ ih =>
    rw [List.cons_append, verifyLines, if_pos hl, ih hrs, List.length_cons, Nat.add_right_comm, Nat.add_assoc]
  | @record l ls r rs hl hr _ ih =>
    obtain ⟨m, ⟨hp, hd, rfl⟩, hrest⟩ := linked_cons_iff.1 hrs
    rw [List.cons_append, verifyLines_record hl hr hd, if_neg (by simp [hp]), ih hrest, List.length_cons, List.length_cons]
    congr 1
    · omega
    · omega

/-- A chain is accepted, with its length added to the count. -/
theorem verifyLines_of_linked {ls : List (List Char)} {rs : List AuditRecord} (hls : Reads P ls rs) {h k : String}
    (hrs : Linked (Links P) h rs k) (i c : ℕ) : verifyLines P ls i c h = .ok ⟨true, c + rs.length, none⟩ := by
  have hwhole := verifyLines_append hls hrs [] i c
  rwa [List.append_nil] at hwhole

/-- What is accepted is a chain. -/
theorem linked_of_verifyLines {ls : List (List Char)} {i c n : ℕ} {h : String} {f : Option ℕ}
    (hv : verifyLines P ls i c h = .ok ⟨true, n, f⟩) :
    ∃ rs k, Reads P ls rs ∧ Linked (Links P) h rs k ∧ n = c + rs.length ∧ f = none := by
  induction ls generalizing i c h with
  | nil =>
    simp only [verifyLines, Except.ok.injEq, ChainVerificationResult.mk.injEq, true_and] at hv
    exact ⟨[], h, .nil, .nil h, by simp [hv.1], hv.2.symm⟩
  | cons l ls ih =>
    by_cases hl : strip l = []
    · rw [verifyLines, if_pos hl] at hv
      obtain ⟨rs, k, h1, h2, h3, h4⟩ := ih hv
      exact ⟨rs, k, .blank hl h1, h2, h3, h4⟩
    · obtain ⟨r, d, hr, hd⟩ := verifyLines_cons_ok hl hv
      rw [verifyLines_record hl hr hd] at hv
      split_ifs at hv with hbad
      · cases hv
      · push Not at hbad
        obtain ⟨hp, rfl⟩ := hbad
        obtain ⟨rs, k, h1, h2, h3, h4⟩ := ih hv
        exact ⟨r :: rs, k, .record hl hr h1, .cons ⟨hp, hd, rfl⟩ h2, by simp only [List.length_cons]; omega, h4⟩

/-- **`verify_chain` accepts exactly the chains from `GENESIS_HASH`.** -/
theorem verify_accepts_iff {file : Option String} {n : ℕ} {f : Option ℕ} :
    verifyChain P file = .ok ⟨true, n, f⟩ ↔
      ∃ rs k, Reads P (lines file) rs ∧ Linked (Links P) GENESIS_HASH rs k ∧ n = rs.length ∧ f = none := by
  rw [verifyChain_eq]
  constructor
  · intro hv
    obtain ⟨rs, k, h1, h2, h3, h4⟩ := linked_of_verifyLines hv
    exact ⟨rs, k, h1, h2, by omega, h4⟩
  · rintro ⟨rs, k, h1, h2, rfl, rfl⟩
    rw [verifyLines_of_linked h1 h2]
    simp

/-- A rejection does not depend on what follows the broken record. -/
theorem verifyLines_reject_append {ls : List (List Char)} {i c n : ℕ} {h : String} {f : Option ℕ}
    (hv : verifyLines P ls i c h = .ok ⟨false, n, f⟩) (ms : List (List Char)) :
    verifyLines P (ls ++ ms) i c h = .ok ⟨false, n, f⟩ := by
  induction ls generalizing i c h with
  | nil => simp [verifyLines] at hv
  | cons l ls ih =>
    by_cases hl : strip l = []
    · rw [verifyLines, if_pos hl] at hv
      rw [List.cons_append, verifyLines, if_pos hl, ih hv]
    · obtain ⟨r, d, hr, hd⟩ := verifyLines_cons_ok hl hv
      rw [verifyLines_record hl hr hd] at hv
      rw [List.cons_append, verifyLines_record hl hr hd]
      split_ifs at hv ⊢ with hbad
      · exact hv
      · exact ih hv

/-! ## What `append` does -/

/-- The text of the file ends with a newline, or it is empty. -/
def FileTerminated (file : Option String) : Prop := Terminated (file.getD "").toList

lemma JsonLine.strip_eq {s : String} (h : JsonLine s) : strip s.toList = s.toList := by
  refine strip_eq_self (fun c hc => ?_) (fun c hc => ?_)
  · rw [h.head] at hc
    obtain rfl := Option.some.inj hc
    decide
  · rw [h.last] at hc
    obtain rfl := Option.some.inj hc
    decide

lemma JsonLine.ne_nil {s : String} (h : JsonLine s) : s.toList ≠ [] := by
  intro hs
  have := h.head
  simp [hs] at this

/-- A line written to a terminated file is its next line. -/
lemma lines_append {file : Option String} (hfile : FileTerminated file) {line : String} (hline : JsonLine line) :
    lines (some (file.getD "" ++ line ++ "\n")) = lines file ++ [line.toList] ∧
      FileTerminated (some (file.getD "" ++ line ++ "\n")) := by
  have htext : (file.getD "" ++ line ++ "\n").toList = (file.getD "").toList ++ (line.toList ++ ['\n']) := by
    simp [String.toList_append]
  refine ⟨?_, ?_⟩
  · simp only [lines, Option.getD_some, htext]
    rw [splitLines_append hfile, splitLines_oneLine hline.oneLine]
  · right
    exact ⟨(file.getD "").toList ++ line.toList, by simp [String.toList_append]⟩

/-- **One `append`**: one more line, which reads as the returned record and continues the chain. -/
theorem append_spec (hP : P.RoundTrips) (logger : HashChainedJSONLLogger) {file : Option String}
    (hfile : FileTerminated file) {record : AuditRecord} (hr : record.isNative = true) :
    ∃ file' logger' record' line, logger.append P file record = .ok (file', logger', record') ∧
      FileTerminated file' ∧ lines file' = lines file ++ [line] ∧ RecordLine P line record' ∧
      Links P logger.prevHash record' logger'.prevHash := by
  obtain ⟨d, hd⟩ := computeRecordHash_ok_of_native P logger.prevHash (r := { record with prevHash := logger.prevHash }) hr
  obtain ⟨line, hdump, hline, hread⟩ := hP { record with prevHash := logger.prevHash, recordHash := d } hr
  obtain ⟨hlines, hterm⟩ := lines_append hfile hline
  refine ⟨some (file.getD "" ++ line ++ "\n"),
    { logger with
      prevHash := d
      sinks := forwardBestEffort logger.sinks { record with prevHash := logger.prevHash, recordHash := d } },
    { record with prevHash := logger.prevHash, recordHash := d }, line.toList, ?_, hterm, hlines,
    ⟨?_, ?_⟩, rfl, hd, rfl⟩
  · simp only [HashChainedJSONLLogger.append, hd, bind, Except.bind, hdump]
  · rw [hline.strip_eq]
    exact hline.ne_nil
  · rw [readLine, hline.strip_eq, String.ofList_toList]
    exact hread

/-! ## What `log_call` writes -/

/-- A loop that can raise ends when no step of it raises. -/
lemma mapM_ok_iff {α β ε : Type} {f : α → Except ε β} {xs : List α} :
    (∃ ys, xs.mapM f = .ok ys) ↔ ∀ x ∈ xs, ∃ y, f x = .ok y := by
  induction xs with
  | nil => simp [pure, Except.pure]
  | cons x xs ih =>
    rw [List.forall_mem_cons, ← ih, List.mapM_cons]
    cases hx : f x with
    | error e => simp [bind, Except.bind]
    | ok y =>
      cases hxs : xs.mapM f with
      | error e => simp [bind, Except.bind]
      | ok ys => simp [bind, Except.bind, pure, Except.pure]

/-- What a loop makes of its elements, if no step raises. -/
lemma mapM_eq_ok {α β ε : Type} {f : α → Except ε β} {g : α → β} {xs : List α} (h : ∀ x ∈ xs, f x = .ok (g x)) :
    xs.mapM f = .ok (xs.map g) := by
  induction xs with
  | nil => rfl
  | cons x xs ih =>
    obtain ⟨hx, hxs⟩ := List.forall_mem_cons.1 h
    rw [List.mapM_cons, hx, ih hxs]
    rfl

section LogCall

variable {py : PyStr} {logger logger' : HashChainedJSONLLogger} {file file' : Option String}
  {context : ExecutionContext} {request : ToolRequest} {decision : PolicyDecision}
  {sandboxResult : Option (List (String × PyVal))} {recordId timestamp : String} {record : AuditRecord}

/-- What an `append` that returns has done. -/
theorem append_ok {built : AuditRecord} (h : logger.append P file built = .ok (file', logger', record)) :
    ∃ d line, computeRecordHash P logger.prevHash { built with prevHash := logger.prevHash } = .ok d ∧
      record = { built with prevHash := logger.prevHash, recordHash := d } ∧ P.modelDumpJson record = .ok line ∧
      file' = some (file.getD "" ++ line ++ "\n") ∧
      logger' = { logger with prevHash := d, sinks := forwardBestEffort logger.sinks record } := by
  cases hd : computeRecordHash P logger.prevHash { built with prevHash := logger.prevHash } with
  | error e => simp only [HashChainedJSONLLogger.append, hd, bind, Except.bind, reduceCtorEq] at h
  | ok d =>
    cases hline : P.modelDumpJson { built with prevHash := logger.prevHash, recordHash := d } with
    | error e => simp only [HashChainedJSONLLogger.append, hd, hline, bind, Except.bind, reduceCtorEq] at h
    | ok line =>
      simp only [HashChainedJSONLLogger.append, hd, hline, bind, Except.bind, Except.ok.injEq, Prod.mk.injEq] at h
      obtain ⟨rfl, rfl, rfl⟩ := h
      exact ⟨d, line, rfl, rfl, hline, rfl, rfl⟩

/-- `append` changes the hashes of a record, and nothing else. -/
theorem append_record {built : AuditRecord} (h : logger.append P file built = .ok (file', logger', record)) :
    record = { built with prevHash := record.prevHash, recordHash := record.recordHash } := by
  obtain ⟨d, line, -, rfl, -⟩ := append_ok h
  rfl

/-- The record that is returned continues the chain at the logger's hash. -/
theorem append_links {built : AuditRecord} (h : logger.append P file built = .ok (file', logger', record)) :
    Links P logger.prevHash record logger'.prevHash := by
  obtain ⟨d, line, hd, rfl, -, -, rfl⟩ := append_ok h
  exact ⟨rfl, hd, rfl⟩

/-- The record that `log_call` builds, with the request redacted. -/
def recordOfCall (context : ExecutionContext) (r : RedactedRequest) (decision : PolicyDecision)
    (sandboxResult : Option (List (String × PyVal))) (recordId timestamp : String) : AuditRecord where
  recordId := recordId
  timestamp := timestamp
  callId := r.callId
  context := ⟨context.userId, context.agentId, context.sessionId, context.roles⟩
  request := r
  decision := decision.modelDump
  sandboxResult := sandboxResult
  prevHash := GENESIS_HASH

variable (P py) in
/-- The parameters as the record has them. -/
def redactedValues (redactParameters : Bool) (request : ToolRequest) : List (String × String) :=
  request.parameters.items.map fun p =>
    (p.1, if redactParameters then P.sha256.hexdigest (py.str p.2).toUTF8 else py.str p.2)

variable (P py) in
/-- The request as the record has it. -/
def redactedRequest (redactParameters : Bool) (request : ToolRequest) : RedactedRequest :=
  ⟨request.toolName, request.functionName, request.callId, redactedValues P py redactParameters request⟩

/-- `_redact_request` needs encodings to compute digests, and nothing else. -/
theorem redactRequest_eq_ok_iff {r : RedactedRequest} :
    HashChainedJSONLLogger.redactRequest P py logger request = .ok r ↔
      (logger.redactParameters = true → ∀ p ∈ request.parameters.items, py.encodable p.2 = true) ∧
        r = redactedRequest P py logger.redactParameters request := by
  cases hredact : logger.redactParameters with
  | false =>
    have hloop : (request.parameters.items.mapM fun p => do
        let value ← (.ok (py.str p.2) : Except Exc String)
        (.ok (p.1, value) : Except Exc (String × String))) = .ok (redactedValues P py false request) :=
      mapM_eq_ok fun _ _ => rfl
    simp only [HashChainedJSONLLogger.redactRequest, hredact, Bool.false_eq_true, if_false, hloop]
    exact ⟨fun h => ⟨False.elim, (Except.ok.inj h).symm⟩, fun h => congrArg Except.ok h.2.symm⟩
  | true =>
    by_cases hall : ∀ p ∈ request.parameters.items, py.encodable p.2 = true
    · have hloop : (request.parameters.items.mapM fun p => do
          let value ← hashValue P py p.2
          (.ok (p.1, value) : Except Exc (String × String))) = .ok (redactedValues P py true request) :=
        mapM_eq_ok fun p hp => by simp [hashValue, hall p hp, bind, Except.bind]
      simp only [HashChainedJSONLLogger.redactRequest, hredact, if_true, hloop]
      exact ⟨fun h => ⟨fun _ => hall, (Except.ok.inj h).symm⟩, fun h => congrArg Except.ok h.2.symm⟩
    · refine iff_of_false (fun h => hall ?_) fun h => hall (h.1 rfl)
      simp only [HashChainedJSONLLogger.redactRequest, hredact, if_true] at h
      cases hloop : request.parameters.items.mapM fun p => do
          let value ← hashValue P py p.2
          (.ok (p.1, value) : Except Exc (String × String)) with
      | error e =>
        rw [hloop] at h
        cases h
      | ok ys =>
        intro p hp
        obtain ⟨y, hy⟩ := mapM_ok_iff.1 ⟨ys, hloop⟩ p hp
        by_contra hnot
        simp [hashValue, hnot, bind, Except.bind] at hy

/-- What redaction leaves as it is. -/
lemma redactRequest_names {r : RedactedRequest} (h : HashChainedJSONLLogger.redactRequest P py logger request = .ok r) :
    (r.toolName = request.toolName ∧ r.functionName = request.functionName ∧ r.callId = request.callId) ∧
      r.parameters.map Prod.fst = request.parameters.keys := by
  obtain ⟨-, rfl⟩ := redactRequest_eq_ok_iff.1 h
  exact ⟨⟨rfl, rfl, rfl⟩, by rw [redactedRequest, redactedValues, List.map_map]; rfl⟩

lemma buildRecord_of_redacted {r : RedactedRequest}
    (hr : HashChainedJSONLLogger.redactRequest P py logger request = .ok r) (context : ExecutionContext)
    (decision : PolicyDecision) (sandboxResult : Option (List (String × PyVal))) (recordId timestamp : String) :
    logger.buildRecord P py context request decision sandboxResult recordId timestamp =
      .ok (recordOfCall context r decision sandboxResult recordId timestamp) := by
  rw [HashChainedJSONLLogger.buildRecord, hr, recordOfCall, (redactRequest_names hr).1.2.2]
  rfl

/-- `log_call` appends the record that it builds. -/
lemma logCall_of_redacted {r : RedactedRequest}
    (hr : HashChainedJSONLLogger.redactRequest P py logger request = .ok r) (file : Option String)
    (context : ExecutionContext) (decision : PolicyDecision) (sandboxResult : Option (List (String × PyVal)))
    (recordId timestamp : String) :
    logger.logCall P py file context request decision sandboxResult recordId timestamp =
      logger.append P file (recordOfCall context r decision sandboxResult recordId timestamp) := by
  rw [HashChainedJSONLLogger.logCall, buildRecord_of_redacted hr]
  rfl

/-- A `log_call` that returns has redacted the request and appended its record. -/
theorem logCall_ok (h : logger.logCall P py file context request decision sandboxResult recordId timestamp
      = .ok (file', logger', record)) :
    ∃ r, HashChainedJSONLLogger.redactRequest P py logger request = .ok r ∧
      logger.append P file (recordOfCall context r decision sandboxResult recordId timestamp)
        = .ok (file', logger', record) := by
  cases hr : HashChainedJSONLLogger.redactRequest P py logger request with
  | error e => simp only [HashChainedJSONLLogger.logCall, HashChainedJSONLLogger.buildRecord, hr, bind, Except.bind,
      reduceCtorEq] at h
  | ok r => exact ⟨r, rfl, (logCall_of_redacted hr file context decision sandboxResult recordId timestamp).symm.trans h⟩

/-- The record of a call names the call and holds its decision and outcome. -/
theorem logCall_record (h : logger.logCall P py file context request decision sandboxResult recordId timestamp
      = .ok (file', logger', record)) :
    record.callId = request.callId ∧ record.decision = decision.modelDump ∧ record.sandboxResult = sandboxResult := by
  obtain ⟨r, hr, happ⟩ := logCall_ok h
  rw [append_record happ]
  exact ⟨(redactRequest_names hr).1.2.2, rfl, rfl⟩

end LogCall

/-! ## When `log_call` succeeds -/

/-- A call whose parameters have an encoding, with values that are JSON-native, is logged. -/
theorem logCall_succeeds (hP : P.RoundTrips) (py : PyStr) (logger : HashChainedJSONLLogger) {file : Option String}
    (hfile : FileTerminated file) (context : ExecutionContext) (request : ToolRequest)
    (hreq : ∀ p ∈ request.parameters.items, py.encodable p.2 = true) {decision : PolicyDecision}
    (hdec : (PyVal.ofItems decision.modelDump).isNative = true) {sandboxResult : Option (List (String × PyVal))}
    (hsand : (PyVal.ofItems? sandboxResult).isNative = true) (recordId timestamp : String) :
    ∃ file' logger' record, logger.logCall P py file context request decision sandboxResult recordId timestamp
      = .ok (file', logger', record) := by
  obtain ⟨r, hr⟩ : ∃ r, HashChainedJSONLLogger.redactRequest P py logger request = .ok r :=
    ⟨_, redactRequest_eq_ok_iff.2 ⟨fun _ => hreq, rfl⟩⟩
  have hbuilt : (recordOfCall context r decision sandboxResult recordId timestamp).isNative = true := by
    rw [AuditRecord.isNative, recordOfCall, hdec, hsand, Bool.and_self]
  obtain ⟨file', logger', record, -, happ, -⟩ := append_spec hP logger hfile hbuilt
  exact ⟨file', logger', record, (logCall_of_redacted hr ..).trans happ⟩

/-! ## Runs -/

/-- Append the records one after the other. -/
def HashChainedJSONLLogger.appendAll (P : Platform) (logger : HashChainedJSONLLogger) (file : Option String) :
    List AuditRecord → Except Exc (Option String × HashChainedJSONLLogger × List AuditRecord)
  | [] => .ok (file, logger, [])
  | r :: rs => do
    let (file, logger, r) ← logger.append P file r
    let (file, logger, rs) ← logger.appendAll P file rs
    .ok (file, logger, r :: rs)

/-- One process: it constructs a logger on the file and appends records. -/
structure Session where
  redactParameters : Bool
  sinks : List BaseAuditSink
  records : List AuditRecord

/-- The file after the session, and the records its appends returned. -/
def runSession (P : Platform) (file : Option String) (s : Session) : Except Exc (Option String × List AuditRecord) := do
  let logger ← HashChainedJSONLLogger.init P file s.redactParameters s.sinks
  let (file, _, rs) ← logger.appendAll P file s.records
  .ok (file, rs)

def runSessions (P : Platform) : Option String → List Session → Except Exc (Option String × List AuditRecord)
  | file, [] => .ok (file, [])
  | file, s :: ss => do
    let (file, rs) ← runSession P file s
    let (file, rest) ← runSessions P file ss
    .ok (file, rs ++ rest)

theorem appendAll_spec (hP : P.RoundTrips) {records : List AuditRecord} (hr : ∀ r ∈ records, r.isNative = true)
    (logger : HashChainedJSONLLogger) {file : Option String} (hfile : FileTerminated file) :
    ∃ file' logger' rs new, logger.appendAll P file records = .ok (file', logger', rs) ∧ FileTerminated file' ∧
      lines file' = lines file ++ new ∧ List.Forall₂ (RecordLine P) new rs ∧
      Linked (Links P) logger.prevHash rs logger'.prevHash ∧ rs.length = records.length := by
  induction records generalizing logger file with
  | nil => exact ⟨file, logger, [], [], rfl, hfile, by simp, .nil, .nil _, rfl⟩
  | cons r records ih =>
    obtain ⟨file₁, logger₁, r', line, h1, hterm₁, hl₁, hread₁, hlink₁⟩ := append_spec hP logger hfile (hr r (by simp))
    obtain ⟨file₂, logger₂, rs, new, h2, hterm₂, hl₂, hread₂, hlink₂, hlen⟩ :=
      ih (fun r hr' => hr r (by simp [hr'])) logger₁ hterm₁
    refine ⟨file₂, logger₂, r' :: rs, line :: new, ?_, hterm₂, ?_, .cons hread₁ hread₂, .cons hlink₁ hlink₂,
      by simp [hlen]⟩
    · simp only [HashChainedJSONLLogger.appendAll, h1, bind, Except.bind, h2]
    · rw [hl₂, hl₁, List.append_assoc, List.singleton_append]

/-- **Sessions.**  Each session's records continue the chain at the hash its logger read back. -/
theorem sessions_spec (hP : P.RoundTrips) {sessions : List Session}
    (hs : ∀ s ∈ sessions, ∀ r ∈ s.records, r.isNative = true) {file : Option String} (hfile : FileTerminated file)
    {old : List AuditRecord} (hold : Reads P (lines file) old) :
    ∃ file' rs new, runSessions P file sessions = .ok (file', rs) ∧ lines file' = lines file ++ new ∧
      List.Forall₂ (RecordLine P) new rs ∧
      (∃ k, Linked (Links P) (lastHash GENESIS_HASH old) rs k) ∧
      rs.length = (sessions.map fun s => s.records.length).sum := by
  induction sessions generalizing file old with
  | nil => exact ⟨file, [], [], rfl, by simp, .nil, ⟨_, .nil _⟩, rfl⟩
  | cons s sessions ih =>
    have hload : loadLastHash P file = .ok (lastHash GENESIS_HASH old) := by
      rw [loadLastHash_eq, loadLines_of_reads hold]
    obtain ⟨file₁, logger₁, rs₁, new₁, h1, hterm₁, hl₁, hread₁, hlink₁, hlen₁⟩ :=
      appendAll_spec hP (hs s (by simp)) ⟨s.redactParameters, s.sinks, lastHash GENESIS_HASH old⟩ hfile
    have hold₁ : Reads P (lines file₁) (old ++ rs₁) := by
      rw [hl₁]
      exact hold.append (reads_of_recordLines hread₁)
    obtain ⟨file₂, rs₂, new₂, h2, hl₂, hread₂, ⟨k, hlink₂⟩, hlen₂⟩ :=
      ih (fun s hs' => hs s (by simp [hs'])) hterm₁ hold₁
    rw [lastHash_append, ← linked_lastHash hlink₁] at hlink₂
    refine ⟨file₂, rs₁ ++ rs₂, new₁ ++ new₂, ?_, ?_, List.rel_append hread₁ hread₂,
      ⟨k, linked_append_iff.2 ⟨_, hlink₁, hlink₂⟩⟩, ?_⟩
    · simp only [runSessions, runSession, HashChainedJSONLLogger.init, hload, bind, Except.bind, h1, h2]
    · rw [hl₂, hl₁, List.append_assoc]
    · simp [hlen₁, hlen₂]

end Aimw.Audit
