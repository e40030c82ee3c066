import Aimw.Audit.History
import Aimw.Audit.Stored
import Aimw.Lib.Unwinding

/-!
# Forwarding to shared sinks

`audit/siem.py` and the loop that `append` ends with, with sinks as objects: a list of sinks may hold one object twice,
and a sink may raise what `except Exception` does not catch.  What is done to the file is told apart from the record
that is built for it, so that a run may go on after any exception.

* `forwarding_harmless` — two runs, with sinks and without.
-/

namespace Aimw.Audit.Forwarding

open Lib

/-! ## Sinks -/

/-- What the collectors hold; a collector is known by its number. -/
abbrev Collected : Type := ℕ → List AuditRecord

/-- A reference to a collector, or to a sink that raises on some records. -/
inductive Sink
  | localSiemForwarder (id : ℕ)
  | other (raises : AuditRecord → Option Exc)

/-- `sink.forward(record)`. -/
def Sink.forward (record : AuditRecord) (held : Collected) : Sink → Except Exc Unit × Collected
  | .localSiemForwarder id => (.ok (), Function.update held id (held id ++ [record]))
  | .other raises =>
    match raises record with
    | some e => (.error e, held)
    | none => (.ok (), held)

/-- The loop of `forward_best_effort`; `except Exception` lets the rest of `BaseException` pass. -/
def forwardBestEffort (record : AuditRecord) : List Sink → Collected → Except Exc Unit × Collected
  | [], held => (.ok (), held)
  | sink :: sinks, held =>
    match sink.forward record held with
    | (.ok (), held) => forwardBestEffort record sinks held
    | (.error e, held) => if e.isException then forwardBestEffort record sinks held else (.error e, held)

/-- How often the collector stands in the list. -/
def copies (id : ℕ) (sinks : List Sink) : ℕ :=
  sinks.countP fun
    | .localSiemForwarder i => i == id
    | .other _ => false

/-- The sink raises an `Exception` or nothing. -/
def Sink.RaisesExceptions : Sink → Prop
  | .localSiemForwarder _ => True
  | .other raises => ∀ record e, raises record = some e → e.isException = true

/-- **The loop reaches every sink**, and each collector gets the record as often as it stands in the list. -/
theorem forwardBestEffort_eq {sinks : List Sink} (hsinks : ∀ sink ∈ sinks, sink.RaisesExceptions) (record : AuditRecord)
    (held : Collected) :
    forwardBestEffort record sinks held =
      (.ok (), fun id => held id ++ List.replicate (copies id sinks) record) := by
  induction sinks generalizing held with
  | nil => simp [forwardBestEffort, copies]
  | cons sink sinks ih =>
    obtain ⟨hsink, hrest⟩ := List.forall_mem_cons.1 hsinks
    have ih := ih hrest
    cases sink with
    | localSiemForwarder i =>
      simp only [forwardBestEffort, Sink.forward, ih]
      congr 1
      funext id
      by_cases hid : i = id
      · subst hid
        simp [copies, List.replicate_succ]
      · simp [copies, hid, Function.update_of_ne (Ne.symm hid)]
    | other raises =>
      have hcopies : ∀ id, copies id (.other raises :: sinks) = copies id sinks := by simp [copies]
      simp only [hcopies]
      cases hraise : raises record with
      | none => simp only [forwardBestEffort, Sink.forward, hraise, ih]
      | some e => simp only [forwardBestEffort, Sink.forward, hraise, hsink record e hraise, if_true, ih]

/-! ## The logger -/

/-- How the file fails an `append`: it cannot be opened, or the write raises with `n` characters on disk. -/
inductive DiskFault
  | onOpen (e : Exc)
  | onWrite (n : ℕ) (e : Exc)

/-- The log file, the cached hash, and what the collectors hold. -/
structure LogState where
  file : Option String
  prevHash : String
  collected : Collected

section Logger

variable (P : Platform) (py : PyStr) (redactParameters : Bool) (sinks : List Sink)

/-- `with self._path.open("a") as f: f.write(...)`; the file is there before the record is dumped. -/
def writeLine (fault : Option DiskFault) (file : Option String) (record : AuditRecord) :
    Except Exc Unit × Option String :=
  match fault with
  | some (.onOpen e) => (.error e, file)
  | some (.onWrite n e) =>
    match P.modelDumpJson record with
    | .error e => (.error e, some (file.getD ""))
    | .ok line => (.error e, some (file.getD "" ++ String.ofList ((line ++ "\n").toList.take n)))
  | none =>
    match P.modelDumpJson record with
    | .error e => (.error e, some (file.getD ""))
    | .ok line => (.ok (), some (file.getD "" ++ line ++ "\n"))

/-- `append` up to the end of its `with` block: the record that is written, and the file. -/
def writeRecord (fault : Option DiskFault) (file : Option String) (prevHash : String) (record : AuditRecord) :
    Except Exc AuditRecord × Option String :=
  let record := { record with prevHash := prevHash }
  match computeRecordHash P prevHash record with
  | .error e => (.error e, file)
  | .ok recordHash =>
    let record := { record with recordHash := recordHash }
    let written := writeLine P fault file record
    (written.1.map fun _ => record, written.2)

/-- The rest of `append`. -/
def append (fault : Option DiskFault) (s : LogState) (record : AuditRecord) : Except Exc AuditRecord × LogState :=
  match writeRecord P fault s.file s.prevHash record with
  | (.error e, file) => (.error e, { s with file })
  | (.ok record, file) =>
    let forwarding := if sinks.isEmpty then (.ok (), s.collected) else forwardBestEffort record sinks s.collected
    (forwarding.1.map fun _ => record, { file, prevHash := record.recordHash, collected := forwarding.2 })

/-- A call of the logger's methods. -/
inductive LogCall
  | append (record : AuditRecord)
  | logCall (context : ExecutionContext) (request : ToolRequest) (decision : PolicyDecision)
      (sandboxResult : Option (List (String × PyVal))) (recordId timestamp : String)

/-- A call with what happens to the file in it: the state after it, and what it returns or raises. -/
def step (s : LogState) (call : LogCall × Option DiskFault) : Except Exc AuditRecord × LogState :=
  match call.1 with
  | .append record => append P sinks call.2 s record
  | .logCall context request decision sandboxResult recordId timestamp =>
    match HashChainedJSONLLogger.buildRecord P py ⟨redactParameters, [], s.prevHash⟩ context request decision
      sandboxResult recordId timestamp with
    | .error e => (.error e, s)
    | .ok record => append P sinks call.2 s record

end Logger

variable {P : Platform} {py : PyStr} {redactParameters : Bool} {sinks : List Sink}

lemma writeRecord_of_hash (fault : Option DiskFault) (file : Option String) {prevHash d : String} {record : AuditRecord}
    (hd : computeRecordHash P prevHash { record with prevHash := prevHash } = .ok d) :
    writeRecord P fault file prevHash record =
      ((writeLine P fault file { record with prevHash := prevHash, recordHash := d }).1.map
          fun _ => { record with prevHash := prevHash, recordHash := d },
        (writeLine P fault file { record with prevHash := prevHash, recordHash := d }).2) := by
  unfold writeRecord
  dsimp only
  rw [hd]

/-! ## With sinks and without -/

/-- What a collector gets when a call ends with this outcome. -/
def delivered (sinks : List Sink) (outcome : Except Exc AuditRecord) (id : ℕ) : List AuditRecord :=
  match outcome with
  | .ok record => List.replicate (copies id sinks) record
  | .error _ => []

/-- The outcome and the state of a logger without sinks, to which the collectors are added. -/
def withSinks (sinks : List Sink) (held : Collected) (quiet : Except Exc AuditRecord × LogState) :
    Except Exc AuditRecord × LogState :=
  (quiet.1, { quiet.2 with collected := fun id => held id ++ delivered sinks quiet.1 id })

/-- The guard on the list changes nothing. -/
lemma guarded_forward (hsinks : ∀ sink ∈ sinks, sink.RaisesExceptions) (record : AuditRecord) (held : Collected) :
    (if sinks.isEmpty then (.ok (), held) else forwardBestEffort record sinks held) =
      (.ok (), fun id => held id ++ List.replicate (copies id sinks) record) := by
  rw [← forwardBestEffort_eq hsinks]
  cases sinks with
  | nil => rfl
  | cons sink sinks => rfl

lemma append_of_error {fault : Option DiskFault} {s : LogState} {record : AuditRecord} {e : Exc} {file : Option String}
    (h : writeRecord P fault s.file s.prevHash record = (.error e, file)) :
    append P sinks fault s record = (.error e, { s with file }) := by
  unfold append
  rw [h]

lemma append_of_written (hsinks : ∀ sink ∈ sinks, sink.RaisesExceptions) {fault : Option DiskFault} {s : LogState}
    {record written : AuditRecord} {file : Option String}
    (h : writeRecord P fault s.file s.prevHash record = (.ok written, file)) :
    append P sinks fault s record =
      (.ok written,
        ⟨file, written.recordHash, fun id => s.collected id ++ List.replicate (copies id sinks) written⟩) := by
  unfold append
  rw [h]
  dsimp only
  rw [guarded_forward hsinks]
  rfl

lemma append_withSinks (hsinks : ∀ sink ∈ sinks, sink.RaisesExceptions) {s t : LogState} (hfile : s.file = t.file)
    (hhash : s.prevHash = t.prevHash) (fault : Option DiskFault) (record : AuditRecord) :
    append P sinks fault s record = withSinks sinks s.collected (append P [] fault t record) := by
  rcases ht : writeRecord P fault t.file t.prevHash record with ⟨e | written, file⟩
  · have hs : writeRecord P fault s.file s.prevHash record = (.error e, file) := by rw [hfile, hhash, ht]
    rw [append_of_error hs, append_of_error ht]
    simp [withSinks, delivered, hhash]
  · have hs : writeRecord P fault s.file s.prevHash record = (.ok written, file) := by rw [hfile, hhash, ht]
    rw [append_of_written hsinks hs, append_of_written (List.forall_mem_nil _) ht]
    rfl

variable (P py redactParameters) in
theorem step_withSinks (hsinks : ∀ sink ∈ sinks, sink.RaisesExceptions) {s t : LogState} (hfile : s.file = t.file)
    (hhash : s.prevHash = t.prevHash) (call : LogCall × Option DiskFault) :
    step P py redactParameters sinks s call =
      withSinks sinks s.collected (step P py redactParameters [] t call) := by
  obtain ⟨call, fault⟩ := call
  cases call with
  | append record => exact append_withSinks hsinks hfile hhash fault record
  | logCall context request decision sandboxResult recordId timestamp =>
    simp only [step, hhash]
    cases HashChainedJSONLLogger.buildRecord P py ⟨redactParameters, [], t.prevHash⟩ context request decision
      sandboxResult recordId timestamp with
    | error e => simp [withSinks, delivered, ← hfile, ← hhash]
    | ok record => exact append_withSinks hsinks hfile hhash fault record

/-- The records that a run has appended. -/
def appended (answers : List ((LogCall × Option DiskFault) × Except Exc AuditRecord)) : List AuditRecord :=
  answers.filterMap fun p => p.2.toOption

variable (P py redactParameters) in
/-- A run with sinks from `s` and a run without from `t`, where the file and the cached hash are the same. -/
theorem run_withSinks (hsinks : ∀ sink ∈ sinks, sink.RaisesExceptions) (calls : List (LogCall × Option DiskFault))
    {s t : LogState} (hfile : s.file = t.file) (hhash : s.prevHash = t.prevHash) :
    transcript (step P py redactParameters sinks) s calls = transcript (step P py redactParameters []) t calls ∧
      (runFrom (step P py redactParameters sinks) s calls).file =
        (runFrom (step P py redactParameters []) t calls).file ∧
      (runFrom (step P py redactParameters sinks) s calls).prevHash =
        (runFrom (step P py redactParameters []) t calls).prevHash ∧
      ∀ id, (runFrom (step P py redactParameters sinks) s calls).collected id = s.collected id ++
        (appended (transcript (step P py redactParameters []) t calls)).flatMap
          (List.replicate (copies id sinks)) := by
  induction calls generalizing s t with
  | nil => exact ⟨rfl, hfile, hhash, fun id => by simp [transcript, appended]⟩
  | cons call calls ih =>
    have hstep := step_withSinks P py redactParameters hsinks hfile hhash call
    obtain ⟨htranscript, hfile', hhash', hcollected⟩ := ih (s := (step P py redactParameters sinks s call).2)
      (t := (step P py redactParameters [] t call).2) (by rw [hstep]; rfl) (by rw [hstep]; rfl)
    refine ⟨?_, hfile', hhash', fun id => ?_⟩
    · rw [transcript, transcript, htranscript, hstep]
      rfl
    · rw [runFrom_cons, hcollected, hstep, transcript]
      cases houtcome : (step P py redactParameters [] t call).1 with
      | error e => simp [withSinks, delivered, houtcome, appended, Except.toOption]
      | ok record => simp [withSinks, delivered, houtcome, appended, Except.toOption]

/-- **Forwarding is harmless and complete**: the file, the cached hash and what is returned or raised are those of the
run without sinks, and every collector gets the records that were appended, in order, each as often as it stands in the
list. -/
theorem forwarding_harmless (P : Platform) (py : PyStr) (redactParameters : Bool) (sinks : List Sink)
    (hsinks : ∀ sink ∈ sinks, sink.RaisesExceptions) (s : LogState) (calls : List (LogCall × Option DiskFault)) :
    transcript (step P py redactParameters sinks) s calls = transcript (step P py redactParameters []) s calls ∧
      (runFrom (step P py redactParameters sinks) s calls).file =
        (runFrom (step P py redactParameters []) s calls).file ∧
      (runFrom (step P py redactParameters sinks) s calls).prevHash =
        (runFrom (step P py redactParameters []) s calls).prevHash ∧
      (∀ id, (runFrom (step P py redactParameters sinks) s calls).collected id = s.collected id ++
        (appended (transcript (step P py redactParameters sinks) s calls)).flatMap
          (List.replicate (copies id sinks))) ∧
      ∀ id, copies id sinks = 1 → s.collected id = [] →
        (runFrom (step P py redactParameters sinks) s calls).collected id =
          appended (transcript (step P py redactParameters sinks) s calls) := by
  obtain ⟨htranscript, hfile, hhash, hcollected⟩ := run_withSinks P py redactParameters hsinks calls
    (s := s) rfl rfl
  refine ⟨htranscript, hfile, hhash, fun id => ?_, fun id honce hempty => ?_⟩
  · rw [hcollected, htranscript]
  · rw [hcollected, htranscript, honce, hempty, List.nil_append]
    exact List.flatMap_singleton' _

/-- A logger on a new file, and collectors that hold nothing. -/
def freshState : LogState := ⟨none, GENESIS_HASH, fun _ => []⟩

def sampleCall : LogCall × Option DiskFault := (.append sampleRecord, none)

/-- A step of a logger that writes unredacted records. -/
def sampleStep (sinks : List Sink) : LogState → LogCall × Option DiskFault → Except Exc AuditRecord × LogState :=
  step (storingPlatform sampleSha256) ⟨fun _ => "", fun _ => false, fun _ _ => rfl⟩ false sinks

variable (sinks) in
lemma sampleStep_ok (hsinks : ∀ sink ∈ sinks, sink.RaisesExceptions) :
    ∃ record, (sampleStep sinks freshState sampleCall).1 = .ok record ∧
      (sampleStep sinks freshState sampleCall).2.collected = fun id => List.replicate (copies id sinks) record := by
  obtain ⟨d, hd⟩ := computeRecordHash_ok_of_native (storingPlatform sampleSha256) GENESIS_HASH (r := sampleRecord) rfl
  obtain ⟨line, hdump, -, -⟩ := storingPlatform_stores sampleSha256 { sampleRecord with recordHash := d } rfl
  have hline : writeLine (storingPlatform sampleSha256) none none { sampleRecord with recordHash := d } =
      (.ok (), some ("" ++ line ++ "\n")) := by
    simp only [writeLine, hdump, Option.getD_none]
  have hwritten : writeRecord (storingPlatform sampleSha256) none none GENESIS_HASH sampleRecord =
      (.ok { sampleRecord with recordHash := d }, some ("" ++ line ++ "\n")) := by
    refine (writeRecord_of_hash none none hd).trans ?_
    exact congrArg (fun written : Except Exc Unit × Option String =>
      (written.1.map fun _ => { sampleRecord with recordHash := d }, written.2)) hline
  have hstep := append_of_written (s := freshState) hsinks hwritten
  exact ⟨{ sampleRecord with recordHash := d }, congrArg Prod.fst hstep,
    congrArg (fun after : Except Exc AuditRecord × LogState => after.2.collected) hstep⟩

/-- A sink that always times out, in front of a collector. -/
def failingFirst : List Sink := [.other fun _ => some (.exception "ingest endpoint timed out"), .localSiemForwarder 0]

lemma failingFirst_raises : ∀ sink ∈ failingFirst, sink.RaisesExceptions := by
  intro sink hsink
  rcases List.mem_pair.1 hsink with rfl | rfl
  · rintro record e ⟨⟩
    rfl
  · trivial

theorem forwarding_harmless_failing : ∃ record,
    (runFrom (sampleStep failingFirst) freshState [sampleCall]).collected 0 = [record] := by
  obtain ⟨record, hrecord, -⟩ := sampleStep_ok failingFirst failingFirst_raises
  have hlast := (forwarding_harmless (storingPlatform sampleSha256) ⟨fun _ => "", fun _ => false, fun _ _ => rfl⟩ false failingFirst
    failingFirst_raises freshState [sampleCall]).2.2.2.2 0 rfl rfl
  have happended : appended (transcript (sampleStep failingFirst) freshState [sampleCall]) = [record] := by
    simp [transcript, appended, hrecord, Except.toOption]
  exact ⟨record, hlast.trans happended⟩

/-- One collector, twice in the list, gets the record twice. -/
theorem repeated_collector_gets_copies : ∃ record,
    appended (transcript (sampleStep [.localSiemForwarder 0, .localSiemForwarder 0]) freshState [sampleCall]) = [record] ∧
      (runFrom (sampleStep [.localSiemForwarder 0, .localSiemForwarder 0]) freshState [sampleCall]).collected 0 =
        [record, record] := by
  obtain ⟨record, hrecord, hcollected⟩ := sampleStep_ok [.localSiemForwarder 0, .localSiemForwarder 0]
    (by simp [Sink.RaisesExceptions])
  refine ⟨record, by simp [transcript, appended, hrecord, Except.toOption], ?_⟩
  rw [runFrom_cons, runFrom_nil, hcollected]
  rfl

end Aimw.Audit.Forwarding
