import Aimw.Audit.History
import Aimw.Audit.Stored
import Mathlib.Logic.Function.Basic

/-!
# Several loggers on one file

Each `HashChainedJSONLLogger` reads the last hash of the file once, when it is constructed, and then trusts its own.
Loggers that take turns keep one chain as long as none of them is overtaken by another (`writers_keep_one_chain`); an
append by a logger that has been overtaken breaks the chain (`Holds.overtaken`).
-/

namespace Aimw.Audit

open Lib

/-- What happens to the file.  A logger is named by `ι`. -/
inductive WriterEvent (ι : Type)
  | opened (logger : ι) (redactParameters : Bool) (sinks : List BaseAuditSink)
  | append (logger : ι) (record : AuditRecord)

/-- The file, and the loggers that have been constructed on it. -/
structure Writers (ι : Type) where
  file : Option String := none
  loggers : ι → Option HashChainedJSONLLogger := fun _ => none

variable {ι : Type} [DecidableEq ι]

def Writers.step (P : Platform) (s : Writers ι) : WriterEvent ι → Except Exc (Writers ι)
  | .opened i redactParameters sinks => do
    let logger ← HashChainedJSONLLogger.init P s.file redactParameters sinks
    .ok { s with loggers := Function.update s.loggers i (some logger) }
  | .append i record =>
    match s.loggers i with
    | none => .error (.exception "no such logger")
    | some logger => do
      let (file, logger, _) ← logger.append P s.file record
      .ok { file, loggers := Function.update s.loggers i (some logger) }

/-- The state after the events, of which the last one comes first. -/
def Writers.after (P : Platform) : List (WriterEvent ι) → Except Exc (Writers ι)
  | [] => .ok {}
  | event :: older => do
    let s ← Writers.after P older
    s.step P event

/-- The records that were appended. -/
def appended (events : List (WriterEvent ι)) : List AuditRecord :=
  events.filterMap fun
    | .opened _ _ _ => none
    | .append _ record => some record

/-- Since the logger was constructed, or last appended, no other logger has appended. -/
def UpToDate (i : ι) : List (WriterEvent ι) → Prop
  | [] => False
  | .opened j _ _ :: older => i = j ∨ UpToDate i older
  | .append j _ :: _ => i = j

/-- Every append is made by a logger that is up to date. -/
def TakingTurns : List (WriterEvent ι) → Prop
  | [] => True
  | .opened _ _ _ :: older => TakingTurns older
  | .append i _ :: older => UpToDate i older ∧ TakingTurns older

/-! ## One chain -/

/-- The file holds a chain, and the loggers that are up to date have its head. -/
structure OneChain (P : Platform) (events : List (WriterEvent ι)) (s : Writers ι) (head : String)
    (rs : List AuditRecord) : Prop where
  holds : Holds P s.file head rs
  length : rs.length = (appended events).length
  cached : ∀ i, UpToDate i events → ∃ logger, s.loggers i = some logger ∧ logger.prevHash = head

variable {P : Platform} {events : List (WriterEvent ι)} {s : Writers ι} {head : String} {rs : List AuditRecord}

lemma after_cons {event : WriterEvent ι} {s' : Writers ι} (hs : Writers.after P events = .ok s)
    (hstep : s.step P event = .ok s') : Writers.after P (event :: events) = .ok s' := by
  simp only [Writers.after, hs, bind, Except.bind, hstep]

lemma step_append {i : ι} {logger logger' : HashChainedJSONLLogger} {record record' : AuditRecord}
    {file' : Option String} (hlogger : s.loggers i = some logger)
    (happ : logger.append P s.file record = .ok (file', logger', record')) :
    s.step P (.append i record) = .ok ⟨file', Function.update s.loggers i (some logger')⟩ := by
  simp only [Writers.step, hlogger, happ, bind, Except.bind]

theorem OneChain.opened (h : OneChain P events s head rs) (i : ι) (redactParameters : Bool)
    (sinks : List BaseAuditSink) : ∃ s', s.step P (.opened i redactParameters sinks) = .ok s' ∧
      OneChain P (.opened i redactParameters sinks :: events) s' head rs := by
  refine ⟨{ s with loggers := Function.update s.loggers i (some ⟨redactParameters, sinks, head⟩) }, ?_,
    h.holds, h.length, fun j hj => ?_⟩
  · rw [Writers.step, h.holds.init]
    rfl
  · by_cases hij : j = i
    · subst hij
      exact ⟨_, Function.update_self .., rfl⟩
    · obtain ⟨logger, hlogger, hhead⟩ := h.cached j (hj.resolve_left hij)
      exact ⟨logger, (Function.update_of_ne hij ..).trans hlogger, hhead⟩

theorem OneChain.append (hP : P.Stores) (h : OneChain P events s head rs) {i : ι} {record : AuditRecord}
    (hi : UpToDate i events) (hr : record.Stable) : ∃ s' head' r, s.step P (.append i record) = .ok s' ∧
      OneChain P (.append i record :: events) s' head' (rs ++ [r]) := by
  obtain ⟨logger, hlogger, rfl⟩ := h.cached i hi
  obtain ⟨file', logger', record', happ⟩ := append_succeeds hP logger s.file hr
  refine ⟨⟨file', Function.update s.loggers i (some logger')⟩, logger'.prevHash, record'.reread,
    step_append hlogger happ, h.holds.append hP hr happ, ?_, fun j hj => ?_⟩
  · rw [List.length_append, h.length]
    rfl
  · obtain rfl : j = i := hj
    exact ⟨logger', Function.update_self .., rfl⟩

theorem oneChain_after (hP : P.Stores) (hturns : TakingTurns events) (hstable : ∀ r ∈ appended events, r.Stable) :
    ∃ s head rs, Writers.after P events = .ok s ∧ OneChain P events s head rs := by
  induction events with
  | nil => exact ⟨{}, GENESIS_HASH, [], rfl, holds_fresh P, rfl, fun _ hi => hi.elim⟩
  | cons event older ih =>
    cases event with
    | opened i redactParameters sinks =>
      obtain ⟨s, head, rs, hs, hchain⟩ := ih hturns hstable
      obtain ⟨s', hs', hchain'⟩ := hchain.opened i redactParameters sinks
      exact ⟨s', head, rs, after_cons hs hs', hchain'⟩
    | append i record =>
      obtain ⟨hi, hturns⟩ := hturns
      obtain ⟨hr, hstable⟩ := List.forall_mem_cons.1 hstable
      obtain ⟨s, head, rs, hs, hchain⟩ := ih hturns hstable
      obtain ⟨s', head', r, hs', hchain'⟩ := hchain.append hP hi hr
      exact ⟨s', head', rs ++ [r], after_cons hs hs', hchain'⟩

/-- **Loggers that take turns keep one chain.** -/
theorem writers_keep_one_chain (hP : P.Stores) (hturns : TakingTurns events)
    (hstable : ∀ r ∈ appended events, r.Stable) :
    ∃ s, Writers.after P events = .ok s ∧ verifyChain P s.file = .ok ⟨true, (appended events).length, none⟩ := by
  obtain ⟨s, head, rs, hs, hchain⟩ := oneChain_after hP hturns hstable
  exact ⟨s, hs, by rw [hchain.holds.verify, hchain.length]⟩

/-- An append by a logger that has been overtaken: it names a hash that is not the last one. -/
theorem Holds.overtaken {file file' : Option String} {logger logger' : HashChainedJSONLLogger}
    {record record' : AuditRecord} (hP : P.Stores) (h : Holds P file head rs) (hr : record.Stable)
    (happ : logger.append P file record = .ok (file', logger', record')) (hne : logger.prevHash ≠ head) (n : ℕ)
    (f : Option ℕ) : verifyChain P file' ≠ .ok ⟨true, n, f⟩ := by
  intro hverify
  obtain ⟨-, hreads, hlinks⟩ := append_line hP h.terminated h.reads hr happ
  obtain ⟨rs', k, hreads', hlinked', -⟩ := verify_accepts_iff.1 hverify
  obtain rfl := hreads.unique hreads'
  obtain ⟨m, hlinked, hlast⟩ := linked_concat_iff.1 hlinked'
  obtain rfl : m = head := (linked_lastHash hlinked).trans (linked_lastHash h.linked).symm
  exact hne (hlinks.1.symm.trans hlast.1)

/-- Two loggers that are both constructed before either appends. -/
def overtakenEvents : List (WriterEvent Bool) :=
  [.append true sampleRecord, .append false sampleRecord, .opened true true [], .opened false true []]

/-- Two loggers, the second of which is constructed when the first has appended, as after a restart. -/
def restartEvents : List (WriterEvent Bool) :=
  [.append true sampleRecord, .opened true true [], .append false sampleRecord, .opened false true []]

lemma sampleRecord_stable : sampleRecord.Stable := stable_of_isNative_record rfl

theorem writers_keep_one_chain_restart : ∃ s, Writers.after (storingPlatform sampleSha256) restartEvents = .ok s ∧
    verifyChain (storingPlatform sampleSha256) s.file = .ok ⟨true, 2, none⟩ := by
  refine writers_keep_one_chain (storingPlatform_stores sampleSha256) ?_ ?_
  · exact ⟨Or.inl rfl, Or.inl rfl, trivial⟩
  · simp only [appended, restartEvents, List.filterMap_cons, List.filterMap_nil, List.forall_mem_cons]
    exact ⟨sampleRecord_stable, sampleRecord_stable, by simp⟩

lemma sampleSha256_ne_genesis (b : ByteArray) : sampleSha256.hexdigest b ≠ GENESIS_HASH := by
  simp only [sampleSha256]
  split_ifs
  · decide
  · decide

/-- The second logger still has the hash from before the first one appended. -/
theorem overtaken_logger_breaks_chain : ∃ s, Writers.after (storingPlatform sampleSha256) overtakenEvents = .ok s ∧
    (appended overtakenEvents).length = 2 ∧
    verifyChain (storingPlatform sampleSha256) s.file ≠ .ok ⟨true, (appended overtakenEvents).length, none⟩ := by
  have hP := storingPlatform_stores sampleSha256
  let logger : HashChainedJSONLLogger := ⟨true, [], GENESIS_HASH⟩
  let loggers : Bool → Option HashChainedJSONLLogger :=
    Function.update (Function.update (fun _ => none) false (some logger)) true (some logger)
  have hopened : Writers.after (storingPlatform sampleSha256) [.opened true true [], .opened false true []] =
      .ok ⟨none, loggers⟩ := rfl
  obtain ⟨file₁, logger₁, record₁, happ₁⟩ := append_succeeds hP logger none sampleRecord_stable
  obtain ⟨file₂, logger₂, record₂, happ₂⟩ := append_succeeds hP logger file₁ sampleRecord_stable
  have hholds : Holds (storingPlatform sampleSha256) file₁ logger₁.prevHash [record₁.reread] :=
    (holds_fresh _).append hP sampleRecord_stable happ₁
  have hmoved : logger.prevHash ≠ logger₁.prevHash := by
    obtain ⟨-, -, -, hhash, hlast⟩ := append_line hP (Or.inl rfl : FileTerminated none) .nil sampleRecord_stable happ₁
    obtain ⟨b, -, hb⟩ := hashInput_of_hash hhash
    rw [← hlast, ← hb]
    exact (sampleSha256_ne_genesis b).symm
  have hfirst : (Writers.mk none loggers).loggers false = some logger := rfl
  have hafter := after_cons hopened (step_append hfirst happ₁)
  have hlogger : (Writers.mk file₁ (Function.update loggers false (some logger₁))).loggers true = some logger := rfl
  exact ⟨_, after_cons hafter (step_append hlogger happ₂), rfl, hholds.overtaken hP sampleRecord_stable happ₂ hmoved _ _⟩

end Aimw.Audit
