import Aimw.Audit.Writers
import Aimw.Audit.Drift

/-!
# Writes that fail

`append` moves its cached hash on when the line has been written, and it starts the next line wherever the file ends.  A
write that raises leaves the cached hash where it was.  If nothing of the line is on disk either, the log goes on as if
the append had not been tried (`failed_writes_keep_chain`); a piece of the line makes the next record part of it
(`torn_line_raises`).
-/

namespace Aimw.Audit

open Lib

variable (P : Platform)

/-- `append`, where `f.write` raises with the first `n` characters on disk: the file after it. -/
def HashChainedJSONLLogger.appendTorn (logger : HashChainedJSONLLogger) (file : Option String) (record : AuditRecord)
    (n : ℕ) : Except Exc (Option String) := do
  let record := { record with prevHash := logger.prevHash }
  let recordHash ← computeRecordHash P logger.prevHash record
  let record := { record with recordHash := recordHash }
  let line ← P.modelDumpJson record
  .ok (some (file.getD "" ++ String.ofList ((line ++ "\n").toList.take n)))

/-- A call of `append`: the record, and how much of its line is on disk if the write raises. -/
structure WriteAttempt where
  record : AuditRecord
  cut : Option ℕ := none

/-- A logger on its file, and how many of its appends have succeeded. -/
structure LogRun where
  file : Option String
  logger : HashChainedJSONLLogger
  succeeded : ℕ := 0

/-- The caller goes on after an exception. -/
def LogRun.step (s : LogRun) (a : WriteAttempt) : LogRun :=
  match a.cut with
  | none =>
    match s.logger.append P s.file a.record with
    | .ok (file, logger, _) => { file, logger, succeeded := s.succeeded + 1 }
    | .error _ => s
  | some n =>
    match s.logger.appendTorn P s.file a.record n with
    | .ok file => { s with file }
    | .error _ => s

def LogRun.after (s : LogRun) (attempts : List WriteAttempt) : LogRun := attempts.foldl (LogRun.step P) s

/-- If the write raises, nothing of the line is on disk. -/
def WriteAttempt.LeavesNothing (a : WriteAttempt) : Prop := ∀ n, a.cut = some n → n = 0

/-- The file holds a chain of as many records as appends have succeeded, and the logger has its head. -/
def LogRun.Sound (s : LogRun) : Prop := ∃ rs, Holds P s.file s.logger.prevHash rs ∧ rs.length = s.succeeded

variable {P} {s : LogRun} {a : WriteAttempt}

lemma Holds.touched {file : Option String} {head : String} {rs : List AuditRecord} (h : Holds P file head rs) :
    Holds P (some (file.getD "" ++ "")) head rs := by
  obtain ⟨hterm, hreads, hlinked⟩ := h
  rw [String.append_empty]
  exact ⟨hterm, hreads, hlinked⟩

lemma appendTorn_zero {logger : HashChainedJSONLLogger} {file file' : Option String} {record : AuditRecord}
    (h : logger.appendTorn P file record 0 = .ok file') : file' = some (file.getD "" ++ "") := by
  unfold HashChainedJSONLLogger.appendTorn at h
  simp only [bind, Except.bind] at h
  split at h
  · cases h
  · split at h
    · cases h
    · exact (Except.ok.inj h).symm

theorem LogRun.Sound.step (hP : P.Stores) (hs : s.Sound P) (hkeys : a.record.isWellKeyed = true)
    (hfaithful : a.record.isFaithful = true) (ha : a.LeavesNothing) : (s.step P a).Sound P := by
  obtain ⟨rs, hholds, hlength⟩ := hs
  unfold LogRun.step
  split
  · split
    · next file' logger' record' happ =>
      refine ⟨rs ++ [record'.reread], append_faithful hP hholds hkeys hfaithful happ, ?_⟩
      rw [List.length_append, hlength]
      rfl
    · exact ⟨rs, hholds, hlength⟩
  · next n hcut =>
    obtain rfl := ha n hcut
    split
    · next file' htorn =>
      obtain rfl := appendTorn_zero htorn
      exact ⟨rs, hholds.touched, hlength⟩
    · exact ⟨rs, hholds, hlength⟩

theorem LogRun.Sound.after (hP : P.Stores) {attempts : List WriteAttempt} (hs : s.Sound P)
    (hkeys : ∀ a ∈ attempts, a.record.isWellKeyed = true)
    (hsteps : ∀ a ∈ attempts, a.LeavesNothing ∧ a.record.isFaithful = true) : (s.after P attempts).Sound P := by
  induction attempts generalizing s with
  | nil => exact hs
  | cons a attempts ih =>
    obtain ⟨hkey, hkeys⟩ := List.forall_mem_cons.1 hkeys
    obtain ⟨⟨hnothing, hfaithful⟩, hsteps⟩ := List.forall_mem_cons.1 hsteps
    exact ih (hs.step hP hkey hfaithful hnothing) hkeys hsteps

/-- **Failed writes that leave nothing on disk do not damage the log.** -/
theorem failed_writes_keep_chain (hP : P.Stores) {logger : HashChainedJSONLLogger} {redactParameters : Bool}
    {sinks : List BaseAuditSink} (hinit : HashChainedJSONLLogger.init P none redactParameters sinks = .ok logger)
    {attempts : List WriteAttempt} (hkeys : ∀ a ∈ attempts, a.record.isWellKeyed = true)
    (hsteps : ∀ a ∈ attempts, a.LeavesNothing ∧ a.record.isFaithful = true) {s : LogRun}
    (hrun : LogRun.after P { file := none, logger } attempts = s) :
    verifyChain P s.file = .ok ⟨true, s.succeeded, none⟩ := by
  obtain rfl := Except.ok.inj hinit
  have hfresh : LogRun.Sound P { file := none, logger := ⟨redactParameters, sinks, GENESIS_HASH⟩ } :=
    ⟨[], holds_fresh P, rfl⟩
  obtain ⟨rs, hholds, hlength⟩ := hrun ▸ hfresh.after hP hkeys hsteps
  rw [hholds.verify, hlength]

lemma appendTorn_eq {logger : HashChainedJSONLLogger} {file : Option String} {record : AuditRecord} {d line : String}
    (hd : computeRecordHash P logger.prevHash { record with prevHash := logger.prevHash } = .ok d)
    (hline : P.modelDumpJson { record with prevHash := logger.prevHash, recordHash := d } = .ok line) (n : ℕ) :
    logger.appendTorn P file record n = .ok (some (file.getD "" ++ String.ofList ((line ++ "\n").toList.take n))) := by
  simp only [HashChainedJSONLLogger.appendTorn, hd, bind, Except.bind, hline]

/-- A write of the sample record that raises after `n` characters, and one that succeeds. -/
def retried (n : ℕ) : List WriteAttempt := [⟨sampleRecord, some n⟩, ⟨sampleRecord, none⟩]

lemma after_retried (n : ℕ) : ∃ line logger, JsonLine line ∧
    LogRun.after (storingPlatform sampleSha256) { file := none, logger := freshLogger } (retried n) =
      ⟨some (String.ofList ((line ++ "\n").toList.take n) ++ line ++ "\n"), logger, 1⟩ := by
  obtain ⟨d, hd⟩ := computeRecordHash_ok_of_native (storingPlatform sampleSha256) GENESIS_HASH (r := sampleRecord) rfl
  obtain ⟨line, hdump, hline, -⟩ := storingPlatform_stores sampleSha256 { sampleRecord with recordHash := d } rfl
  have htorn : freshLogger.appendTorn (storingPlatform sampleSha256) none sampleRecord n = _ := appendTorn_eq hd hdump n
  have happ : ∀ file, freshLogger.append (storingPlatform sampleSha256) file sampleRecord = _ :=
    fun file => append_eq hd hdump
  refine ⟨line, ⟨true, [], d⟩, hline, ?_⟩
  simp only [LogRun.after, retried, List.foldl_cons, List.foldl_nil, LogRun.step, htorn, happ, Option.getD_none,
    Option.getD_some, String.empty_append]
  rfl

lemma retried_record (n : ℕ) : ∀ a ∈ retried n, a.record = sampleRecord := by simp [retried]

/-- Nothing of the line is on disk when the write raises. -/
theorem failed_writes_keep_chain_retried : ∃ s,
    LogRun.after (storingPlatform sampleSha256) { file := none, logger := freshLogger } (retried 0) = s ∧
      s.succeeded = 1 ∧ verifyChain (storingPlatform sampleSha256) s.file = .ok ⟨true, 1, none⟩ := by
  obtain ⟨line, logger, -, hrun⟩ := after_retried 0
  have hnothing : ∀ a ∈ retried 0, a.LeavesNothing := by simp [retried, WriteAttempt.LeavesNothing]
  have hsample : sampleRecord.isWellKeyed = true ∧ sampleRecord.isFaithful = true := by decide +kernel
  refine ⟨_, hrun, rfl, failed_writes_keep_chain (storingPlatform_stores sampleSha256)
    (rfl : HashChainedJSONLLogger.init _ none true [] = .ok freshLogger) (fun a ha => ?_) (fun a ha => ?_) hrun⟩
  · rw [retried_record 0 a ha]
    exact hsample.1
  · rw [retried_record 0 a ha]
    exact ⟨hnothing a ha, hsample.2⟩

/-- One character of the line is on disk when the write raises, and the next record is written behind it. -/
theorem torn_line_raises : ∃ s e,
    LogRun.after (storingPlatform sampleSha256) { file := none, logger := freshLogger } (retried 1) = s ∧
      s.succeeded = 1 ∧ verifyChain (storingPlatform sampleSha256) s.file = .error e := by
  obtain ⟨line, logger, hline, hrun⟩ := after_retried 1
  obtain ⟨cs, hcs⟩ : ∃ cs, line.toList = '{' :: cs := by
    obtain ⟨c, cs, hcs⟩ := List.exists_cons_of_ne_nil hline.ne_nil
    have hhead := hline.head
    rw [hcs] at hhead
    exact ⟨cs, by rw [hcs, Option.some.inj hhead]⟩
  have htext : ("\x7b" ++ line).toList = '{' :: '{' :: cs := by
    rw [String.toList_append, hcs]
    rfl
  have hpiece : String.ofList ((line ++ "\n").toList.take 1) = "\x7b" := by
    rw [String.toList_append, hcs]
    rfl
  -- both records are on one line
  have hjoined : JsonLine ("\x7b" ++ line) := by
    refine ⟨fun c hc => ?_, by rw [htext]; rfl, ?_⟩
    · rw [String.toList_append] at hc
      rcases List.mem_append.1 hc with hc | hc
      · obtain rfl : c = '{' := by simpa using hc
        decide
      · exact hline.oneLine c hc
    · rw [htext, List.getLast?_cons_cons, ← hcs]
      exact hline.last
  obtain ⟨e, hread⟩ : ∃ e, readLine (storingPlatform sampleSha256) ("\x7b" ++ line).toList = .error e := by
    rw [readLine, hjoined.strip_eq]
    simp [storingPlatform, codecPlatform, loadsText, htext, readValue, readQuoted]
  refine ⟨_, e, hrun, rfl, ?_⟩
  have hlines := (lines_append (Or.inl rfl : FileTerminated none) hjoined).1
  have hsecond : strip ("\x7b" ++ line).toList ≠ [] := by
    rw [hjoined.strip_eq]
    exact hjoined.ne_nil
  rw [Option.getD_none, String.empty_append] at hlines
  rw [hpiece, verifyChain_eq, hlines]
  exact verifyLines_unread hsecond hread [] 0 0 GENESIS_HASH

end Aimw.Audit
