import Aimw.Audit.Located
import Aimw.Pipeline.Audited

/-!
# The collector beside the log

`verify_chain` asks the file alone, and takes a file whose end is cut off.  A `LocalSiemForwarder` keeps the records
themselves, so that the two together leave nothing open: whatever is done to the file while pipelines write to it, a file
that is accepted and ends with the collector's last hash holds the collector's records (`tampering_shows`).
-/

namespace Aimw

open Lib Audit Coro Interceptor

variable {S : BaseSandbox} {u : CharTable} {rt : Runtime} {P : Platform} {py : PyStr} {ι : Type} [DecidableEq ι]
  {suspends : SystemOp S → Bool} {calls : ι → PipelineCall} {log : LogState}
  {s : Loop ι LogState (SystemOp S) SystemOp.Answer Exc PipelineResult} {slot : ℕ}

/-- The states of any number of pipelines on one logger, while anyone does anything to its file. -/
abbrev Tampered (suspends : SystemOp S → Bool) (u : CharTable) (rt : Runtime) (P : Platform) (py : PyStr)
    (calls : ι → PipelineCall) (log : LogState) :
    Loop ι LogState (SystemOp S) SystemOp.Answer Exc PipelineResult → Prop :=
  Reached suspends (SystemAnswering S P py) (fun w w' => w'.logger = w.logger) (fun i => (calls i).program S u rt) log

/-- The logger has a collector at the slot, which holds the records; they are a chain up to the logger's own hash. -/
structure Collects (P : Platform) (slot : ℕ) (logger : HashChainedJSONLLogger) (records : List AuditRecord) : Prop where
  held : logger.sinks[slot]? = some (.localSiemForwarder records)
  linked : Linked (Links P) GENESIS_HASH records logger.prevHash

lemma Collects.append {logger logger' : HashChainedJSONLLogger} {file file' : Option String}
    {records : List AuditRecord} {built record : AuditRecord} (h : Collects P slot logger records)
    (happ : logger.append P file built = .ok (file', logger', record)) : Collects P slot logger' (records ++ [record]) := by
  obtain ⟨d, line, -, -, -, -, hlogger⟩ := append_ok happ
  refine ⟨?_, linked_concat_iff.2 ⟨_, h.linked, append_links happ⟩⟩
  rw [hlogger, forwardBestEffort, List.getElem?_map, h.held]
  rfl

/-- Whatever happens to the file, the collector holds what was written. -/
theorem collects_written (hlog : Collects P slot log.logger []) (h : Tampered suspends u rt P py calls log s) :
    Collects P slot s.world.logger ((systemWritten s.past).map Prod.snd) := by
  induction h with
  | init => exact hlog
  | start _ _ _ _ ih => exact ih
  | @resume s i q k a w _ _ _ hE ih =>
    rw [systemWritten, seen_append, List.map_append]
    cases hE with
    | other _ _ hsilent => simpa [seen, systemRecord?, hsilent] using ih
    | logged hlogged =>
      obtain ⟨r, -, happ⟩ := logCall_ok hlogged
      exact ih.append happ
    | refused => simpa [seen, systemRecord?, systemLogCall?, logCall?, Except.toOption] using ih
  | moved _ hsame ih =>
    rw [show _ = _ from hsame]
    exact ih

/-- Chains from the start of a log to one hash say the same, record by record. -/
theorem same_of_linked {rs rs' : List AuditRecord} {k : String} (hrs : Linked (Links P) GENESIS_HASH rs k)
    (hrs' : Linked (Links P) GENESIS_HASH rs' k) (hcoll : CollisionFree P (hashedInputs rs ∪ hashedInputs rs'))
    (hgen : ∀ b ∈ hashedInputs rs ∪ hashedInputs rs', P.sha256.hexdigest b ≠ GENESIS_HASH) :
    List.Forall₂ (fun r r' => canonicalPayload r = canonicalPayload r' ∧ r.recordHash = r'.recordHash) rs rs' := by
  refine hrs.same_history hrs' ?_ ?_ ?_
  · intro r hr r' hr' a b m ha hb
    obtain ⟨x, hx, hxm⟩ := hashInput_of_links ha
    obtain ⟨y, hy, hym⟩ := hashInput_of_links hb
    obtain rfl : x = y := hcoll x (Or.inl ⟨r, hr, hx⟩) y (Or.inr ⟨r', hr', hy⟩) (hxm.trans hym.symm)
    have hlength := (length_prevHash_of_linked hrs genesis_length r hr).trans
      (length_prevHash_of_linked hrs' genesis_length r' hr').symm
    obtain ⟨hprev, hpayload⟩ := hashInput_inj hlength hx hy
    exact ⟨ha.1.symm.trans (hprev.trans hb.1), hpayload, ha.2.2.trans hb.2.2.symm⟩
  · intro r hr a ha
    obtain ⟨x, hx, hxm⟩ := hashInput_of_links ha
    exact hgen x (Or.inl ⟨r, hr, hx⟩) hxm
  · intro r hr a ha
    obtain ⟨x, hx, hxm⟩ := hashInput_of_links ha
    exact hgen x (Or.inr ⟨r, hr, hx⟩) hxm

/-- **Tampering shows.**  A collector that has been there from the first record holds all that was written, in order.  If
the file is accepted and its last hash is the collector's, the file holds these records and no others. -/
theorem tampering_shows (h : Tampered suspends u rt P py calls log s) (hfresh : log.logger.prevHash = GENESIS_HASH)
    (slot : ℕ) (hslot : log.logger.sinks[slot]? = some (.localSiemForwarder [])) :
    ∃ records, s.world.logger.sinks[slot]? = some (.localSiemForwarder records) ∧
      records = (systemWritten s.past).map Prod.snd ∧
      ∀ n f rs, verifyChain P s.world.file = .ok ⟨true, n, f⟩ → Reads P (lines s.world.file) rs →
        rs.getLast?.map AuditRecord.recordHash = records.getLast?.map AuditRecord.recordHash →
        CollisionFree P (hashedInputs records ∪ hashedInputs rs) →
        (∀ b ∈ hashedInputs records ∪ hashedInputs rs, P.sha256.hexdigest b ≠ GENESIS_HASH) →
        List.Forall₂ (fun r r' => canonicalPayload r = canonicalPayload r' ∧ r.recordHash = r'.recordHash) records rs := by
  have hlog : Collects P slot log.logger [] := ⟨hslot, hfresh ▸ .nil _⟩
  have hcollects := collects_written hlog h
  refine ⟨_, hcollects.held, rfl, fun n f rs hverify hreads hlast hcoll hgen => ?_⟩
  obtain ⟨rs', k, hreads', hlinked, -, -⟩ := verify_accepts_iff.1 hverify
  obtain rfl := hreads.unique hreads'
  have hk : k = s.world.logger.prevHash := by
    rw [linked_lastHash hlinked, linked_lastHash hcollects.linked, lastHash, lastHash, hlast]
  subst hk
  exact same_of_linked hcollects.linked hlinked hcoll hgen

/-! ### Two records and their copies -/

section Sample

/-- A fresh log with a collector. -/
def collectedLog : LogState where
  file := none
  logger := ⟨true, [.localSiemForwarder []], GENESIS_HASH⟩

def collectedHash : String := "dc697f8e44a4b7d0f08e118875c32af771dfc7696525013dcc4a1724b8bb23b5"

/-- The digests of two records. -/
def collectedSha256 : Sha256 :=
  sha256Of [(hashInput GENESIS_HASH (foundRecord "r1"), collectedHash)]
    "3e3e83afadbffb2f3861d69ef8b56c4332e64b3787114a8f932dea4fc17adbf3" (by decide +kernel)

lemma collectedSha256_ne_genesis (b : ByteArray) : collectedSha256.hexdigest b ≠ GENESIS_HASH := by
  simp only [collectedSha256, sha256Of, List.find?_singleton]
  split_ifs <;> decide

/-- Two pipelines. -/
def sampleTwice (_ : Bool) : PipelineCall := samplePipelineCall

/-- Two pipelines have run, one after the other, when a blank line is put behind the file. -/
lemma collected_reached : ∃ s record₁ record₂,
    Tampered (S := sampleSandbox) (fun _ => true) .ascii sampleRuntime (storingPlatform collectedSha256) samplePy
      sampleTwice collectedLog s ∧
      s.world.logger.sinks[0]? = some (.localSiemForwarder [record₁, record₂]) ∧
      ∃ file, Holds (storingPlatform collectedSha256) file s.world.logger.prevHash [record₁, record₂] ∧
        s.world.file = some (file.getD "" ++ "\n") ∧
        record₁ = { foundRecord "r1" with prevHash := GENESIS_HASH, recordHash := record₁.recordHash } ∧
        record₂ = { foundRecord "r2" with prevHash := record₁.recordHash, recordHash := record₂.recordHash } := by
  have hP := storingPlatform_stores collectedSha256
  obtain ⟨record₁, log₁, hlog₁, happ₁⟩ := found_handed hP collectedLog "r1"
  obtain ⟨record₂, log₂, hlog₂, happ₂⟩ := found_handed hP log₁ "r2"
  have hnative : ∀ recordId, (foundRecord recordId).isNative = true := fun _ => rfl
  have hr₁ := append_record happ₁
  have hr₂ := append_record happ₂
  obtain ⟨hprev₁, -, hhead₁⟩ := append_links happ₁
  obtain ⟨hprev₂, -, -⟩ := append_links happ₂
  rw [hprev₁] at hr₁
  rw [hprev₂, ← hhead₁] at hr₂
  have hnative₁ : record₁.isNative = true := by
    rw [hr₁]
    rfl
  have hnative₂ : record₂.isNative = true := by
    rw [hr₂]
    rfl
  have hholds := ((holds_fresh _).append hP (stable_of_isNative_record (hnative "r1")) happ₁).append hP
    (stable_of_isNative_record (hnative "r2")) happ₂
  rw [reread_of_isNative_record hnative₁, reread_of_isNative_record hnative₂] at hholds
  have hempty : Collects (storingPlatform collectedSha256) 0 collectedLog.logger [] := ⟨rfl, .nil _⟩
  have hcollects := (hempty.append happ₁).append happ₂
  have hrest : ∀ p : Coro (SystemOp sampleSandbox) SystemOp.Answer Exc PipelineResult, AtRest (fun _ => true) p := by
    intro p
    cases p <;> trivial
  have hinit : Tampered (S := sampleSandbox) (fun _ => true) .ascii sampleRuntime (storingPlatform collectedSha256) samplePy
      sampleTwice collectedLog ⟨collectedLog, fun _ => none, []⟩ := .init
  obtain ⟨_, _, -, -, -, hfirst⟩ := hinit.run_through (i := false) rfl (fun _ p _ => hrest p) (governed_run hlog₁)
  obtain ⟨_, _, -, -, -, hsecond⟩ := hfirst.run_through (i := true) rfl (fun _ p _ => hrest p) (governed_run hlog₂)
  have hchanged := hsecond.moved (w := { log₂ with file := some (log₂.file.getD "" ++ "\n") }) rfl
  exact ⟨_, record₁, record₂, hchanged, hcollects.held, log₂.file, hholds, rfl, hr₁, hr₂⟩

/-- The file has been changed, and still holds what the collector does. -/
theorem tampering_shows_collected : ∃ s record₁ record₂,
    Tampered (S := sampleSandbox) (fun _ => true) .ascii sampleRuntime (storingPlatform collectedSha256) samplePy
      sampleTwice collectedLog s ∧
      s.world.logger.sinks[0]? = some (.localSiemForwarder [record₁, record₂]) ∧
      (∃ line ∈ lines s.world.file, strip line = []) ∧
      verifyChain (storingPlatform collectedSha256) s.world.file = .ok ⟨true, 2, none⟩ ∧
      ∃ rs, Reads (storingPlatform collectedSha256) (lines s.world.file) rs ∧
        List.Forall₂ (fun r r' => canonicalPayload r = canonicalPayload r' ∧ r.recordHash = r'.recordHash)
          [record₁, record₂] rs := by
  obtain ⟨s, record₁, record₂, hreached, hheld, file, hholds, hfile, hr₁, hr₂⟩ := collected_reached
  have hlines : lines s.world.file = lines file ++ [[]] := by
    rw [hfile, lines, Option.getD_some, String.toList_append, splitLines_append hholds.terminated]
    rfl
  have hreads : Reads (storingPlatform collectedSha256) (lines s.world.file) [record₁, record₂] := by
    rw [hlines]
    exact hholds.reads.append (.blank rfl .nil)
  have hverify : verifyChain (storingPlatform collectedSha256) s.world.file = .ok ⟨true, 2, none⟩ :=
    verify_accepts_iff.2 ⟨_, _, hreads, hholds.linked, rfl, rfl⟩
  obtain ⟨records, hheld', -, hshows⟩ := tampering_shows hreached rfl 0 rfl
  obtain rfl : records = [record₁, record₂] := by
    rw [hheld, Option.some.injEq, BaseAuditSink.localSiemForwarder.injEq] at hheld'
    exact hheld'.symm
  refine ⟨s, record₁, record₂, hreached, hheld, ⟨[], by simp [hlines], rfl⟩, hverify, _, hreads, ?_⟩
  refine hshows 2 none _ hverify hreads rfl ?_ fun b _ => collectedSha256_ne_genesis b
  rw [Set.union_self]
  refine collisionFree_sha256Of (by decide +kernel) (hashInput record₂.prevHash record₂) ?_
  rintro b ⟨r, hr, hb⟩
  rcases List.mem_cons.1 hr with rfl | hr
  · rw [hr₁] at hb
    exact Or.inr ⟨_, _, List.mem_cons_self, hb⟩
  · obtain rfl := List.mem_singleton.1 hr
    exact Or.inl hb

end Sample

end Aimw
