import Aimw.Audit.Chain
import Aimw.Audit.Codec

/-!
# The log over its whole life

* `sessions_agree_with_verifier`: writer and verifier agree over any number of restarts; a file that was rejected
  stays rejected;
* `head_commits_to_history`: two accepted files with the same last hash hold the same records.
-/

namespace Aimw.Audit

open Lib

/-! ## A sample log

One record, and SHA-256 on the inputs that hashing it twice in a row gives.
-/

def sampleRecord : AuditRecord where
  recordId := "r1"
  timestamp := "2024-01-01T00:00:00Z"
  callId := "c1"
  context := { userId := "u", agentId := "a", sessionId := "s", roles := ["dev"] }
  request := { toolName := "t", functionName := "f", callId := "c1", parameters := [] }
  decision := ({ allowed := false, reason := "no" } : PolicyDecision).modelDump
  prevHash := GENESIS_HASH

def sampleHash : String := "8c83b5414f102d67a4e24721da8d0b57fb9d64f12bfef8c4a3b42ba21e3acbb5"

/-- The digests of the record as the first of a log and as the second. -/
def sampleSha256 : Sha256 where
  hexdigest b :=
    if (hashInput GENESIS_HASH sampleRecord).map ByteArray.data = .ok b.data then sampleHash
    else "21d85f10bbc5848794e815d908d91205dbce33fa0965edd253714c218f5fe577"
  length_hexdigest b := by split_ifs <;> decide

lemma sampleRecord_links :
    Links (codecPlatform sampleSha256) GENESIS_HASH { sampleRecord with recordHash := sampleHash } sampleHash := by
  refine ⟨rfl, ?_, rfl⟩
  obtain ⟨d, hd⟩ := computeRecordHash_ok_of_native (codecPlatform sampleSha256) GENESIS_HASH (r := sampleRecord) rfl
  rw [computeRecordHash_recordHash, hd]
  unfold computeRecordHash at hd
  cases hb : hashInput GENESIS_HASH sampleRecord with
  | error e => simp [hb, Except.map] at hd
  | ok b =>
    simp only [hb, Except.map, codecPlatform, sampleSha256, if_true] at hd
    exact hd.symm

/-! ## Restarts -/

/-- **Writer and verifier agree over runs with restarts.** -/
theorem sessions_agree_with_verifier (P : Platform) (hP : P.RoundTrips) (file : Option String)
    (hfile : FileTerminated file) (hold : ∀ l ∈ lines file, strip l = [] ∨ ∃ r, readLine P l = .ok r)
    (sessions : List Session) (hnative : ∀ s ∈ sessions, ∀ r ∈ s.records, r.isNative = true) :
    ∃ file' returned new, runSessions P file sessions = .ok (file', returned) ∧
      returned.length = (sessions.map fun s => s.records.length).sum ∧
      lines file' = lines file ++ new ∧ new.map (readLine P) = returned.map .ok ∧
      (∀ n f, verifyChain P file = .ok ⟨true, n, f⟩ →
        verifyChain P file' = .ok ⟨true, n + returned.length, none⟩) ∧
      ∀ n f, verifyChain P file = .ok ⟨false, n, f⟩ → verifyChain P file' = .ok ⟨false, n, f⟩ := by
  obtain ⟨old, hread⟩ := reads_of_forall hold
  obtain ⟨file', rs, new, hrun, hlines, hnew, ⟨k, hlink⟩, hlen⟩ := sessions_spec hP hnative hfile hread
  refine ⟨file', rs, new, hrun, hlen, hlines, map_readLine hnew, ?_, ?_⟩
  · -- accepted: the old chain ends at the hash from which the new records continue
    intro n f hv
    obtain ⟨rs₀, k₀, hread₀, hlink₀, rfl, rfl⟩ := verify_accepts_iff.1 hv
    obtain rfl := hread.unique hread₀
    rw [← linked_lastHash hlink₀] at hlink
    refine verify_accepts_iff.2 ⟨old ++ rs, k, ?_, linked_append_iff.2 ⟨k₀, hlink₀, hlink⟩, by simp, rfl⟩
    rw [hlines]
    exact hread.append (reads_of_recordLines hnew)
  · -- rejected: the loop stops before it gets to the new lines
    intro n f hv
    rw [verifyChain_eq] at hv ⊢
    rw [hlines]
    exact verifyLines_reject_append hv new

theorem sessions_agree_with_verifier_twice :
    ∃ file' returned, runSessions (codecPlatform sampleSha256) none
        [⟨true, [], [sampleRecord]⟩, ⟨false, [], [sampleRecord]⟩] = .ok (file', returned) ∧
      returned.length = 2 ∧ verifyChain (codecPlatform sampleSha256) file' = .ok ⟨true, 2, none⟩ := by
  obtain ⟨file', returned, new, hrun, hlen, -, -, hacc, -⟩ :=
    sessions_agree_with_verifier (codecPlatform sampleSha256) (codecPlatform_roundTrips _) none (Or.inl rfl)
      (by simp [lines, splitLines]) [⟨true, [], [sampleRecord]⟩, ⟨false, [], [sampleRecord]⟩]
      (by simp [show sampleRecord.isNative = true by decide])
  have hlen : returned.length = 2 := hlen
  exact ⟨file', returned, hrun, hlen, by simpa [hlen] using hacc 0 none rfl⟩

/-! ## The last hash -/

/-- What the hash of a record covers, with its keys sorted. -/
def canonicalPayload (r : AuditRecord) : Option Json := r.payload.toJson

/-- The byte strings that are hashed when a file with the records `rs` is verified. -/
def hashedInputs (rs : List AuditRecord) : Set ByteArray := {b | ∃ r ∈ rs, hashInput r.prevHash r = .ok b}

lemma hashInput_of_links {P : Platform} {h k : String} {r : AuditRecord} (hr : Links P h r k) :
    ∃ b, hashInput r.prevHash r = .ok b ∧ P.sha256.hexdigest b = k := by
  obtain ⟨rfl, hd, rfl⟩ := hr
  exact hashInput_of_hash hd

/-- All running hashes of a chain have the length of a digest. -/
lemma length_prevHash_of_linked {P : Platform} {h k : String} {rs : List AuditRecord}
    (hrs : Linked (Links P) h rs k) (hh : h.toList.length = 64) : ∀ r ∈ rs, r.prevHash.toList.length = 64 := by
  induction hrs with
  | nil => simp
  | @cons h k m r rs hr _ ih =>
    intro s hs
    rcases List.mem_cons.1 hs with rfl | hs
    · rw [hr.1, hh]
    · obtain ⟨b, -, rfl⟩ := hashInput_of_links hr
      exact ih (P.sha256.length_hexdigest b) s hs

/-- **The head hash commits to the whole history.** -/
theorem head_commits_to_history (P : Platform) {file₁ file₂ : Option String} {n₁ n₂ : ℕ} {f₁ f₂ : Option ℕ}
    (hv₁ : verifyChain P file₁ = .ok ⟨true, n₁, f₁⟩) (hv₂ : verifyChain P file₂ = .ok ⟨true, n₂, f₂⟩)
    {rs₁ rs₂ : List AuditRecord} (hr₁ : Reads P (lines file₁) rs₁) (hr₂ : Reads P (lines file₂) rs₂)
    (hlast : rs₁.getLast?.map AuditRecord.recordHash = rs₂.getLast?.map AuditRecord.recordHash)
    (hcoll : ∀ a ∈ hashedInputs rs₁ ∪ hashedInputs rs₂, ∀ b ∈ hashedInputs rs₁ ∪ hashedInputs rs₂,
      P.sha256.hexdigest a = P.sha256.hexdigest b → a = b)
    (hgen : ∀ a ∈ hashedInputs rs₁ ∪ hashedInputs rs₂, P.sha256.hexdigest a ≠ GENESIS_HASH) :
    n₁ = n₂ ∧ List.Forall₂ (fun r s => canonicalPayload r = canonicalPayload s ∧ r.recordHash = s.recordHash) rs₁ rs₂ := by
  obtain ⟨_, k₁, hread₁, hlink₁, rfl, rfl⟩ := verify_accepts_iff.1 hv₁
  obtain ⟨_, k₂, hread₂, hlink₂, rfl, rfl⟩ := verify_accepts_iff.1 hv₂
  obtain rfl := hr₁.unique hread₁
  obtain rfl := hr₂.unique hread₂
  have hk : k₁ = k₂ := by
    rw [linked_lastHash hlink₁, linked_lastHash hlink₂, lastHash, lastHash, hlast]
  subst hk
  have hlen₁ := length_prevHash_of_linked hlink₁ genesis_length
  have hlen₂ := length_prevHash_of_linked hlink₂ genesis_length
  have hsame := hlink₁.same_history hlink₂
    (E := fun r s => canonicalPayload r = canonicalPayload s ∧ r.recordHash = s.recordHash) ?_ ?_ ?_
  · exact ⟨hsame.length_eq, hsame⟩
  · -- a step is undone: equal digests, equal inputs, and the inputs are uniquely decoded
    intro r hr s hs a b m ha hb
    obtain ⟨x, hx, hxm⟩ := hashInput_of_links ha
    obtain ⟨y, hy, hym⟩ := hashInput_of_links hb
    have hxy : x = y := hcoll x (Or.inl ⟨r, hr, hx⟩) y (Or.inr ⟨s, hs, hy⟩) (hxm.trans hym.symm)
    subst hxy
    obtain ⟨hprev, hpay⟩ := hashInput_inj ((hlen₁ r hr).trans (hlen₂ s hs).symm) hx hy
    exact ⟨ha.1.symm.trans (hprev.trans hb.1), hpay, ha.2.2.trans hb.2.2.symm⟩
  · intro r hr a ha
    obtain ⟨x, hx, hxm⟩ := hashInput_of_links ha
    exact hgen x (Or.inl ⟨r, hr, hx⟩) hxm
  · intro s hs a ha
    obtain ⟨x, hx, hxm⟩ := hashInput_of_links ha
    exact hgen x (Or.inr ⟨s, hs, hx⟩) hxm

/-- The record's line, and the same line after a blank one. -/
theorem head_commits_to_history_sample :
    ∃ file₁ file₂ rs₁ rs₂, file₁ ≠ file₂ ∧
      verifyChain (codecPlatform sampleSha256) file₁ = .ok ⟨true, 1, none⟩ ∧
      verifyChain (codecPlatform sampleSha256) file₂ = .ok ⟨true, 1, none⟩ ∧
      Reads (codecPlatform sampleSha256) (lines file₁) rs₁ ∧ Reads (codecPlatform sampleSha256) (lines file₂) rs₂ ∧
      List.Forall₂ (fun r s => canonicalPayload r = canonicalPayload s ∧ r.recordHash = s.recordHash) rs₁ rs₂ := by
  obtain ⟨line, -, hline, hread⟩ :=
    codecPlatform_roundTrips sampleSha256 { sampleRecord with recordHash := sampleHash } rfl
  have hrecord : ∀ file, FileTerminated file → Reads (codecPlatform sampleSha256) (lines file) [] →
      Reads (codecPlatform sampleSha256) (lines (some (file.getD "" ++ line ++ "\n")))
        [{ sampleRecord with recordHash := sampleHash }] := by
    intro file hfile hblank
    rw [(lines_append hfile hline).1]
    refine hblank.append (.record ?_ ?_ .nil)
    · rw [hline.strip_eq]; exact hline.ne_nil
    · rw [readLine, hline.strip_eq, String.ofList_toList]; exact hread
  have hr₁ := hrecord none (Or.inl rfl) .nil
  have hr₂ := hrecord (some "\n") (Or.inr ⟨[], rfl⟩) (.blank (by decide) .nil)
  have hlink := Linked.cons sampleRecord_links (.nil _)
  have hv₁ := verify_accepts_iff.2 ⟨_, _, hr₁, hlink, rfl, rfl⟩
  have hv₂ := verify_accepts_iff.2 ⟨_, _, hr₂, hlink, rfl, rfl⟩
  have hsame := head_commits_to_history (codecPlatform sampleSha256) hv₁ hv₂ hr₁ hr₂ rfl ?_ ?_
  · refine ⟨_, _, _, _, fun h => ?_, hv₁, hv₂, hr₁, hr₂, hsame.2⟩
    have hlen := congrArg String.length (Option.some.inj h)
    simp at hlen
  · rw [Set.union_self]
    rintro a ⟨r, hr, ha⟩ b ⟨s, hs, hb⟩ -
    obtain rfl := List.mem_singleton.1 hr
    obtain rfl := List.mem_singleton.1 hs
    exact Except.ok.inj (ha.symm.trans hb)
  · intro a _
    simp only [codecPlatform, sampleSha256]
    split_ifs <;> decide

end Aimw.Audit
