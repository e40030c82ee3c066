import Aimw.Audit.Drift

/-!
# A log as it was written

`Written P file head rs` says that loggers which take turns have written the file, and that `append` returned the records
`rs`.  In memory the records are a chain.  On disk each line holds its record as it comes back, so `verify_chain` gets as
far as the records are faithful (`verifyLines_faithful`, `verifyLines_unfaithful`).
-/

namespace Aimw.Audit

open Lib

/-- The lines hold the records as they come back. -/
def OnDisk (P : Platform) (ls : List (List Char)) (rs : List AuditRecord) : Prop :=
  List.Forall₂ (fun l r => RecordLine P l r.reread) ls rs

/-- The file has been written from the records `rs`, of which the last one has the hash `head`. -/
structure Written (P : Platform) (file : Option String) (head : String) (rs : List AuditRecord) : Prop where
  terminated : FileTerminated file
  onDisk : OnDisk P (lines file) rs
  linked : Linked (Links P) GENESIS_HASH rs head
  isWellKeyed : ∀ r ∈ rs, r.isWellKeyed = true

/-- `Stores`, where no dictionary holds a key twice. -/
def Platform.StoresDicts (P : Platform) : Prop :=
  ∀ r : AuditRecord, r.isWellKeyed = true → r.isStorable = true →
    ∃ line, P.modelDumpJson r = .ok line ∧ JsonLine line ∧ P.modelValidateJson line = .ok r.reread

lemma Platform.Stores.dicts {P : Platform} (hP : P.Stores) : P.StoresDicts := fun r _ hr => hP r hr

section Written

variable {P : Platform} {file file' : Option String} {head : String} {rs : List AuditRecord}
  {logger logger' : HashChainedJSONLLogger} {record record' : AuditRecord}

lemma written_fresh (P : Platform) : Written P none GENESIS_HASH [] :=
  ⟨Or.inl rfl, .nil, .nil _, by simp⟩

lemma OnDisk.reads {ls : List (List Char)} (h : OnDisk P ls rs) : Reads P ls (rs.map AuditRecord.reread) := by
  induction h with
  | nil => exact .nil
  | cons hl _ ih => exact .record hl.1 hl.2 ih

/-- A logger whose hash is the head writes one more record. -/
theorem Written.append (hP : P.StoresDicts) (h : Written P file logger.prevHash rs) (hkeys : record.isWellKeyed = true)
    (happ : logger.append P file record = .ok (file', logger', record')) :
    Written P file' logger'.prevHash (rs ++ [record']) := by
  have hstores := fun d => hP { record with prevHash := logger.prevHash, recordHash := d }
    ((isWellKeyed_hashes ..).trans hkeys) (isStorable_of_append hkeys happ)
  obtain ⟨hterm, line, hlines, hline⟩ := append_writes_of h.terminated hstores happ
  have hkeys' : record'.isWellKeyed = true := by
    rw [append_record happ]
    exact (isWellKeyed_hashes ..).trans hkeys
  refine ⟨hterm, ?_, linked_concat_iff.2 ⟨_, h.linked, append_links happ⟩, ?_⟩
  · rw [hlines]
    exact List.rel_append h.onDisk (.cons hline .nil)
  · rw [List.forall_mem_append]
    exact ⟨h.isWellKeyed, by simpa using hkeys'⟩

/-- The hash that is reloaded is the head. -/
theorem Written.loadLastHash (h : Written P file head rs) : loadLastHash P file = .ok head := by
  have hlast : ∀ k, lastHash k (rs.map AuditRecord.reread) = lastHash k rs := by
    intro k
    rw [lastHash, lastHash, List.getLast?_map]
    cases rs.getLast? <;> rfl
  rw [loadLastHash_eq, loadLines_of_reads h.onDisk.reads, hlast, ← linked_lastHash h.linked]

lemma appendAll_cons {logger₁ logger₂ : HashChainedJSONLLogger} {file₁ file₂ : Option String} {records : List AuditRecord}
    (hfirst : logger.append P file record = .ok (file₁, logger₁, record'))
    (hrest : logger₁.appendAll P file₁ records = .ok (file₂, logger₂, rs)) :
    logger.appendAll P file (record :: records) = .ok (file₂, logger₂, record' :: rs) := by
  simp only [HashChainedJSONLLogger.appendAll, hfirst, hrest, bind, Except.bind]

lemma appendAll_singleton {logger₁ : HashChainedJSONLLogger} {file₁ : Option String}
    (happ : logger.append P file record = .ok (file₁, logger₁, record')) :
    logger.appendAll P file [record] = .ok (file₁, logger₁, [record']) :=
  appendAll_cons happ rfl

theorem Written.appendAll (hP : P.StoresDicts) {records new : List AuditRecord} (h : Written P file logger.prevHash rs)
    (hkeys : ∀ r ∈ records, r.isWellKeyed = true)
    (happ : logger.appendAll P file records = .ok (file', logger', new)) :
    Written P file' logger'.prevHash (rs ++ new) := by
  induction records generalizing logger file rs new with
  | nil =>
    obtain ⟨rfl, hout⟩ := Prod.mk.inj (Except.ok.inj happ)
    obtain ⟨rfl, rfl⟩ := Prod.mk.inj hout
    rwa [List.append_nil]
  | cons r records ih =>
    obtain ⟨hr, hkeys⟩ := List.forall_mem_cons.1 hkeys
    rw [HashChainedJSONLLogger.appendAll] at happ
    cases hfirst : logger.append P file r with
    | error e => simp only [hfirst, bind, Except.bind, reduceCtorEq] at happ
    | ok out =>
      obtain ⟨file₁, logger₁, r'⟩ := out
      cases hrest : logger₁.appendAll P file₁ records with
      | error e => simp only [hfirst, hrest, bind, Except.bind, reduceCtorEq] at happ
      | ok out =>
        obtain ⟨file₂, logger₂, new'⟩ := out
        simp only [hfirst, hrest, bind, Except.bind, Except.ok.injEq, Prod.mk.injEq] at happ
        obtain ⟨rfl, rfl, rfl⟩ := happ
        rw [List.append_cons]
        exact ih (h.append hP hr hfirst) hkeys hrest

/-- Each session goes on where the one before it has ended. -/
theorem Written.sessions (hP : P.StoresDicts) {sessions : List Session} {new : List AuditRecord} (h : Written P file head rs)
    (hkeys : ∀ s ∈ sessions, ∀ r ∈ s.records, r.isWellKeyed = true)
    (hrun : runSessions P file sessions = .ok (file', new)) : ∃ head', Written P file' head' (rs ++ new) := by
  induction sessions generalizing file head rs new with
  | nil =>
    obtain ⟨rfl, rfl⟩ := Prod.mk.inj (Except.ok.inj hrun)
    exact ⟨head, by rwa [List.append_nil]⟩
  | cons s sessions ih =>
    obtain ⟨hs, hkeys⟩ := List.forall_mem_cons.1 hkeys
    rw [runSessions, runSession, HashChainedJSONLLogger.init, h.loadLastHash] at hrun
    cases happ : HashChainedJSONLLogger.appendAll P ⟨s.redactParameters, s.sinks, head⟩ file s.records with
    | error e => simp only [happ, bind, Except.bind, reduceCtorEq] at hrun
    | ok out =>
      obtain ⟨file₁, logger₁, new₁⟩ := out
      cases hrest : runSessions P file₁ sessions with
      | error e => simp only [happ, hrest, bind, Except.bind, reduceCtorEq] at hrun
      | ok out =>
        obtain ⟨file₂, new₂⟩ := out
        simp only [happ, hrest, bind, Except.bind, Except.ok.injEq, Prod.mk.injEq] at hrun
        obtain ⟨rfl, rfl⟩ := hrun
        have hlogger : Written P file (HashChainedJSONLLogger.mk s.redactParameters s.sinks head).prevHash rs := h
        rw [← List.append_assoc]
        exact ih (hlogger.appendAll hP hs happ) hkeys hrest

end Written

/-! ## How far the loop gets -/

section Loop

variable {P : Platform} {h k : String} {r : AuditRecord} {rs : List AuditRecord} {l : List Char} {ls : List (List Char)}

/-- What comes back has a hash too. -/
lemma hash_reread {d : String} (hkeys : r.isWellKeyed = true) (hd : computeRecordHash P h r = .ok d) (m : String) :
    ∃ d', computeRecordHash P m r.reread = .ok d' := by
  obtain ⟨j, hj⟩ := toJson_of_hash hd
  obtain ⟨j', hj', -⟩ := reread_toJson r.payload hkeys hj
  rw [← reread_payload] at hj'
  exact ⟨_, by simp only [computeRecordHash, hashInput, canonicalBytes, PyVal.dumps, hj', Option.map_some]; rfl⟩

/-- SHA-256 gives two of the inputs one digest only if they are the same. -/
def CollisionFree (P : Platform) (inputs : Set ByteArray) : Prop :=
  ∀ b ∈ inputs, ∀ b' ∈ inputs, P.sha256.hexdigest b = P.sha256.hexdigest b' → b = b'

lemma hashedInputs_mono {ss : List AuditRecord} (hsub : rs ⊆ ss) : hashedInputs rs ⊆ hashedInputs ss := by
  rintro b ⟨r, hr, hb⟩
  exact ⟨r, hsub hr, hb⟩

/-- Two records that follow one head have the same hash exactly if they are the same to `json.dumps`. -/
lemma hash_eq_iff {s : AuditRecord} {d e : String} (hr : r.prevHash = h) (hs : s.prevHash = h)
    (hd : computeRecordHash P h r = .ok d) (he : computeRecordHash P h s = .ok e)
    (hcoll : CollisionFree P (hashedInputs [r, s])) : d = e ↔ r.payload.toJson = s.payload.toJson := by
  constructor
  · intro heq
    obtain ⟨b, hb, hdigest⟩ := hashInput_of_hash hd
    obtain ⟨b', hb', hdigest'⟩ := hashInput_of_hash he
    have hsame : b = b' := by
      refine hcoll b ⟨r, by simp, by rwa [hr]⟩ b' ⟨s, by simp, by rwa [hs]⟩ ?_
      rw [hdigest, hdigest', heq]
    exact (hashInput_inj rfl hb (hsame ▸ hb')).2
  · intro hpayload
    rw [computeRecordHash_congr P h hpayload, he] at hd
    exact (Except.ok.inj hd).symm

/-- At a line as it was written, the loop goes on if the record is faithful, and ends there if not. -/
lemma verifyLines_reread (hl : RecordLine P l r.reread) (hkeys : r.isWellKeyed = true) (hlink : Links P h r k)
    (hcoll : CollisionFree P (hashedInputs [r.reread, r])) (ls : List (List Char)) (i c : ℕ) :
    verifyLines P (l :: ls) i c h =
      if r.isFaithful then verifyLines P ls (i + 1) (c + 1) k else .ok ⟨false, c, some i⟩ := by
  obtain ⟨hprev, hd, rfl⟩ := hlink
  obtain ⟨d, hd'⟩ := hash_reread hkeys hd h
  have hiff : d = r.recordHash ↔ r.isFaithful = true := by
    rw [hash_eq_iff (r := r.reread) hprev hprev hd' hd hcoll, reread_payload_iff hkeys hd]
  rw [verifyLines_record hl.1 hl.2 hd']
  by_cases hfaithful : r.isFaithful = true
  · obtain rfl := hiff.2 hfaithful
    rw [if_pos hfaithful, if_neg]
    · rfl
    · rw [not_or, not_not, not_not]
      exact ⟨hprev, rfl⟩
  · rw [if_neg hfaithful, if_pos]
    exact Or.inr fun heq => hfaithful (hiff.1 heq.symm)

lemma CollisionFree.mono {A B : Set ByteArray} (h : CollisionFree P B) (hsub : A ⊆ B) : CollisionFree P A :=
  fun b hb b' hb' => h b (hsub hb) b' (hsub hb')

/-- The inputs that are hashed when the records are appended, and when they are verified. -/
def bothInputs (rs : List AuditRecord) : Set ByteArray := hashedInputs (rs ++ rs.map AuditRecord.reread)

lemma bothInputs_mono {ss : List AuditRecord} (hsub : rs ⊆ ss) : bothInputs rs ⊆ bothInputs ss := by
  refine hashedInputs_mono fun r hr => ?_
  rw [List.mem_append, List.mem_map] at hr ⊢
  exact hr.imp (fun hr => hsub hr) fun ⟨s, hs, heq⟩ => ⟨s, hsub hs, heq⟩

lemma subset_bothInputs (hr : r ∈ rs) : hashedInputs [r.reread, r] ⊆ bothInputs rs := by
  refine hashedInputs_mono (List.cons_subset.2 ⟨?_, List.cons_subset.2 ⟨?_, List.nil_subset _⟩⟩)
  · exact List.mem_append_right _ (List.mem_map_of_mem hr)
  · exact List.mem_append_left _ hr

/-- The loop passes over the lines of faithful records. -/
theorem verifyLines_faithful (hls : OnDisk P ls rs) (hkeys : ∀ r ∈ rs, r.isWellKeyed = true)
    (hlinked : Linked (Links P) h rs k) (hcoll : CollisionFree P (bothInputs rs))
    (hfaithful : ∀ r ∈ rs, r.isFaithful = true) (ms : List (List Char)) (i c : ℕ) :
    verifyLines P (ls ++ ms) i c h = verifyLines P ms (i + rs.length) (c + rs.length) k := by
  induction hls generalizing h i c with
  | nil =>
    obtain rfl := linked_nil_iff.1 hlinked
    rfl
  | @cons l r ls rs hl _ ih =>
    obtain ⟨m, hlink, hrest⟩ := linked_cons_iff.1 hlinked
    obtain ⟨hkey, hkeys⟩ := List.forall_mem_cons.1 hkeys
    obtain ⟨hr, hfaithful⟩ := List.forall_mem_cons.1 hfaithful
    have hcoll₁ : CollisionFree P (hashedInputs [r.reread, r]) := hcoll.mono (subset_bothInputs List.mem_cons_self)
    have hcoll₂ : CollisionFree P (bothInputs rs) := hcoll.mono (bothInputs_mono (List.subset_cons_self r rs))
    rw [List.cons_append, verifyLines_reread hl hkey hlink hcoll₁, if_pos hr, ih hkeys hrest hcoll₂ hfaithful,
      List.length_cons, Nat.add_right_comm i, Nat.add_right_comm c]
    rfl

/-- It ends at the first record that is not faithful. -/
theorem verifyLines_unfaithful (hls : OnDisk P ls rs) (hkeys : ∀ r ∈ rs, r.isWellKeyed = true)
    (hlinked : Linked (Links P) h rs k) (hcoll : CollisionFree P (bothInputs rs))
    (hnot : ¬ ∀ r ∈ rs, r.isFaithful = true) (ms : List (List Char)) (i c : ℕ) :
    ∃ j < rs.length, verifyLines P (ls ++ ms) i c h = .ok ⟨false, c + j, some (i + j)⟩ := by
  induction hls generalizing h i c with
  | nil => exact absurd (by simp) hnot
  | @cons l r ls rs hl _ ih =>
    obtain ⟨m, hlink, hrest⟩ := linked_cons_iff.1 hlinked
    obtain ⟨hkey, hkeys⟩ := List.forall_mem_cons.1 hkeys
    have hcoll₁ : CollisionFree P (hashedInputs [r.reread, r]) := hcoll.mono (subset_bothInputs List.mem_cons_self)
    have hcoll₂ : CollisionFree P (bothInputs rs) := hcoll.mono (bothInputs_mono (List.subset_cons_self r rs))
    rw [List.cons_append, verifyLines_reread hl hkey hlink hcoll₁]
    by_cases hr : r.isFaithful = true
    · have hnot : ¬ ∀ r ∈ rs, r.isFaithful = true := fun hall => hnot (List.forall_mem_cons.2 ⟨hr, hall⟩)
      obtain ⟨j, hj, hloop⟩ := ih hkeys hrest hcoll₂ hnot (i + 1) (c + 1)
      refine ⟨j + 1, Nat.succ_lt_succ hj, ?_⟩
      rw [if_pos hr, hloop, Nat.add_right_comm i, Nat.add_right_comm c]
      rfl
    · exact ⟨0, Nat.zero_lt_succ _, by rw [if_neg hr]; rfl⟩

end Loop

end Aimw.Audit
