import Aimw.Audit.Writers
import Aimw.Audit.Written

/-!
# Deleted and rearranged lines

`verify` asks the file alone, and each record names the one before it only.  So whatever is made of the lines of a log is
detected, as long as it is not the beginning of the log (`rearranged_detected`); nothing tells how far the log went on
(`cut_off_accepted`).
-/

namespace Aimw.Audit

open Lib

variable {P : Platform} {file file' : Option String} {head h k : String} {rs : List AuditRecord}
  {ls : List (List Char)}

/-- A line and the record it was written from. -/
abbrev Entry : Type := List Char × AuditRecord

/-- One step of the chain, by the names of the hashes alone. -/
def Names (h : String) (e : Entry) (k : String) : Prop := e.2.prevHash = h ∧ e.2.recordHash = k

lemma names_fixed : Fixed Names := by
  rintro e a b k m ⟨rfl, rfl⟩ ⟨rfl, rfl⟩
  exact ⟨rfl, rfl⟩

/-- The lines of a log with their records. -/
def entries (file : Option String) (rs : List AuditRecord) : List Entry := (lines file).zip rs

lemma OnDisk.map_zip (h : OnDisk P ls rs) : (ls.zip rs).map Prod.fst = ls ∧ (ls.zip rs).map Prod.snd = rs :=
  ⟨List.map_fst_zip h.length_eq.le, List.map_snd_zip h.length_eq.ge⟩

lemma OnDisk.of_mem_zip (h : OnDisk P ls rs) : ∀ e ∈ ls.zip rs, RecordLine P e.1 e.2.reread ∧ e.2 ∈ rs := by
  intro e he
  exact ⟨List.forall₂_iff_zip.1 h |>.2 he, (List.of_mem_zip he).2⟩

/-- Every record of a chain follows the hash that it names. -/
lemma links_of_linked (hrs : Linked (Links P) h rs k) : ∀ r ∈ rs, Links P r.prevHash r r.recordHash := by
  induction hrs with
  | nil => simp
  | cons hr _ ih =>
    obtain ⟨rfl, hd, rfl⟩ := hr
    exact List.forall_mem_cons.2 ⟨⟨rfl, hd, rfl⟩, ih⟩

/-- The loop returns on lines as they were written, in whatever order. -/
lemma verifyLines_returns (hls : OnDisk P ls rs) (hkeys : ∀ r ∈ rs, r.isWellKeyed = true)
    (hhash : ∀ r ∈ rs, Links P r.prevHash r r.recordHash) (i c : ℕ) (h : String) :
    ∃ res, verifyLines P ls i c h = .ok res := by
  induction hls generalizing i c h with
  | nil => exact ⟨_, rfl⟩
  | @cons l r ls rs hl _ ih =>
    obtain ⟨hkey, hkeys⟩ := List.forall_mem_cons.1 hkeys
    obtain ⟨hr, hhash⟩ := List.forall_mem_cons.1 hhash
    obtain ⟨d, hd⟩ := hash_reread hkey hr.2.1 h
    rw [verifyLines_record hl.1 hl.2 hd]
    split_ifs
    · exact ⟨_, rfl⟩
    · exact ih hkeys hhash _ _ _

/-- Lines that are all taken from a list of entries are the lines of some entries. -/
lemma exists_entries (es : List Entry) (hsub : ∀ l ∈ ls, l ∈ es.map Prod.fst) :
    ∃ ys : List Entry, ys.map Prod.fst = ls ∧ ∀ y ∈ ys, y ∈ es := by
  induction ls with
  | nil => exact ⟨[], rfl, by simp⟩
  | cons l ls ih =>
    obtain ⟨hl, hrest⟩ := List.forall_mem_cons.1 hsub
    obtain ⟨ys, rfl, hys⟩ := ih hrest
    obtain ⟨e, he, rfl⟩ := List.mem_map.1 hl
    exact ⟨e :: ys, rfl, List.forall_mem_cons.2 ⟨he, hys⟩⟩

/-- In a log, the hash of a record tells the hash before it. -/
lemma Written.prevHash_unique (hw : Written P file head rs) (hcoll : CollisionFree P (hashedInputs rs))
    {r s : AuditRecord} (hr : r ∈ rs) (hs : s ∈ rs) (heq : r.recordHash = s.recordHash) : r.prevHash = s.prevHash := by
  have hlength := length_prevHash_of_linked hw.linked genesis_length
  obtain ⟨b, hb, hdigest⟩ := hashInput_of_links (links_of_linked hw.linked r hr)
  obtain ⟨b', hb', hdigest'⟩ := hashInput_of_links (links_of_linked hw.linked s hs)
  have hsame : b = b' := hcoll b ⟨r, hr, hb⟩ b' ⟨s, hs, hb'⟩ (hdigest.trans (heq.trans hdigest'.symm))
  exact (hashInput_inj ((hlength r hr).trans (hlength s hs).symm) hb (hsame ▸ hb')).1

/-- Lines of a log are the lines of some of its entries, and hold their records. -/
lemma Written.exists_entries (hw : Written P file head rs) (hsub : ∀ l ∈ ls, l ∈ lines file) :
    ∃ ys : List Entry, ys.map Prod.fst = ls ∧ OnDisk P ls (ys.map Prod.snd) ∧ ∀ y ∈ ys, y ∈ entries file rs := by
  obtain ⟨ys, rfl, hys⟩ := Audit.exists_entries (entries file rs) (by rwa [entries, hw.onDisk.map_zip.1])
  refine ⟨ys, rfl, ?_, hys⟩
  rw [OnDisk, List.forall₂_map_left_iff, List.forall₂_map_right_iff, List.forall₂_same]
  exact fun e he => (hw.onDisk.of_mem_zip e (hys e he)).1

/-- **Of the lines of a log, only a beginning of it is accepted.** -/
theorem Written.prefix_of_accepted (hw : Written P file head rs) (hcoll : CollisionFree P (hashedInputs rs))
    (hgen : ∀ b ∈ hashedInputs rs, P.sha256.hexdigest b ≠ GENESIS_HASH) (hsub : ∀ l ∈ lines file', l ∈ lines file)
    {n : ℕ} {f : Option ℕ} (hverify : verifyChain P file' = .ok ⟨true, n, f⟩) : lines file' <+: lines file := by
  obtain ⟨hfst, hsnd⟩ := hw.onDisk.map_zip
  obtain ⟨ys, hys, hdisk, hmem⟩ := hw.exists_entries hsub
  have hchain : Linked Names GENESIS_HASH (entries file rs) head := by
    have hlinked := hw.linked
    rw [← hsnd, linked_map_iff] at hlinked
    exact hlinked.imp fun a e _ b he => ⟨he.1, he.2.2⟩
  -- the accepted records name each other
  obtain ⟨rs', m, hreads, hlinked, -⟩ := verify_accepts_iff.1 hverify
  obtain rfl := hdisk.reads.unique hreads
  rw [List.map_map, linked_map_iff] at hlinked
  have hnames : Linked Names GENESIS_HASH ys m := hlinked.imp fun a e _ b he => ⟨he.1, he.2.2⟩
  have hprefix : ys <+: entries file rs := by
    refine hchain.prefix_of_subset names_fixed hnames hmem ?_ ?_
    · rintro x hx y hy a b m ⟨rfl, rfl⟩ ⟨rfl, heq⟩
      exact hw.prevHash_unique hcoll (hw.onDisk.of_mem_zip x hx).2 (hw.onDisk.of_mem_zip y hy).2 heq.symm
    · rintro x hx a ⟨-, hgenesis⟩
      have hr := (hw.onDisk.of_mem_zip x hx).2
      obtain ⟨b, hb, hdigest⟩ := hashInput_of_links (links_of_linked hw.linked _ hr)
      exact hgen b ⟨_, hr, hb⟩ (hdigest.trans hgenesis)
  have hlines := hprefix.map Prod.fst
  rwa [hys, entries, hfst] at hlines

/-- On lines of a log, `verify_chain` returns. -/
theorem Written.verify_returns (hw : Written P file head rs) (hsub : ∀ l ∈ lines file', l ∈ lines file) :
    ∃ res, verifyChain P file' = .ok res := by
  obtain ⟨ys, -, hdisk, hmem⟩ := hw.exists_entries hsub
  have hrecord : ∀ r ∈ ys.map Prod.snd, r ∈ rs := by
    intro r hr
    obtain ⟨e, he, rfl⟩ := List.mem_map.1 hr
    exact (hw.onDisk.of_mem_zip e (hmem e he)).2
  rw [verifyChain_eq]
  exact verifyLines_returns hdisk (fun r hr => hw.isWellKeyed r (hrecord r hr))
    (fun r hr => links_of_linked hw.linked r (hrecord r hr)) 0 0 GENESIS_HASH

/-- **Deleted, repeated and rearranged lines are detected**, as long as what is left is not the beginning of the log. -/
theorem rearranged_detected (hP : P.Stores) {logger₀ logger : HashChainedJSONLLogger} {redactParameters : Bool}
    {sinks : List BaseAuditSink} (hinit : HashChainedJSONLLogger.init P none redactParameters sinks = .ok logger₀)
    {records : List AuditRecord} (hkeys : ∀ r ∈ records, r.isWellKeyed = true)
    (hrun : logger₀.appendAll P none records = .ok (file, logger, rs)) (hcoll : CollisionFree P (hashedInputs rs))
    (hgen : ∀ b ∈ hashedInputs rs, P.sha256.hexdigest b ≠ GENESIS_HASH) (hsub : ∀ l ∈ lines file', l ∈ lines file)
    (hnot : ¬ lines file' <+: lines file) : ∃ n f, logger.verify P file' = .ok ⟨false, n, f⟩ := by
  obtain rfl : (⟨redactParameters, sinks, GENESIS_HASH⟩ : HashChainedJSONLLogger) = logger₀ := Except.ok.inj hinit
  have hw : Written P file logger.prevHash ([] ++ rs) := Written.appendAll hP.dicts (written_fresh P) hkeys hrun
  obtain ⟨⟨valid, n, f⟩, hverify⟩ := hw.verify_returns hsub
  cases valid with
  | false => exact ⟨n, f, hverify⟩
  | true => exact absurd (hw.prefix_of_accepted hcoll hgen hsub hverify) hnot

/-- A log of one record, whose line has been repeated. -/
theorem rearranged_detected_repeated : ∃ file file' logger rs,
    freshLogger.appendAll (storingPlatform sampleSha256) none [sampleRecord] = .ok (file, logger, rs) ∧
      lines file' = lines file ++ lines file ∧
      ∃ n f, logger.verify (storingPlatform sampleSha256) file' = .ok ⟨false, n, f⟩ := by
  have hP := storingPlatform_stores sampleSha256
  obtain ⟨file, logger, r, happ⟩ := append_succeeds hP freshLogger none sampleRecord_stable
  obtain ⟨hterm, line, hlines, -⟩ := append_writes hP (Or.inl rfl : FileTerminated none) rfl happ
  have hrun := appendAll_singleton happ
  have htwice : lines (some (file.getD "" ++ file.getD "")) = lines file ++ lines file := by
    rw [lines, Option.getD_some, String.toList_append, splitLines_append hterm]
    rfl
  have hone : lines file = [line] := hlines
  refine ⟨file, some (file.getD "" ++ file.getD ""), logger, [r], hrun, htwice, ?_⟩
  refine rearranged_detected hP (rfl : HashChainedJSONLLogger.init _ none true [] = .ok freshLogger) ?_ hrun ?_ ?_ ?_ ?_
  · simp only [List.forall_mem_singleton]
    decide +kernel
  · rintro b ⟨s, hs, hb⟩ b' ⟨s', hs', hb'⟩ -
    obtain rfl := List.mem_singleton.1 hs
    obtain rfl := List.mem_singleton.1 hs'
    exact Except.ok.inj (hb.symm.trans hb')
  · exact fun b _ => sampleSha256_ne_genesis b
  · rw [htwice]
    exact fun l hl => (List.mem_append.1 hl).elim id id
  · rw [htwice, hone]
    exact fun hprefix => absurd hprefix.length_le (by simp)

/-- A log of two records, the second of which has been cut off. -/
theorem cut_off_accepted : ∃ file file' logger rs line,
    freshLogger.appendAll (storingPlatform sampleSha256) none [sampleRecord, sampleRecord] = .ok (file, logger, rs) ∧
      lines file = lines file' ++ [line] ∧
      logger.verify (storingPlatform sampleSha256) file' = .ok ⟨true, 1, none⟩ := by
  have hP := storingPlatform_stores sampleSha256
  obtain ⟨file₁, logger₁, r₁, happ₁⟩ := append_succeeds hP freshLogger none sampleRecord_stable
  obtain ⟨file₂, logger₂, r₂, happ₂⟩ := append_succeeds hP logger₁ file₁ sampleRecord_stable
  have hholds : Holds (storingPlatform sampleSha256) file₁ logger₁.prevHash [r₁.reread] :=
    (holds_fresh _).append hP sampleRecord_stable happ₁
  obtain ⟨-, line, hlines, -⟩ := append_writes hP hholds.terminated rfl happ₂
  exact ⟨file₂, file₁, logger₂, [r₁, r₂], line, appendAll_cons happ₁ (appendAll_singleton happ₂), hlines, hholds.verify⟩

end Aimw.Audit
