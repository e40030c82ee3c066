import Aimw.Audit.Writers
import Aimw.Audit.Written

/-!
# Where an edited record is found

One line of a log is replaced by another record.  The loop of `verify_chain` gets to it if the records before it are
faithful.  There it finds a record that names another hash, or whose hash is that of another payload; if the hash fits,
the next record is the one that does not name it (`edit_located_iff`).
-/

namespace Aimw.Audit

open Lib

/-! ## Members of what is hashed -/

lemma mem_sortItems {ms : List (PyKey × Json)} {sorted : List (String × Json)} (h : sortItems ms = some sorted)
    (m : String × Json) : m ∈ sorted ↔ ∃ q ∈ ms, writtenMember q = m := by
  rcases sortItems_cases h with ⟨-, rfl⟩ | ⟨-, rfl⟩ | ⟨q, rfl, -, rfl⟩
  · simp only [List.mem_map, List.mem_insertionSort]
  · simp only [List.mem_map, List.mem_insertionSort]
  · simp [eq_comm]

lemma mem_toJsonItems {items : List (String × PyVal)} {ms : List (PyKey × Json)}
    (h : toJsonItems (items.map fun p => (PyKey.str p.1, p.2)) = some ms) (m : PyKey × Json) :
    m ∈ ms ↔ ∃ p ∈ items, PyKey.str p.1 = m.1 ∧ p.2.toJson = some m.2 := by
  induction items generalizing ms with
  | nil =>
    obtain rfl : [] = ms := Option.some.inj h
    simp
  | cons p items ih =>
    rw [List.map_cons, toJsonItems] at h
    obtain ⟨j, hj, hrest⟩ := Option.bind_eq_some_iff.1 h
    obtain ⟨ms', hms', rfl⟩ := Option.map_eq_some_iff.1 hrest
    have hfirst : m = (PyKey.str p.1, j) ↔ PyKey.str p.1 = m.1 ∧ p.2.toJson = some m.2 := by
      rw [hj, Option.some.injEq, Prod.ext_iff, eq_comm, @eq_comm _ m.2]
    rw [List.mem_cons, ih hms', hfirst, List.exists_mem_cons_iff]

/-- `json.dumps` writes the members of an object, in some order. -/
lemma mem_toJson {items : List (String × PyVal)} {j : Json} (h : (PyVal.ofItems items).toJson = some j) :
    ∃ ms, j = .obj ms ∧ ∀ m, m ∈ ms ↔ ∃ p ∈ items, p.1 = m.1 ∧ p.2.toJson = some m.2 := by
  rw [PyVal.ofItems, PyVal.toJson] at h
  obtain ⟨ms, hms, h⟩ := Option.bind_eq_some_iff.1 h
  obtain ⟨sorted, hsorted, rfl⟩ := Option.map_eq_some_iff.1 h
  refine ⟨sorted, rfl, fun m => ?_⟩
  rw [mem_sortItems hsorted]
  constructor
  · rintro ⟨q, hq, rfl⟩
    obtain ⟨p, hp, hkey, hj⟩ := (mem_toJsonItems hms q).1 hq
    exact ⟨p, hp, by rw [writtenMember, ← hkey, PyKey.jsonText], hj⟩
  · rintro ⟨p, hp, hkey, hj⟩
    exact ⟨(.str p.1, m.2), (mem_toJsonItems hms _).2 ⟨p, hp, rfl, hj⟩, Prod.ext hkey rfl⟩

/-- Objects that are the same to `json.dumps` have the same members. -/
lemma exists_mem_of_toJson {items items' : List (String × PyVal)} {j : Json} (h : (PyVal.ofItems items).toJson = some j)
    (h' : (PyVal.ofItems items').toJson = some j) {k : String} {v : PyVal} (hv : (k, v) ∈ items') :
    ∃ x, (k, x) ∈ items ∧ x.toJson = v.toJson := by
  obtain ⟨ms, rfl, hmem⟩ := mem_toJson h
  obtain ⟨ms', heq, hmem'⟩ := mem_toJson h'
  obtain rfl := Json.obj.inj heq
  obtain ⟨y, hy⟩ := exists_toJson_of_mem h' hv
  obtain ⟨⟨l, x⟩, hx, rfl, hjson⟩ := (hmem (k, y)).1 ((hmem' _).2 ⟨_, hv, rfl, hy⟩)
  exact ⟨x, hx, hjson.trans hy.symm⟩

lemma eq_arr_of_toJson {xs : List PyVal} {j : Json} (h : (PyVal.list xs).toJson = some j) :
    ∃ js, j = .arr js ∧ toJsonList xs = some js := by
  obtain ⟨js, hjs, rfl⟩ := Option.map_eq_some_iff.1 h
  exact ⟨js, rfl, hjs⟩

lemma eq_obj_of_toJson {items : List (PyKey × PyVal)} {j : Json} (h : (PyVal.dict items).toJson = some j) :
    ∃ ms, j = .obj ms := by
  obtain ⟨ms, -, h⟩ := Option.bind_eq_some_iff.1 h
  obtain ⟨sorted, -, rfl⟩ := Option.map_eq_some_iff.1 h
  exact ⟨sorted, rfl⟩

lemma eq_str_of_toJson {x : PyVal} {s : String} (h : x.toJson = some (.str s)) : x = .str s := by
  cases x with
  | str t => rw [Json.str.inj (Option.some.inj h)]
  | int i => cases (toJson_int_eq_some_iff.1 h).2
  | list xs =>
    obtain ⟨js, hjs, -⟩ := eq_arr_of_toJson h
    cases hjs
  | dict items =>
    obtain ⟨ms, hms⟩ := eq_obj_of_toJson h
    cases hms
  | _ => cases h

/-- Records that are the same to `json.dumps` have the same texts in the same fields. -/
lemma str_mem_fields {r s : AuditRecord} {j : Json} (hr : r.payload.toJson = some j) (hs : s.payload.toJson = some j)
    {k t : String} (hk : (k, PyVal.str t) ∈ r.fields) : (k, PyVal.str t) ∈ s.fields := by
  obtain ⟨x, hx, hj⟩ := exists_mem_of_toJson hs hr hk
  obtain rfl := eq_str_of_toJson hj
  exact hx

/-- What is hashed of a record tells the hash that it names. -/
lemma prevHash_of_toJson {r s : AuditRecord} {j : Json} (hr : r.payload.toJson = some j)
    (hs : s.payload.toJson = some j) : r.prevHash = s.prevHash := by
  have hmem := str_mem_fields hr hs (k := "prev_hash") (t := r.prevHash) (by simp [AuditRecord.fields])
  simpa [AuditRecord.fields, PyVal.ofItems, PyVal.ofItems?] using hmem

/-! ## The loop at the edited line -/

section Edit

variable {P : Platform} {file file' : Option String} {head h : String} {rs : List AuditRecord} {r r' : AuditRecord}
  {l' : List Char} {i : ℕ}

/-- A line that can be read has a hash. -/
lemma hash_of_readsPlain (hP : P.ReadsPlain) {l : List Char} (hl : RecordLine P l r) (h : String) :
    ∃ d, computeRecordHash P h r = .ok d :=
  computeRecordHash_ok_of_plain P h (hP _ _ hl.2).1 (hP _ _ hl.2).2

/-- The loop does not go back. -/
lemma verifyLines_index_le {ls : List (List Char)} {i c n f : ℕ} {v : Bool}
    (hv : verifyLines P ls i c h = .ok ⟨v, n, some f⟩) : i ≤ f := by
  induction ls generalizing i c h with
  | nil => cases hv
  | cons l ls ih =>
    by_cases hl : strip l = []
    · rw [verifyLines, if_pos hl] at hv
      exact Nat.le_of_succ_le (ih hv)
    · obtain ⟨s, d, hs, hd⟩ := verifyLines_cons_ok hl hv
      rw [verifyLines_record hl hs hd] at hv
      split_ifs at hv
      · simp only [Except.ok.injEq, ChainVerificationResult.mk.injEq, Option.some.injEq] at hv
        exact hv.2.2.le
      · exact Nat.le_of_succ_le (ih hv)

/-- A log cut at one of its records. -/
lemma OnDisk.split {ls : List (List Char)} {pre post : List AuditRecord} (h : OnDisk P ls (pre ++ r :: post)) :
    ∃ before l after, ls = before ++ l :: after ∧ OnDisk P before pre ∧ RecordLine P l r.reread ∧ OnDisk P after post := by
  induction pre generalizing ls with
  | nil =>
    obtain ⟨l, after, hl, hafter, rfl⟩ := List.forall₂_cons_right_iff.1 h
    exact ⟨[], l, after, rfl, .nil, hl, hafter⟩
  | cons s pre ih =>
    obtain ⟨m, ls', hm, hls, rfl⟩ := List.forall₂_cons_right_iff.1 h
    obtain ⟨before, l, after, rfl, hbefore, hl, hafter⟩ := ih hls
    exact ⟨m :: before, l, after, rfl, .cons hm hbefore, hl, hafter⟩

/-- The record `r` of a log, with what stands before it and after it. -/
lemma Written.cut (hw : Written P file head rs) (hr : rs[i]? = some r) : ∃ before l after,
    lines file = before ++ l :: after ∧ OnDisk P before (rs.take i) ∧ OnDisk P after (rs.drop (i + 1)) ∧
      Linked (Links P) GENESIS_HASH (rs.take i) r.prevHash ∧ Links P r.prevHash r r.recordHash ∧
      Linked (Links P) r.recordHash (rs.drop (i + 1)) head := by
  have hsplit : rs = rs.take i ++ r :: rs.drop (i + 1) := by
    obtain ⟨hi, rfl⟩ := List.getElem?_eq_some_iff.1 hr
    rw [← List.drop_eq_getElem_cons hi, List.take_append_drop]
  have hdisk := hw.onDisk
  have hlinked := hw.linked
  rw [hsplit] at hdisk hlinked
  obtain ⟨before, l, after, hlines, hbefore, -, hafter⟩ := hdisk.split
  obtain ⟨m, hpre, hrest⟩ := linked_append_iff.1 hlinked
  obtain ⟨k, ⟨rfl, hhash, rfl⟩, hpost⟩ := linked_cons_iff.1 hrest
  exact ⟨before, l, after, hlines, hbefore, hafter, hpre, ⟨rfl, hhash, rfl⟩, hpost⟩

lemma OnDisk.set {before : List (List Char)} (hbefore : OnDisk P before (rs.take i)) (hr : rs[i]? = some r)
    (l l' : List Char) (after : List (List Char)) :
    (before ++ l :: after).set i l' = before ++ l' :: after ∧ (rs.take i).length = i := by
  obtain ⟨hi, -⟩ := List.getElem?_eq_some_iff.1 hr
  have hlength : (rs.take i).length = i := List.length_take_of_le hi.le
  have hi' : before.length = i := hbefore.length_eq.trans hlength
  refine ⟨?_, hlength⟩
  rw [← hi', List.set_append_right _ _ le_rfl, Nat.sub_self, List.set_cons_zero]

/-- The loop gets to the edited line, if the records before it are faithful. -/
lemma Written.reaches (hw : Written P file head rs) (hr : rs[i]? = some r) (hset : lines file' = (lines file).set i l')
    (hcoll : CollisionFree P (bothInputs rs)) (hfaithful : ∀ s ∈ rs.take i, s.isFaithful = true) :
    ∃ after, OnDisk P after (rs.drop (i + 1)) ∧ verifyChain P file' = verifyLines P (l' :: after) i i r.prevHash := by
  obtain ⟨before, l, after, hlines, hbefore, hafter, hpre, -⟩ := hw.cut hr
  obtain ⟨hlines', hlength⟩ := hbefore.set hr l l' after
  have hcoll' := hcoll.mono (bothInputs_mono (List.take_subset i rs))
  refine ⟨after, hafter, ?_⟩
  rw [verifyChain_eq, hset, hlines, hlines',
    verifyLines_faithful hbefore (fun s hs => hw.isWellKeyed s (List.mem_of_mem_take hs)) hpre hcoll' hfaithful, hlength,
    Nat.zero_add]

/-- It ends before the edited line, if they are not. -/
lemma Written.ends_before (hw : Written P file head rs) (hr : rs[i]? = some r)
    (hset : lines file' = (lines file).set i l') (hcoll : CollisionFree P (bothInputs rs))
    (hnot : ¬ ∀ s ∈ rs.take i, s.isFaithful = true) : ∃ j < i, verifyChain P file' = .ok ⟨false, j, some j⟩ := by
  obtain ⟨before, l, after, hlines, hbefore, hafter, hpre, -⟩ := hw.cut hr
  obtain ⟨hlines', hlength⟩ := hbefore.set hr l l' after
  have hcoll' := hcoll.mono (bothInputs_mono (List.take_subset i rs))
  obtain ⟨j, hj, hloop⟩ := verifyLines_unfaithful hbefore (fun s hs => hw.isWellKeyed s (List.mem_of_mem_take hs)) hpre
    hcoll' hnot (l' :: after) 0 0
  rw [hlength] at hj
  rw [Nat.zero_add] at hloop
  exact ⟨j, hj, by rw [verifyChain_eq, hset, hlines, hlines', hloop]⟩

/-- The edited record fits where it stands. -/
def Fits (P : Platform) (h : String) (r : AuditRecord) : Prop :=
  r.prevHash = h ∧ computeRecordHash P h r = .ok r.recordHash

lemma verifyLines_fits (hl : RecordLine P l' r') (hfits : Fits P h r') (ls : List (List Char)) (i c : ℕ) :
    verifyLines P (l' :: ls) i c h = verifyLines P ls (i + 1) (c + 1) r'.recordHash := by
  rw [verifyLines_record hl.1 hl.2 hfits.2, if_neg]
  rw [not_or, not_not, not_not]
  exact ⟨hfits.1, rfl⟩

lemma verifyLines_not_fits (hP : P.ReadsPlain) (hl : RecordLine P l' r') (hnot : ¬ Fits P h r') (ls : List (List Char))
    (i c : ℕ) : verifyLines P (l' :: ls) i c h = .ok ⟨false, c, some i⟩ := by
  obtain ⟨d, hd⟩ := hash_of_readsPlain hP hl h
  rw [verifyLines_record hl.1 hl.2 hd, if_pos]
  by_contra hgood
  rw [not_or, not_not, not_not] at hgood
  exact hnot ⟨hgood.1, hgood.2 ▸ hd⟩

/-- The edited line is named, if the records before it are faithful and it does not fit. -/
lemma Written.located (hP : P.ReadsPlain) (hw : Written P file head rs) (hr : rs[i]? = some r)
    (hset : lines file' = (lines file).set i l') (hl : RecordLine P l' r') (hcoll : CollisionFree P (bothInputs rs))
    (hfaithful : ∀ s ∈ rs.take i, s.isFaithful = true) (hnot : ¬ Fits P r.prevHash r') :
    verifyChain P file' = .ok ⟨false, i, some i⟩ := by
  obtain ⟨after, -, hloop⟩ := hw.reaches hr hset hcoll hfaithful
  rw [hloop, verifyLines_not_fits hP hl hnot]

/-- **The edited line is named exactly if the records before it are faithful, and it does not fit.** -/
theorem Written.located_iff (hP : P.ReadsPlain) (hw : Written P file head rs) (hr : rs[i]? = some r)
    (hset : lines file' = (lines file).set i l') (hl : RecordLine P l' r') (hcoll : CollisionFree P (bothInputs rs)) :
    (∃ n, verifyChain P file' = .ok ⟨false, n, some i⟩) ↔
      (∀ s ∈ rs.take i, s.isFaithful = true) ∧ ¬ Fits P r.prevHash r' := by
  constructor
  · rintro ⟨n, hbroken⟩
    by_cases hfaithful : ∀ s ∈ rs.take i, s.isFaithful = true
    · obtain ⟨after, -, hloop⟩ := hw.reaches hr hset hcoll hfaithful
      refine ⟨hfaithful, fun hfits => ?_⟩
      rw [hloop, verifyLines_fits hl hfits] at hbroken
      exact absurd (verifyLines_index_le hbroken) (by omega)
    · obtain ⟨j, hj, hbefore⟩ := hw.ends_before hr hset hcoll hfaithful
      rw [hbefore] at hbroken
      simp only [Except.ok.injEq, ChainVerificationResult.mk.injEq, Option.some.injEq] at hbroken
      omega
  · rintro ⟨hfaithful, hnot⟩
    exact ⟨i, hw.located hP hr hset hl hcoll hfaithful hnot⟩

/-- With the hash it had, the record fits exactly if it is the same to `json.dumps`. -/
lemma fits_iff_of_kept (hlink : Links P r.prevHash r r.recordHash) (hkept : r'.recordHash = r.recordHash)
    (hP : P.ReadsPlain) (hl : RecordLine P l' r') (hcoll : CollisionFree P (hashedInputs [r', r])) :
    Fits P r.prevHash r' ↔ r'.payload.toJson = r.payload.toJson := by
  constructor
  · rintro ⟨hprev, hhash⟩
    exact (hash_eq_iff hprev rfl hhash hlink.2.1 hcoll).1 hkept
  · intro hpayload
    obtain ⟨j, hj⟩ := toJson_of_hash hlink.2.1
    obtain ⟨d, hd⟩ := hash_of_readsPlain hP hl r.prevHash
    have hprev : r'.prevHash = r.prevHash := prevHash_of_toJson (hpayload.trans hj) hj
    have hsame : d = r.recordHash := (hash_eq_iff hprev rfl hd hlink.2.1 hcoll).2 hpayload
    exact ⟨hprev, by rw [hd, hsame, hkept]⟩

/-- Where the edited record names the hash before it and carries its own, the next record is named exactly if it is not
faithful, or does not name the new hash. -/
theorem Written.next_located_iff (hw : Written P file head rs) (hr : rs[i]? = some r) {s : AuditRecord}
    (hs : rs[i + 1]? = some s) (hset : lines file' = (lines file).set i l') (hl : RecordLine P l' r')
    (hfits : Fits P r.prevHash r') (hcoll : CollisionFree P (bothInputs rs)) :
    (∃ n, verifyChain P file' = .ok ⟨false, n, some (i + 1)⟩) ↔
      (∀ q ∈ rs.take i, q.isFaithful = true) ∧ (r'.recordHash ≠ r.recordHash ∨ s.isFaithful = false) := by
  by_cases hfaithful : ∀ q ∈ rs.take i, q.isFaithful = true
  · obtain ⟨after, hafter, hloop⟩ := hw.reaches hr hset hcoll hfaithful
    obtain ⟨_, _, _, -, -, -, -, -, hrest⟩ := hw.cut hr
    have hmem : s ∈ rs := List.mem_of_getElem? hs
    have hsplit : rs.drop (i + 1) = s :: rs.drop (i + 2) := by
      obtain ⟨hi, rfl⟩ := List.getElem?_eq_some_iff.1 hs
      exact List.drop_eq_getElem_cons hi
    rw [hsplit] at hafter hrest
    obtain ⟨m, after', hm, -, rfl⟩ := List.forall₂_cons_right_iff.1 hafter
    obtain ⟨k, hlink, -⟩ := linked_cons_iff.1 hrest
    have hkey := hw.isWellKeyed s hmem
    rw [hloop, verifyLines_fits hl hfits, and_iff_right hfaithful]
    by_cases hsame : r'.recordHash = r.recordHash
    · -- the next record names the hash all the same
      rw [hsame, verifyLines_reread hm hkey hlink (hcoll.mono (subset_bothInputs hmem)), Bool.eq_false_iff]
      by_cases hnext : s.isFaithful = true
      · rw [if_pos hnext]
        refine iff_of_false (fun ⟨n, hbroken⟩ => absurd (verifyLines_index_le hbroken) (by omega)) ?_
        exact fun hor => hor.elim (fun hne => hne rfl) fun hnot => hnot hnext
      · rw [if_neg hnext]
        exact iff_of_true ⟨_, rfl⟩ (Or.inr hnext)
    · obtain ⟨d, hd⟩ := hash_reread hkey hlink.2.1 r'.recordHash
      have hne : s.reread.prevHash ≠ r'.recordHash := fun heq => hsame (heq.symm.trans hlink.1)
      rw [verifyLines_record hm.1 hm.2 hd, if_pos (Or.inl hne)]
      exact iff_of_true ⟨_, rfl⟩ (Or.inl hsame)
  · obtain ⟨j, hj, hbroken⟩ := hw.ends_before hr hset hcoll hfaithful
    refine iff_of_false (fun ⟨n, heq⟩ => ?_) fun hboth => hfaithful hboth.1
    rw [hbroken] at heq
    simp only [Except.ok.injEq, ChainVerificationResult.mk.injEq, Option.some.injEq] at heq
    omega

end Edit

/-- **An edited record is located exactly if the records before it are faithful**, and the edit is one to `json.dumps`.
The record keeps its hash; or it names another hash before it; or its own hash is computed anew, so that the next record
is the broken one. -/
theorem edit_located_iff {P : Platform} (hP : P.Stores) (hread : P.ReadsPlain) {sessions : List Session}
    (hkeys : ∀ s ∈ sessions, ∀ r ∈ s.records, r.isWellKeyed = true) {file : Option String} {rs : List AuditRecord}
    (hrun : runSessions P none sessions = .ok (file, rs)) {i : ℕ} {r : AuditRecord} (hr : rs[i]? = some r)
    {file' : Option String} {l' : List Char} (hset : lines file' = (lines file).set i l') {r' : AuditRecord}
    (hl : RecordLine P l' r') (hcoll : CollisionFree P (bothInputs rs ∪ hashedInputs [r'])) :
    (r'.recordHash = r.recordHash →
      (verifyChain P file' = .ok ⟨false, i, some i⟩ ↔
        (∀ q ∈ rs.take i, q.isFaithful = true) ∧ r'.payload.toJson ≠ r.payload.toJson)) ∧
    (r'.prevHash ≠ r.prevHash →
      ((∃ n, verifyChain P file' = .ok ⟨false, n, some i⟩) ↔ ∀ q ∈ rs.take i, q.isFaithful = true)) ∧
    ∀ s, rs[i + 1]? = some s → r'.prevHash = r.prevHash → computeRecordHash P r'.prevHash r' = .ok r'.recordHash →
      ((∃ n, verifyChain P file' = .ok ⟨false, n, some (i + 1)⟩) ↔
        (∀ q ∈ rs.take i, q.isFaithful = true) ∧
          (r'.payload.toJson ≠ r.payload.toJson ∨ s.isFaithful = false)) := by
  obtain ⟨head, hw⟩ := (written_fresh P).sessions hP.dicts hkeys hrun
  rw [List.nil_append] at hw
  obtain ⟨_, _, _, -, -, -, -, hlink, -⟩ := hw.cut hr
  have hcoll₁ : CollisionFree P (bothInputs rs) := hcoll.mono Set.subset_union_left
  have hcoll₂ : CollisionFree P (hashedInputs [r', r]) := by
    refine hcoll.mono ?_
    rintro b ⟨q, hq, hb⟩
    rcases List.mem_cons.1 hq with rfl | hq
    · exact Or.inr ⟨q, List.mem_singleton_self q, hb⟩
    · obtain rfl := List.mem_singleton.1 hq
      exact Or.inl (subset_bothInputs (List.mem_of_getElem? hr) ⟨q, by simp, hb⟩)
  refine ⟨fun hkept => ?_, fun hprev => ?_, fun s hs hprev hhash => ?_⟩
  · rw [ne_eq, ← fits_iff_of_kept hlink hkept hread hl hcoll₂]
    exact ⟨fun hbroken => (hw.located_iff hread hr hset hl hcoll₁).1 ⟨i, hbroken⟩,
      fun hboth => hw.located hread hr hset hl hcoll₁ hboth.1 hboth.2⟩
  · rw [hw.located_iff hread hr hset hl hcoll₁]
    exact and_iff_left fun hfits => hprev hfits.1
  · have hfits : Fits P r.prevHash r' := ⟨hprev, hprev ▸ hhash⟩
    rw [hw.next_located_iff hr hs hset hl hfits hcoll₁, ne_eq, ne_eq, hash_eq_iff hprev rfl hfits.2 hlink.2.1 hcoll₂]

/-! ### Two logs -/

/-- The edit. -/
def edited (r : AuditRecord) : AuditRecord := { r with timestamp := "2025-01-01T00:00:00Z" }

/-- The digests of two records, and of the second one edited. -/
def editedSha256 : Sha256 :=
  sha256Of
    [(hashInput GENESIS_HASH sampleRecord, sampleHash),
      (hashInput sampleHash { sampleRecord with prevHash := sampleHash },
        "21d85f10bbc5848794e815d908d91205dbce33fa0965edd253714c218f5fe577")]
    "ddd0508c7d6606170716e6d4ee6911d688fe8f93e136e213e0376f0789ba8512" (by decide +kernel)

/-- The digests of two records, of the first one as it comes back, and of the second one edited. -/
def quotaSha256 : Sha256 :=
  sha256Of
    [(hashInput GENESIS_HASH (quotaRecord 2 10), outOfOrderHash),
      (hashInput GENESIS_HASH (quotaRecord 2 10).reread, resortedHash),
      (hashInput outOfOrderHash { sampleRecord with prevHash := outOfOrderHash },
        "12238cd3bf1597f0c449fc4161d312d6b7c5b5bd8c04bb9d5b22d4c66c9da31e")]
    "c897ee6ed709793370f5edca6aaaf17d10d846294565e1861f27fb27681cdf19" (by decide +kernel)

/-- A digest tells the inputs in the table from all others. -/
lemma collisionFree_sha256Of {table : List (Except Exc ByteArray × String)} {other : String}
    {hlength : ∀ d ∈ other :: table.map Prod.snd, d.toList.length = 64} (hnodup : (other :: table.map Prod.snd).Nodup)
    {inputs : Set ByteArray} (last : Except Exc ByteArray)
    (hinputs : ∀ b ∈ inputs, last = .ok b ∨ ∃ input d, (input, d) ∈ table ∧ input = .ok b) :
    CollisionFree (storingPlatform (sha256Of table other hlength)) inputs := by
  intro b hb b' hb' heq
  have hdigest : (sha256Of table other hlength).hexdigest b = (sha256Of table other hlength).hexdigest b' := heq
  rcases hinputs b hb with hlast | ⟨input, d, hmem, hinput⟩
  · rcases hinputs b' hb' with hlast' | ⟨input, d, hmem, hinput⟩
    · exact Except.ok.inj (hlast.symm.trans hlast')
    · exact (sha256Of_inj hnodup hmem hinput hdigest.symm).symm
  · exact sha256Of_inj hnodup hmem hinput hdigest

lemma editedSha256_first {b : ByteArray} (hb : hashInput GENESIS_HASH sampleRecord = .ok b) :
    editedSha256.hexdigest b = sampleHash := by
  simp [editedSha256, sha256Of, hb, Except.map]

lemma quotaSha256_first {b : ByteArray} (hb : hashInput GENESIS_HASH (quotaRecord 2 10) = .ok b) :
    quotaSha256.hexdigest b = outOfOrderHash := by
  simp [quotaSha256, sha256Of, hb, Except.map]

lemma edited_toJson_ne {r : AuditRecord} (hr : r.timestamp = "2024-01-01T00:00:00Z") {j : Json}
    (hj : r.payload.toJson = some j) : (edited r).payload.toJson ≠ r.payload.toJson := by
  intro heq
  have hmem := str_mem_fields hj (heq.trans hj) (k := "timestamp") (t := r.timestamp) (by simp [AuditRecord.fields])
  simp [AuditRecord.fields, edited, hr, PyVal.ofItems, PyVal.ofItems?] at hmem

lemma runSession_none {P : Platform} {records rs : List AuditRecord} {file : Option String}
    {logger : HashChainedJSONLLogger} (hrun : freshLogger.appendAll P none records = .ok (file, logger, rs)) :
    runSessions P none [⟨true, [], records⟩] = .ok (file, rs) := by
  have hfresh : HashChainedJSONLLogger.init P none true [] = .ok freshLogger := rfl
  simp only [runSessions, runSession, hfresh, hrun, bind, Except.bind, List.append_nil]

/-- The log of a record and `sampleRecord`, the second line of which is edited. -/
lemma exists_second_edited {P : Platform} (hP : P.Stores) {first s₁ : AuditRecord} {file₁ : Option String}
    {logger₁ : HashChainedJSONLLogger} (hstorable : first.isStorable = true)
    (happ₁ : freshLogger.append P none first = .ok (file₁, logger₁, s₁)) :
    ∃ file r file' line₁ l', runSessions P none [⟨true, [], [first, sampleRecord]⟩] = .ok (file, [s₁, r]) ∧
      r = { sampleRecord with prevHash := s₁.recordHash, recordHash := r.recordHash } ∧
      lines file' = [line₁, l'] ∧ RecordLine P line₁ s₁.reread ∧ lines file' = (lines file).set 1 l' ∧
      RecordLine P l' (edited r) ∧ (edited r).payload.toJson ≠ r.payload.toJson := by
  obtain ⟨file₂, logger₂, r, happ₂⟩ := append_succeeds hP logger₁ file₁ sampleRecord_stable
  obtain ⟨hterm₁, line₁, hlines₁, hl₁⟩ := append_writes hP (Or.inl rfl : FileTerminated none) hstorable happ₁
  obtain ⟨-, -, hhead₁⟩ := append_links happ₁
  obtain ⟨-, line₂, hlines₂, -⟩ := append_writes hP hterm₁ rfl happ₂
  obtain ⟨hprev₂, hhash₂, -⟩ := append_links happ₂
  obtain ⟨j, hj⟩ := toJson_of_hash hhash₂
  have hr : r = { sampleRecord with prevHash := s₁.recordHash, recordHash := r.recordHash } := by
    refine (append_record happ₂).trans ?_
    rw [hprev₂, ← hhead₁]
  have hnative : r.isNative = true := by
    rw [hr]
    rfl
  -- the edited line stands where the second one did
  have hnative' : (edited r).isNative = true := hnative
  obtain ⟨line, -, hline, hread⟩ := hP.roundTrips (edited r) hnative'
  have hlines' := (lines_append hterm₁ hline).1
  rw [show lines file₁ = [line₁] from hlines₁] at hlines'
  refine ⟨file₂, r, _, line₁, line.toList, runSession_none (appendAll_cons happ₁ (appendAll_singleton happ₂)), hr, hlines',
    hl₁, ?_, ⟨?_, ?_⟩, edited_toJson_ne (by rw [hr]; rfl) hj⟩
  · rw [hlines₂, hlines₁, hlines']
    rfl
  · rw [hline.strip_eq]
    exact hline.ne_nil
  · rw [readLine, hline.strip_eq, String.ofList_toList]
    exact hread

/-- The second of two records, edited. -/
theorem edit_located_iff_second : ∃ file rs file' l' r r',
    runSessions (storingPlatform editedSha256) none [⟨true, [], [sampleRecord, sampleRecord]⟩] = .ok (file, rs) ∧
      rs[1]? = some r ∧ lines file' = (lines file).set 1 l' ∧ RecordLine (storingPlatform editedSha256) l' r' ∧
      r'.payload.toJson ≠ r.payload.toJson ∧ r'.recordHash = r.recordHash ∧
      verifyChain (storingPlatform editedSha256) file' = .ok ⟨false, 1, some 1⟩ := by
  have hP := storingPlatform_stores editedSha256
  have hread := storingPlatform_readsPlain editedSha256
  obtain ⟨file₁, logger₁, s₁, happ₁⟩ := append_succeeds hP freshLogger none sampleRecord_stable
  obtain ⟨file, r, file', line₁, l', hrun, hr, -, -, hset, hl', hne⟩ :=
    exists_second_edited hP (by decide +kernel) happ₁
  obtain ⟨hprev₁, hhash₁, -⟩ := append_links happ₁
  have hs₁ : s₁ = { sampleRecord with recordHash := s₁.recordHash } := by
    refine (append_record happ₁).trans ?_
    rw [hprev₁]
    rfl
  -- the first record has its real hash
  rw [hs₁] at hhash₁
  obtain ⟨b, hb, hdigest⟩ := hashInput_of_hash hhash₁
  have hhead : sampleHash = s₁.recordHash := (editedSha256_first hb).symm.trans hdigest
  rw [← hhead] at hs₁ hr
  have hnative₁ : s₁.isNative = true := by
    rw [hs₁]
    rfl
  have hnative : r.isNative = true := by
    rw [hr]
    rfl
  refine ⟨file, [s₁, r], file', l', r, edited r, hrun, rfl, hset, hl', hne, rfl, ?_⟩
  refine ((edit_located_iff (r := r) hP hread ?_ hrun rfl hset hl' ?_).1 rfl).2 ⟨?_, hne⟩
  · simp only [List.forall_mem_singleton]
    decide +kernel
  · refine collisionFree_sha256Of (by decide +kernel) (hashInput (edited r).prevHash (edited r)) ?_
    rintro b (⟨s, hs, hb⟩ | ⟨s, hs, hb⟩)
    · simp only [List.map_cons, List.map_nil, reread_of_isNative_record hnative, reread_of_isNative_record hnative₁,
        List.mem_append, List.mem_cons, List.not_mem_nil, or_false, or_self] at hs
      rcases hs with hs | hs
      · rw [hs, hs₁] at hb
        exact Or.inr ⟨_, _, List.mem_cons_self, hb⟩
      · rw [hs, hr] at hb
        exact Or.inr ⟨_, _, List.mem_cons_of_mem _ List.mem_cons_self, hb⟩
    · obtain rfl := List.mem_singleton.1 hs
      exact Or.inl hb
  · intro s hs
    obtain rfl := List.mem_singleton.1 hs
    rw [hs₁]
    decide +kernel

/-- The second record of a log is edited, the first record of which does not come back as it was hashed. -/
theorem edit_blamed_on_another : ∃ file rs file' l' r r',
    runSessions (storingPlatform quotaSha256) none [⟨true, [], [quotaRecord 2 10, sampleRecord]⟩] = .ok (file, rs) ∧
      rs[1]? = some r ∧ lines file' = (lines file).set 1 l' ∧ RecordLine (storingPlatform quotaSha256) l' r' ∧
      r'.payload.toJson ≠ r.payload.toJson ∧ r'.recordHash = r.recordHash ∧
      CollisionFree (storingPlatform quotaSha256) (bothInputs rs ∪ hashedInputs [r']) ∧
      verifyChain (storingPlatform quotaSha256) file' = .ok ⟨false, 0, some 0⟩ := by
  have hP := storingPlatform_stores quotaSha256
  obtain ⟨file₁, logger₁, d, happ₁, -⟩ :=
    quota_logged hP ⟨fun _ => "", fun _ => false, fun _ _ => rfl⟩ 2 10 (by decide +kernel) (by decide +kernel)
  obtain ⟨file, r, file', line₁, l', hrun, hr, hlines', hl₁, hset, hl', hne⟩ :=
    exists_second_edited hP (by decide +kernel) happ₁
  -- the first record has its real hash
  obtain ⟨-, hhash₁, -⟩ := append_links happ₁
  obtain ⟨b, hb, hdigest⟩ := hashInput_of_hash hhash₁
  obtain rfl : outOfOrderHash = d := (quotaSha256_first hb).symm.trans hdigest
  have hnative : r.isNative = true := by
    rw [hr]
    rfl
  have hcoll : CollisionFree (storingPlatform quotaSha256)
      (bothInputs [{ quotaRecord 2 10 with recordHash := outOfOrderHash }, r] ∪ hashedInputs [edited r]) := by
    refine collisionFree_sha256Of (by decide +kernel) (hashInput (edited r).prevHash (edited r)) ?_
    rintro b (⟨s, hs, hb⟩ | ⟨s, hs, hb⟩)
    · simp only [List.map_cons, List.map_nil, reread_of_isNative_record hnative, List.mem_append, List.mem_cons,
        List.not_mem_nil, or_false] at hs
      rcases hs with (rfl | hs) | rfl | hs
      · exact Or.inr ⟨_, _, List.mem_cons_self, hb⟩
      · rw [hs, hr] at hb
        exact Or.inr ⟨_, _, List.mem_cons_of_mem _ (List.mem_cons_of_mem _ List.mem_cons_self), hb⟩
      · exact Or.inr ⟨_, _, List.mem_cons_of_mem _ List.mem_cons_self, hb⟩
      · rw [hs, hr] at hb
        exact Or.inr ⟨_, _, List.mem_cons_of_mem _ (List.mem_cons_of_mem _ List.mem_cons_self), hb⟩
    · obtain rfl := List.mem_singleton.1 hs
      exact Or.inl hb
  refine ⟨file, _, file', l', r, edited r, hrun, rfl, hset, hl', hne, rfl, hcoll, ?_⟩
  have hkeys : ({ quotaRecord 2 10 with recordHash := outOfOrderHash } : AuditRecord).isWellKeyed = true := by decide +kernel
  have hnot : ¬ ({ quotaRecord 2 10 with recordHash := outOfOrderHash } : AuditRecord).isFaithful = true := by
    decide +kernel
  have hcoll₁ := hcoll.mono ((subset_bothInputs List.mem_cons_self).trans Set.subset_union_left)
  rw [verifyChain_eq, hlines']
  exact (verifyLines_reread hl₁ hkeys (append_links happ₁) hcoll₁ [l'] 0 0).trans (if_neg hnot)

end Aimw.Audit
