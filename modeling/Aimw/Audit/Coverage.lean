import Aimw.Audit.Parsed
import Aimw.Audit.Verdict

/-!
# What the hash covers of a line

`verify_chain` hashes the record that pydantic reads, and not the line.

* `Written.noticed_iff` — the edit of one line of a log, for any reader;
* `edit_noticed_iff` — the texts that can stand in the place of a line without being noticed.
-/

namespace Aimw.Audit

open Lib

/-! ## The dump and the payload -/

/-- Objects with the same keys are the same to `json.dumps` if their values are. -/
lemma toJson_ofItems_eq_iff {items items' : List (String × PyVal)} {j : Json}
    (hkeys : items.map Prod.fst = items'.map Prod.fst) (hnodup : (items.map Prod.fst).Nodup)
    (hj : (PyVal.ofItems items').toJson = some j) : (PyVal.ofItems items).toJson = (PyVal.ofItems items').toJson ↔
      List.Forall₂ (fun p q => p.1 = q.1 ∧ p.2.toJson = q.2.toJson) items items' := by
  refine ⟨fun h => ?_, toJson_ofItems_congr⟩
  have hvalues : ∀ k v v', (k, v) ∈ items → (k, v') ∈ items' → v.toJson = v'.toJson := by
    intro k v v' hv hv'
    obtain ⟨x, hx, hjson⟩ := exists_mem_of_toJson (h.trans hj) hj hv'
    have hsame : (k, v) = (k, x) := List.inj_on_of_nodup_map hnodup hv hx rfl
    rw [(Prod.mk.inj hsame).2, hjson]
  clear h hj hnodup
  induction items generalizing items' with
  | nil =>
    rw [List.map_nil, eq_comm, List.map_eq_nil_iff] at hkeys
    rw [hkeys]
    exact .nil
  | cons p items ih =>
    cases items' with
    | nil => cases hkeys
    | cons q items' =>
      obtain ⟨hkey, hkeys⟩ := List.cons.inj hkeys
      refine .cons ⟨hkey, hvalues p.1 p.2 q.2 List.mem_cons_self ?_⟩ (ih hkeys fun k v v' hv hv' => ?_)
      · rw [hkey]
        exact List.mem_cons_self
      · exact hvalues k v v' (List.mem_cons_of_mem _ hv) (List.mem_cons_of_mem _ hv')

lemma exists_toJson {items : List (String × PyVal)} (h : ∀ p ∈ items, ∃ k, p.2.toJson = some k) :
    ∃ j, (PyVal.ofItems items).toJson = some j := by
  have hitems : ∃ ms, toJsonItems (items.map fun p => (PyKey.str p.1, p.2)) = some ms ∧
      ∀ m ∈ ms, m.1.asStr.isSome = true := by
    induction items with
    | nil => exact ⟨[], rfl, by simp⟩
    | cons p items ih =>
      obtain ⟨⟨k, hk⟩, h⟩ := List.forall_mem_cons.1 h
      obtain ⟨ms, hms, hkeys⟩ := ih h
      refine ⟨(.str p.1, k) :: ms, ?_, List.forall_mem_cons.2 ⟨rfl, hkeys⟩⟩
      rw [List.map_cons, toJsonItems, hk, hms]
      rfl
  obtain ⟨ms, hms, hkeys⟩ := hitems
  obtain ⟨sorted, hsorted⟩ := Option.isSome_iff_exists.1 (sortItems_isSome hkeys)
  exact ⟨.obj sorted, by rw [PyVal.ofItems, PyVal.toJson, hms, Option.bind_some, hsorted]; rfl⟩

lemma exists_toJson_dump {r : AuditRecord} {j : Json} (hj : r.payload.toJson = some j) :
    ∃ k, (PyVal.ofItems r.dump).toJson = some k := by
  refine exists_toJson (List.forall_mem_append.2 ⟨fun p hp => exists_toJson_of_mem hj hp, ?_⟩)
  exact List.forall_mem_singleton.2 ⟨_, rfl⟩

/-- A record is its payload and its hash. -/
lemma toJson_dump_iff {r r' : AuditRecord} {j : Json} (hj : r.payload.toJson = some j) :
    (PyVal.ofItems r'.dump).toJson = (PyVal.ofItems r.dump).toJson ↔
      r'.payload.toJson = r.payload.toJson ∧ r'.recordHash = r.recordHash := by
  obtain ⟨k, hk⟩ := exists_toJson_dump hj
  have hnodup : (r'.dump.map Prod.fst).Nodup := by simp [AuditRecord.dump, AuditRecord.fields]
  have hpayload : r'.payload.toJson = r.payload.toJson ↔
      List.Forall₂ (fun p q => p.1 = q.1 ∧ p.2.toJson = q.2.toJson) r'.fields r.fields :=
    toJson_ofItems_eq_iff rfl (by simp [AuditRecord.fields]) hj
  have hdump : (PyVal.ofItems r'.dump).toJson = (PyVal.ofItems r.dump).toJson ↔
      List.Forall₂ (fun p q => p.1 = q.1 ∧ p.2.toJson = q.2.toJson) r'.dump r.dump := toJson_ofItems_eq_iff rfl hnodup hk
  rw [hdump, hpayload]
  constructor
  · intro h
    refine ⟨List.forall₂_take 8 h, ?_⟩
    obtain ⟨⟨-, hhash⟩, -⟩ := List.forall₂_cons.1 (List.forall₂_drop 8 h)
    exact Json.str.inj (Option.some.inj hhash)
  · rintro ⟨hfields, hhash⟩
    refine List.rel_append hfields (.cons ⟨rfl, ?_⟩ .nil)
    rw [hhash]

/-! ## The loop over the other lines -/

/-- `verify_chain` does not return `valid=True` with `n` records. -/
def Noticed (P : Platform) (file : Option String) (n : ℕ) : Prop :=
  ∀ res, verifyChain P file = .ok res → ¬ (res.valid = true ∧ res.recordCount = n)

section Loop

variable {P : Platform} {file file' : Option String} {head : String} {rs : List AuditRecord} {r : AuditRecord}
  {l' : List Char} {i n : ℕ}

lemma noticed_of_error {e : Exc} (h : verifyChain P file = .error e) : Noticed P file n := by
  intro res hres
  cases h.symm.trans hres

lemma noticed_of_ok {v : Bool} {c : ℕ} {f : Option ℕ} (h : verifyChain P file = .ok ⟨v, c, f⟩) :
    Noticed P file n ↔ v = false ∨ c ≠ n := by
  constructor
  · intro hnoticed
    rw [← Bool.not_eq_true, ← not_and_or]
    exact hnoticed _ h
  · rintro hor res hres
    obtain rfl := Except.ok.inj (h.symm.trans hres)
    rwa [not_and_or, Bool.not_eq_true]

/-- Without one of its lines, the file does not have as many records. -/
lemma noticed_of_blank (hset : lines file' = (lines file).set i l') (hi : i < (lines file).length)
    (hblank : strip l' = []) : Noticed P file' (lines file).length := by
  rintro ⟨_, c, f⟩ hres ⟨rfl, rfl⟩
  obtain ⟨rs', -, hreads, -, hcount, -⟩ := verify_accepts_iff.1 hres
  have hlength : (lines file').length = (lines file).length := by rw [hset, List.length_set]
  have hmem : l' ∈ lines file' := by
    rw [hset]
    exact List.mem_set hi l'
  exact hreads.length_eq_iff.1 (hcount.symm.trans hlength.symm) l' hmem hblank

/-- The edit is noticed, if another record is not faithful or the new record does not fit. -/
theorem Written.noticed_iff (hP : P.ReadsPlain) (hw : Written P file head rs) (hr : rs[i]? = some r)
    (hset : lines file' = (lines file).set i l') (hcoll : CollisionFree P (bothInputs rs))
    (hkept : ∀ r', RecordLine P l' r' → r'.recordHash = r.recordHash) :
    Noticed P file' rs.length ↔ (∃ s ∈ rs.eraseIdx i, s.isFaithful = false) ∨
      ¬ ∃ r', RecordLine P l' r' ∧ Fits P r.prevHash r' := by
  obtain ⟨hi, -⟩ := List.getElem?_eq_some_iff.1 hr
  have hlength : (lines file).length = rs.length := hw.onDisk.length_eq
  have hothers : (∃ s ∈ rs.eraseIdx i, s.isFaithful = false) ↔
      ¬ ((∀ s ∈ rs.take i, s.isFaithful = true) ∧ ∀ s ∈ rs.drop (i + 1), s.isFaithful = true) := by
    rw [← List.forall_mem_append, ← List.eraseIdx_eq_take_drop_succ]
    simp
  rw [hothers]
  by_cases hfaithful : ∀ s ∈ rs.take i, s.isFaithful = true
  · obtain ⟨after, hafter, hloop⟩ := hw.reaches hr hset hcoll hfaithful
    by_cases hblank : strip l' = []
    · refine iff_of_true ?_ (Or.inr fun ⟨r', hl, _⟩ => hl.1 hblank)
      exact hlength ▸ noticed_of_blank hset (hlength ▸ hi) hblank
    cases hread : readLine P l' with
    | error e =>
      refine iff_of_true (noticed_of_error (hloop.trans (verifyLines_unread hblank hread ..))) (Or.inr ?_)
      rintro ⟨r', hl, -⟩
      cases hread.symm.trans hl.2
    | ok r' =>
      have hl : RecordLine P l' r' := ⟨hblank, hread⟩
      by_cases hfits : Fits P r.prevHash r'
      · -- the line passes, and the rest decides
        obtain ⟨_, _, _, -, -, -, -, -, hrest⟩ := hw.cut hr
        have hkeys : ∀ s ∈ rs.drop (i + 1), s.isWellKeyed = true := fun s hs => hw.isWellKeyed s (List.mem_of_mem_drop hs)
        have hcoll' := hcoll.mono (bothInputs_mono (List.drop_subset (i + 1) rs))
        rw [verifyLines_fits hl hfits, hkept r' hl, ← List.append_nil after] at hloop
        by_cases hlater : ∀ s ∈ rs.drop (i + 1), s.isFaithful = true
        · have hcount : i + 1 + (rs.drop (i + 1)).length = rs.length := by
            rw [List.length_drop]
            omega
          rw [verifyLines_faithful hafter hkeys hrest hcoll' hlater, hcount] at hloop
          rw [noticed_of_ok hloop]
          refine iff_of_false ?_ (not_or.2 ⟨not_not.2 ⟨hfaithful, hlater⟩, not_not.2 ⟨r', hl, hfits⟩⟩)
          simp
        · obtain ⟨j, -, hbroken⟩ := verifyLines_unfaithful hafter hkeys hrest hcoll' hlater [] (i + 1) (i + 1)
          refine iff_of_true ((noticed_of_ok (hloop.trans hbroken)).2 (Or.inl rfl)) (Or.inl fun hall => hlater hall.2)
      · refine iff_of_true ((noticed_of_ok (hloop.trans (verifyLines_not_fits hP hl hfits after i i))).2 (Or.inl rfl))
          (Or.inr ?_)
        rintro ⟨s, hs, hfits'⟩
        obtain rfl := Except.ok.inj (hread.symm.trans hs.2)
        exact hfits hfits'
  · obtain ⟨j, -, hbroken⟩ := hw.ends_before hr hset hcoll hfaithful
    exact iff_of_true ((noticed_of_ok hbroken).2 (Or.inl rfl)) (Or.inl fun hall => hfaithful hall.1)

end Loop

lemma Platform.Validates.readsPlain {P : Platform} {loads : String → Option Json} {now : String}
    (hval : P.Validates loads now) : P.ReadsPlain := by
  intro line r hread
  obtain ⟨j, hj, hr⟩ := (hval.reads line r).1 hread
  exact isPlain_recordOf (isPlain_decodeVal _ (intsFit_covered now (hval.fits line j hj))) hr

/-- The inputs that are hashed when the line is read. -/
def readInputs (P : Platform) (l : List Char) : Set ByteArray :=
  {b | ∃ r, RecordLine P l r ∧ hashInput r.prevHash r = .ok b}

/-- **Which edits are noticed**: those of a log with another record that is not faithful, and those after which what is
covered of the line is not the record that was hashed. -/
theorem edit_noticed_iff {P : Platform} (hP : P.StoresDicts) {loads : String → Option Json} {now : String}
    (hval : P.Validates loads now) {sessions : List Session}
    (hkeys : ∀ s ∈ sessions, ∀ r ∈ s.records, r.isWellKeyed = true) {file : Option String} {rs : List AuditRecord}
    (hrun : runSessions P none sessions = .ok (file, rs)) {i : ℕ} {r : AuditRecord} (hr : rs[i]? = some r)
    {file' : Option String} {l' : List Char} (hset : lines file' = (lines file).set i l')
    (hkept : ∀ r', RecordLine P l' r' → r'.recordHash = r.recordHash)
    (hcoll : CollisionFree P (bothInputs rs ∪ readInputs P l')) :
    Noticed P file' rs.length ↔ (∃ s ∈ rs.eraseIdx i, s.isFaithful = false) ∨
      ∀ j, loads (String.ofList (strip l')) = some j →
        (decodeVal (covered now j)).toJson ≠ (PyVal.ofItems r.dump).toJson := by
  obtain ⟨head, hw⟩ := (written_fresh P).sessions hP hkeys hrun
  rw [List.nil_append] at hw
  obtain ⟨_, _, _, -, -, -, -, hlink, -⟩ := hw.cut hr
  obtain ⟨k, hk⟩ := toJson_of_hash hlink.2.1
  obtain ⟨m, hm⟩ := exists_toJson_dump hk
  have hfits : ∀ r', RecordLine P l' r' →
      (Fits P r.prevHash r' ↔ (PyVal.ofItems r'.dump).toJson = (PyVal.ofItems r.dump).toJson) := by
    intro r' hl
    have hcoll' : CollisionFree P (hashedInputs [r', r]) := by
      refine hcoll.mono ?_
      rintro b ⟨q, hq, hb⟩
      rcases List.mem_cons.1 hq with rfl | hq
      · exact Or.inr ⟨q, hl, hb⟩
      · obtain rfl := List.mem_singleton.1 hq
        exact Or.inl (subset_bothInputs (List.mem_of_getElem? hr) ⟨q, by simp, hb⟩)
    rw [fits_iff_of_kept hlink (hkept r' hl) hval.readsPlain hl hcoll', toJson_dump_iff hk,
      and_iff_left (hkept r' hl)]
  rw [hw.noticed_iff hval.readsPlain hr hset (hcoll.mono Set.subset_union_left) hkept]
  refine or_congr_right ⟨fun hnot j hj hsame => hnot ?_, ?_⟩
  · obtain ⟨r', hr'⟩ := exists_record hsame hm
    have hblank : strip l' ≠ [] := by
      intro hblank
      rw [hblank, show String.ofList [] = "" from rfl, hval.empty] at hj
      cases hj
    have hl : RecordLine P l' r' := ⟨hblank, (hval.reads _ r').2 ⟨j, hj, hr'⟩⟩
    exact ⟨r', hl, (hfits r' hl).2 (by rw [← decodeVal_covered hr', hsame])⟩
  · rintro hdiffers ⟨r', hl, hfits'⟩
    obtain ⟨j, hj, hr'⟩ := (hval.reads _ r').1 hl.2
    exact hdiffers j hj (by rw [decodeVal_covered hr', (hfits r' hl).1 hfits'])

/-! ## A platform that validates -/

/-- The platform that reads compact texts so, with `sha` for SHA-256, when the clock shows `now`. -/
def validatingPlatform (sha : Sha256) (now : String) : Platform where
  sha256 := sha
  modelDumpJson := (storingPlatform sha).modelDumpJson
  modelValidateJson text :=
    match (loadsText text).bind fun j => recordOf (decodeVal (covered now j)) with
    | some r => .ok r
    | none => .error (.exception "validation error")

lemma validatingPlatform_validates (sha : Sha256) (now : String) :
    (validatingPlatform sha now).Validates loadsText now where
  empty := rfl
  fits _ _ := intsFit_of_loadsText
  reads text r := by
    rw [← Option.bind_eq_some_iff]
    simp only [validatingPlatform]
    cases (loadsText text).bind fun j => recordOf (decodeVal (covered now j)) <;> simp

lemma exists_key_of_mem {items : List (PyKey × PyVal)} {t : String}
    (h : t ∈ (encodeItems (rereadItems items)).map Prod.fst) : ∃ p ∈ items, keyText p.1 = t := by
  induction items with
  | nil => cases h
  | cons p items ih =>
    rw [rereadItems] at h
    split_ifs at h
    · obtain ⟨q, hq, hqt⟩ := ih h
      exact ⟨q, List.mem_cons_of_mem _ hq, hqt⟩
    · rw [encodeItems, List.map_cons] at h
      rcases List.mem_cons.1 h with rfl | h
      · exact ⟨p, List.mem_cons_self, rfl⟩
      · obtain ⟨q, hq, hqt⟩ := ih h
        exact ⟨q, List.mem_cons_of_mem _ hq, hqt⟩

mutual
/-- What comes back repeats no key. -/
lemma lastWins_encodeVal (x : PyVal) (h : x.isStorable = true) : lastWins (encodeVal x.reread) = encodeVal x.reread := by
  match x with
  | .none => rfl
  | .bool _ => rfl
  | .int _ => rfl
  | .float (.finite _) => rfl
  | .float .nan => rfl
  | .float .inf => rfl
  | .float .negInf => rfl
  | .str _ => rfl
  | .list xs =>
    rw [PyVal.reread, encodeVal, lastWins, lastWinsList_encodeList xs (by simpa only [PyVal.isStorable] using h)]
  | .dict items =>
    rw [PyVal.reread, encodeVal, lastWins, lastWinsMembers_encodeItems items (by simpa only [PyVal.isStorable] using h)]
  | .object _ => rfl
lemma lastWinsList_encodeList (xs : List PyVal) (h : areStorable xs = true) :
    lastWinsList (encodeList (rereadList xs)) = encodeList (rereadList xs) := by
  match xs with
  | [] => rfl
  | x :: xs =>
    simp only [areStorable, Bool.and_eq_true] at h
    rw [rereadList, encodeList, lastWinsList, lastWins_encodeVal x h.1, lastWinsList_encodeList xs h.2]
lemma lastWinsMembers_encodeItems (items : List (PyKey × PyVal)) (h : areStorableItems items = true) :
    lastWinsMembers (encodeItems (rereadItems items)) = encodeItems (rereadItems items) := by
  match items with
  | [] => rfl
  | (k, x) :: items =>
    simp only [areStorableItems, Bool.and_eq_true] at h
    obtain ⟨⟨hnew, hx⟩, hitems⟩ := h
    rw [rereadItems]
    split_ifs with hnan
    · exact lastWinsMembers_encodeItems items hitems
    · have hnot : keyText k ∉ (encodeItems (rereadItems items)).map Prod.fst := by
        intro hmem
        obtain ⟨p, hp, htext⟩ := exists_key_of_mem hmem
        have hclash : p.1.clashes k = false := by
          rw [Bool.not_eq_true', List.any_eq_false] at hnew
          exact Bool.eq_false_iff.2 (hnew.2 p hp)
        rw [PyKey.clashes, htext, beq_self_eq_true, Bool.true_and, Bool.not_eq_false', Bool.and_eq_true] at hclash
        exact hnan (by rw [hclash.2, Bool.true_and]; exact List.any_eq_true.2 ⟨p, hp, hclash.1⟩)
      rw [encodeItems, lastWinsMembers, keyText, if_neg hnot, lastWins_encodeVal x hx,
        lastWinsMembers_encodeItems items hitems]
end

/-- JSON can hold a record whose values it can hold. -/
lemma isStorable_dump {r : AuditRecord} (hkeys : r.isWellKeyed = true) (hr : r.isStorable = true) :
    (PyVal.ofItems r.dump).isStorable = true := by
  rw [AuditRecord.isStorable, Bool.and_eq_true] at hr
  have hrequest : (PyVal.ofItems r.request.items).isWellKeyed = true :=
    (nodup_of_isWellKeyed hkeys).2 ("request", .ofItems r.request.items)
      (by simp [AuditRecord.fields, RedactedRequest.items])
  have hparameters := (nodup_of_isWellKeyed hrequest).2
    ("parameters", .ofItems (r.request.parameters.map fun p => (p.1, .str p.2))) (by simp [RedactedRequest.items])
  have hcontext : (PyVal.ofItems r.context.items).isStorable = true := by
    refine isStorable_ofItems (by simp [RedactedContext.items]) ?_
    simpa [RedactedContext.items] using ⟨rfl, rfl, rfl, isStorable_ofStrings _⟩
  have hparameters : (PyVal.ofItems (r.request.parameters.map fun p => (p.1, .str p.2))).isStorable = true := by
    refine isStorable_ofItems (nodup_of_isWellKeyed hparameters).1 ?_
    intro p hp
    obtain ⟨q, -, rfl⟩ := List.mem_map.1 hp
    rfl
  have hrequest : (PyVal.ofItems r.request.items).isStorable = true := by
    refine isStorable_ofItems (by simp [RedactedRequest.items]) ?_
    simpa [RedactedRequest.items] using ⟨rfl, rfl, rfl, hparameters⟩
  refine isStorable_ofItems (by simp [AuditRecord.dump, AuditRecord.fields]) ?_
  simpa [AuditRecord.dump, AuditRecord.fields] using ⟨rfl, rfl, rfl, hcontext, hrequest, hr.1, hr.2, rfl, rfl⟩

lemma reread_dump (r : AuditRecord) : (PyVal.ofItems r.dump).reread = .ofItems r.reread.dump := by
  simp only [AuditRecord.dump, AuditRecord.fields, reread_ofItems, rereadFields, List.map_cons, List.map_nil,
    List.cons_append, List.nil_append, PyVal.reread, reread_ofStrings, reread_ofItems?, AuditRecord.reread, List.map_map]
  rfl

/-- Of a record as it is stored, everything is covered. -/
lemma covered_dump (now : String) {r : AuditRecord} (hkeys : r.isWellKeyed = true) (hr : r.isStorable = true) :
    covered now (encodeVal (.ofItems r.reread.dump)) = encodeVal (.ofItems r.reread.dump) := by
  rw [covered, ← reread_dump, lastWins_encodeVal _ (isStorable_dump hkeys hr), reread_dump]
  rfl

lemma recordOf_covered_dump (now : String) {r : AuditRecord} (hkeys : r.isWellKeyed = true) (hr : r.isStorable = true) :
    recordOf (decodeVal (covered now (encodeVal (.ofItems r.reread.dump)))) = some r.reread := by
  rw [covered_dump now hkeys hr, decodeVal_encodeVal _ (isPlain_dump_reread hr)]
  exact recordOf_dump r.reread

theorem validatingPlatform_stores (sha : Sha256) (now : String) : (validatingPlatform sha now).StoresDicts := by
  intro r hkeys hr
  refine ⟨String.ofList (encodeVal (.ofItems r.reread.dump)).render, ?_, jsonLine_render_dump r.reread, ?_⟩
  · simp only [validatingPlatform, storingPlatform, hr, if_true]
  · have hread := loadsText_render (intsFit_encodeVal _ (isPlain_dump_reread hr))
    exact ((validatingPlatform_validates sha now).reads _ _).2 ⟨_, hread, recordOf_covered_dump now hkeys hr⟩

/-! ### One record -/

lemma recordLine_render (sha : Sha256) {now : String} (m : String × Json) (ms : List (String × Json)) {r : AuditRecord}
    (hfit : intsFit (.obj (m :: ms)) = true) (hr : recordOf (decodeVal (covered now (.obj (m :: ms)))) = some r) :
    strip (Json.obj (m :: ms)).render = (Json.obj (m :: ms)).render ∧
      RecordLine (validatingPlatform sha now) (Json.obj (m :: ms)).render r := by
  have hline := jsonLine_render m ms
  have hstrip := hline.strip_eq
  have hne := hline.ne_nil
  rw [String.toList_ofList] at hstrip hne
  refine ⟨hstrip, by rwa [hstrip], ?_⟩
  rw [readLine, hstrip]
  exact ((validatingPlatform_validates sha now).reads _ r).2 ⟨_, loadsText_render hfit, hr⟩

lemma exists_file (m : String × Json) (ms : List (String × Json)) :
    ∃ file, lines file = [(Json.obj (m :: ms)).render] := by
  have hlines := (lines_append (Or.inl rfl : FileTerminated none) (jsonLine_render m ms)).1
  rw [String.toList_ofList] at hlines
  exact ⟨_, hlines⟩

/-- The members of the line of a record. -/
def AuditRecord.members (r : AuditRecord) : List (String × Json) := encodeItems (r.dump.map fun p => (.str p.1, p.2))

lemma recordOf_members (now : String) {r : AuditRecord} (hkeys : r.isWellKeyed = true) (hr : r.isNative = true) :
    recordOf (decodeVal (covered now (.obj r.members))) = some r := by
  have hread := recordOf_covered_dump now hkeys (stable_of_isNative_record hr).isStorable
  rwa [reread_of_isNative_record hr] at hread

lemma membersFit_members {r : AuditRecord} (hr : r.isNative = true) : intsFit (.obj r.members) = true := by
  have hfit := intsFit_encodeVal _ (isPlain_dump_reread (stable_of_isNative_record hr).isStorable)
  rwa [reread_of_isNative_record hr] at hfit

lemma recordLine_members (sha : Sha256) (now : String) {r : AuditRecord} (hkeys : r.isWellKeyed = true)
    (hr : r.isNative = true) : strip (Json.obj r.members).render = (Json.obj r.members).render ∧
      RecordLine (validatingPlatform sha now) (Json.obj r.members).render r :=
  recordLine_render sha _ _ (membersFit_members hr) (recordOf_members now hkeys hr)

/-- The record of the log. -/
def onlyRecord (d : String) : AuditRecord := { sampleRecord with recordHash := d }

lemma onlyRecord_isWellKeyed (d : String) : (onlyRecord d).isWellKeyed = true :=
  (isWellKeyed_hashes sampleRecord GENESIS_HASH d).trans (by decide +kernel)

/-- A log of one record. -/
lemma only_logged (sha : Sha256) (now : String) : ∃ file d,
    runSessions (validatingPlatform sha now) none [⟨true, [], [sampleRecord]⟩] = .ok (file, [onlyRecord d]) ∧
      lines file = [(Json.obj (onlyRecord d).members).render] ∧
      computeRecordHash (validatingPlatform sha now) GENESIS_HASH sampleRecord = .ok d := by
  obtain ⟨d, hd⟩ := computeRecordHash_ok_of_stable (validatingPlatform sha now) GENESIS_HASH sampleRecord_stable
  have hdump : (validatingPlatform sha now).modelDumpJson (onlyRecord d) =
      .ok (String.ofList (Json.obj (onlyRecord d).members).render) := rfl
  have happ : freshLogger.append (validatingPlatform sha now) none sampleRecord = _ := append_eq hd hdump
  have hlines := (lines_append (Or.inl rfl : FileTerminated none) (jsonLine_render_dump (onlyRecord d))).1
  rw [String.toList_ofList] at hlines
  exact ⟨_, d, runSession_none (appendAll_singleton happ), hlines, hd⟩

/-- The edited timestamp of a log of one record. -/
theorem edit_noticed_iff_timestamp : ∃ file file' d,
    runSessions (validatingPlatform editedSha256 "") none [⟨true, [], [sampleRecord]⟩] = .ok (file, [onlyRecord d]) ∧
      lines file' = (lines file).set 0 (Json.obj (edited (onlyRecord d)).members).render ∧
      Noticed (validatingPlatform editedSha256 "") file' 1 := by
  obtain ⟨file, d, hrun, hlines, hd⟩ := only_logged editedSha256 ""
  obtain ⟨file', hlines'⟩ : ∃ file', lines file' = [(Json.obj (edited (onlyRecord d)).members).render] := exists_file _ _
  have hset : lines file' = (lines file).set 0 (Json.obj (edited (onlyRecord d)).members).render := by
    rw [hlines, hlines']
    rfl
  have hkeys : (edited (onlyRecord d)).isWellKeyed = true :=
    (isWellKeyed_hashes (edited sampleRecord) GENESIS_HASH d).trans (by decide +kernel)
  obtain ⟨hstrip, hline⟩ := recordLine_members editedSha256 "" hkeys rfl
  have honly : ∀ r', RecordLine (validatingPlatform editedSha256 "") (Json.obj (edited (onlyRecord d)).members).render r' →
      r' = edited (onlyRecord d) := fun r' hl => Except.ok.inj (hl.2.symm.trans hline.2)
  obtain ⟨k, hk⟩ : ∃ k, (onlyRecord d).payload.toJson = some k := toJson_of_hash (r := onlyRecord d) hd
  refine ⟨file, file', d, hrun, hset, ?_⟩
  refine (edit_noticed_iff (validatingPlatform_stores editedSha256 "") (validatingPlatform_validates editedSha256 "") ?_
    hrun rfl hset (fun r' hl => by rw [honly r' hl]; rfl) ?_).2 (Or.inr ?_)
  · simp only [List.forall_mem_singleton]
    decide +kernel
  · refine collisionFree_sha256Of (by decide +kernel) (hashInput GENESIS_HASH (edited (onlyRecord d))) ?_
    rintro b (⟨s, hs, hb⟩ | ⟨s, hs, hb⟩)
    · simp only [List.map_cons, List.map_nil, reread_of_isNative_record (rfl : (onlyRecord d).isNative = true),
        List.mem_append, List.mem_singleton, or_self] at hs
      rw [hs] at hb
      exact Or.inr ⟨_, _, List.mem_cons_self, hb⟩
    · rw [honly s hs] at hb
      exact Or.inl hb
  · intro j hj
    rw [hstrip, loadsText_render (membersFit_members rfl)] at hj
    obtain rfl := Option.some.inj hj
    rw [decodeVal_covered (recordOf_members "" hkeys rfl), ne_eq, toJson_dump_iff hk]
    exact fun hsame => edited_toJson_ne rfl hk hsame.1

/-- Two members before the others: a repeated one, and one that no model has. -/
def withMembers (d : String) : List (String × Json) :=
  ("note", .str "x") :: ("decision", .obj [("allowed", .bool true)]) :: (onlyRecord d).members

lemma covered_withMembers (now d : String) :
    covered now (.obj (withMembers d)) = covered now (.obj (onlyRecord d).members) := by
  have hunknown : "note" ∉ (recordFields now).map ModelField.name := by simp [recordFields]
  have hrepeated : "decision" ∈ (onlyRecord d).members.map Prod.fst := by
    simp [AuditRecord.members, AuditRecord.dump, AuditRecord.fields, encodeItems, keyText]
  rw [withMembers, covered_cons (Or.inr hunknown), covered_cons (Or.inl hrepeated)]

lemma recordLine_withMembers (sha : Sha256) (now d : String) :
    RecordLine (validatingPlatform sha now) (Json.obj (withMembers d)).render (onlyRecord d) := by
  refine (recordLine_render sha _ _ ?_ ?_).2
  · exact membersFit_members (r := onlyRecord d) rfl
  · rw [← withMembers, covered_withMembers]
    exact recordOf_members now (onlyRecord_isWellKeyed d) rfl

/-- A reader that does not know pydantic sees another decision, and the log is still verified. -/
theorem added_members_unnoticed : ∃ file file' d,
    runSessions (validatingPlatform sampleSha256 "") none [⟨true, [], [sampleRecord]⟩] = .ok (file, [onlyRecord d]) ∧
      lines file = [(Json.obj (onlyRecord d).members).render] ∧
      lines file' = (lines file).set 0 (Json.obj (withMembers d)).render ∧
      Json.obj (withMembers d) ≠ .obj (onlyRecord d).members ∧
      RecordLine (validatingPlatform sampleSha256 "") (Json.obj (withMembers d)).render (onlyRecord d) ∧
      CollisionFree (validatingPlatform sampleSha256 "")
        (bothInputs [onlyRecord d] ∪ readInputs (validatingPlatform sampleSha256 "") (Json.obj (withMembers d)).render) ∧
      verifyChain (validatingPlatform sampleSha256 "") file' = .ok ⟨true, 1, none⟩ ∧
      ¬ Noticed (validatingPlatform sampleSha256 "") file' 1 := by
  obtain ⟨file, d, hrun, hlines, hd⟩ := only_logged sampleSha256 ""
  have hline := recordLine_withMembers sampleSha256 "" d
  obtain ⟨file', hlines'⟩ : ∃ file', lines file' = [(Json.obj (withMembers d)).render] := exists_file _ _
  have hfits : Fits (validatingPlatform sampleSha256 "") GENESIS_HASH (onlyRecord d) := ⟨rfl, hd⟩
  have hverify : verifyChain (validatingPlatform sampleSha256 "") file' = .ok ⟨true, 1, none⟩ := by
    rw [verifyChain_eq, hlines']
    exact verifyLines_fits hline hfits [] 0 0
  have hdiffer : Json.obj (withMembers d) ≠ .obj (onlyRecord d).members := by
    intro hsame
    have hlength := congrArg List.length (Json.obj.inj hsame)
    simp only [withMembers, List.length_cons] at hlength
    omega
  refine ⟨file, file', d, hrun, hlines, ?_, hdiffer, hline, ?_, hverify, fun hnoticed => hnoticed _ hverify ⟨rfl, rfl⟩⟩
  · rw [hlines, hlines']
    rfl
  · -- all that is hashed is the record
    have hinput : ∀ b ∈ bothInputs [onlyRecord d] ∪
        readInputs (validatingPlatform sampleSha256 "") (Json.obj (withMembers d)).render,
        hashInput GENESIS_HASH (onlyRecord d) = .ok b := by
      rintro b (⟨s, hs, hb⟩ | ⟨s, hs, hb⟩)
      · simp only [List.map_cons, List.map_nil, reread_of_isNative_record (rfl : (onlyRecord d).isNative = true),
          List.mem_append, List.mem_singleton, or_self] at hs
        rwa [hs] at hb
      · obtain rfl := Except.ok.inj (hline.2.symm.trans hs.2)
        exact hb
    intro b hb b' hb' _
    exact Except.ok.inj ((hinput b hb).symm.trans (hinput b' hb'))

end Aimw.Audit
