import Aimw.Audit.History
import Aimw.Audit.Keys

/-!
# When the stored form is the hashed form

`json.dumps` writes the value that is hashed, and what pydantic has stored is hashed when the log is verified.  The two
agree exactly on the values that are `isFaithful`: every float is finite, the keys included, `None` is no key, and numbers
that are keys come in the order of their texts (`reread_toJson`).
-/

namespace Aimw

open Lib Audit

/-! ## Values -/

mutual
/-- No dictionary holds a key twice, as is true of every dictionary. -/
def PyVal.isWellKeyed : PyVal → Bool
  | .list xs => areWellKeyed xs
  | .dict items => areWellKeyedItems items
  | _ => true
def areWellKeyed : List PyVal → Bool
  | [] => true
  | x :: xs => x.isWellKeyed && areWellKeyed xs
def areWellKeyedItems : List (PyKey × PyVal) → Bool
  | [] => true
  | (k, x) :: items => !(items.any fun p => p.1.same k) && x.isWellKeyed && areWellKeyedItems items
end

mutual
/-- Every float is finite, and the keys of every dictionary agree. -/
def PyVal.isFaithful : PyVal → Bool
  | .float (.finite _) => true
  | .float _ => false
  | .list xs => areFaithful xs
  | .dict items => keysAgree (items.map Prod.fst) && areFaithfulItems items
  | _ => true
def areFaithful : List PyVal → Bool
  | [] => true
  | x :: xs => x.isFaithful && areFaithful xs
def areFaithfulItems : List (PyKey × PyVal) → Bool
  | [] => true
  | (_, x) :: items => x.isFaithful && areFaithfulItems items
end

mutual
/-- **A value comes back as it was hashed exactly if it is faithful.** -/
theorem reread_toJson (x : PyVal) (hkeys : x.isWellKeyed = true) {j : Json} (hj : x.toJson = some j) :
    ∃ j', x.reread.toJson = some j' ∧ (j' = j ↔ x.isFaithful = true) := by
  match x with
  | .none => exact ⟨_, hj, iff_of_true rfl rfl⟩
  | .bool _ => exact ⟨_, hj, iff_of_true rfl rfl⟩
  | .int _ => exact ⟨_, hj, iff_of_true rfl rfl⟩
  | .str _ => exact ⟨_, hj, iff_of_true rfl rfl⟩
  | .float (.finite _) => exact ⟨_, hj, iff_of_true rfl rfl⟩
  | .float .nan =>
    obtain rfl := Option.some.inj hj
    exact ⟨.null, rfl, iff_of_false Json.noConfusion Bool.false_ne_true⟩
  | .float .inf =>
    obtain rfl := Option.some.inj hj
    exact ⟨.null, rfl, iff_of_false Json.noConfusion Bool.false_ne_true⟩
  | .float .negInf =>
    obtain rfl := Option.some.inj hj
    exact ⟨.null, rfl, iff_of_false Json.noConfusion Bool.false_ne_true⟩
  | .list xs =>
    rw [PyVal.toJson] at hj
    obtain ⟨js, hjs, rfl⟩ := Option.map_eq_some_iff.1 hj
    obtain ⟨js', hjs', hiff⟩ := rereadList_toJson xs (by simpa only [PyVal.isWellKeyed] using hkeys) hjs
    refine ⟨.arr js', by rw [PyVal.reread, PyVal.toJson, hjs', Option.map_some], ?_⟩
    rw [Json.arr.injEq, PyVal.isFaithful]
    exact hiff
  | .dict items =>
    rw [PyVal.toJson] at hj
    obtain ⟨ms, hms, hj⟩ := Option.bind_eq_some_iff.1 hj
    obtain ⟨sorted, hsorted, rfl⟩ := Option.map_eq_some_iff.1 hj
    obtain ⟨rows, rfl, hreread, hrows, hkeyed, hiff⟩ :=
      rereadItems_toJson items (by simpa only [PyVal.isWellKeyed] using hkeys) hms
    have hback := sorted_rows_iff hkeyed hsorted
    rw [sortItems_rereadRow] at hback
    refine ⟨.obj _, by rw [PyVal.reread, PyVal.toJson, hreread, Option.bind_some, sortItems_rereadRow, Option.map_some], ?_⟩
    rw [Json.obj.injEq, ← Option.some.injEq, hback, hrows, hiff, PyVal.isFaithful, Bool.and_eq_true]
  | .object _ => cases hj
theorem rereadList_toJson (xs : List PyVal) (hkeys : areWellKeyed xs = true) {js : List Json}
    (hjs : toJsonList xs = some js) :
    ∃ js', toJsonList (rereadList xs) = some js' ∧ (js' = js ↔ areFaithful xs = true) := by
  match xs with
  | [] => exact ⟨_, hjs, iff_of_true rfl rfl⟩
  | x :: xs =>
    rw [areWellKeyed, Bool.and_eq_true] at hkeys
    rw [toJsonList] at hjs
    obtain ⟨j, hj, hrest⟩ := Option.bind_eq_some_iff.1 hjs
    obtain ⟨js₁, htail, rfl⟩ := Option.map_eq_some_iff.1 hrest
    obtain ⟨j', hj', hiff⟩ := reread_toJson x hkeys.1 hj
    obtain ⟨js', hjs', hiffs⟩ := rereadList_toJson xs hkeys.2 htail
    refine ⟨j' :: js', by rw [rereadList, toJsonList, hj', hjs', Option.bind_some, Option.map_some], ?_⟩
    rw [List.cons.injEq, hiff, hiffs, areFaithful, Bool.and_eq_true]
theorem rereadItems_toJson (items : List (PyKey × PyVal)) (hkeys : areWellKeyedItems items = true)
    {ms : List (PyKey × Json)} (hms : toJsonItems items = some ms) :
    ∃ rows : List Row, ms = rows.map hashedRow ∧ toJsonItems (rereadItems items) = some ((readBack rows).map rereadRow) ∧
      rows.map Prod.fst = items.map Prod.fst ∧ Keyed rows ∧
      ((∀ r ∈ rows, r.2.2 = r.2.1) ↔ areFaithfulItems items = true) := by
  match items with
  | [] =>
    obtain rfl := Option.some.inj hms
    exact ⟨[], rfl, rfl, rfl, .nil, iff_of_true (by simp) rfl⟩
  | (k, x) :: items =>
    simp only [areWellKeyedItems, Bool.and_eq_true] at hkeys
    obtain ⟨⟨hnew, hx⟩, hitems⟩ := hkeys
    obtain ⟨-, j, ms₁, hj, htail, rfl⟩ := toJsonItems_cons_eq_some_iff.1 hms
    obtain ⟨j', hj', hiff⟩ := reread_toJson x hx hj
    obtain ⟨rows, rfl, hreread, hrows, hkeyed, hiffs⟩ := rereadItems_toJson items hitems htail
    refine ⟨(k, j, j') :: rows, rfl, ?_, by rw [List.map_cons, List.map_cons, hrows], ?_, ?_⟩
    · have hnans : items.any (fun p => p.1.isNaN) = rows.any fun q => q.1.isNaN := by
        have hmap := congrArg (List.any · PyKey.isNaN) hrows
        simpa only [List.any_map, Function.comp_def] using hmap.symm
      rw [rereadItems, readBack, hnans]
      split_ifs
      · exact hreread
      · exact toJsonItems_cons_eq_some_iff.2 ⟨rfl, j', _, hj', hreread, rfl⟩
    · refine List.pairwise_cons.2 ⟨fun r hr => ?_, hkeyed⟩
      have hkey : r.1 ∈ rows.map Prod.fst := List.mem_map_of_mem hr
      rw [hrows] at hkey
      obtain ⟨p, hp, hpr⟩ := List.mem_map.1 hkey
      rw [Bool.not_eq_true', List.any_eq_false] at hnew
      exact hpr ▸ Bool.eq_false_iff.2 (hnew p hp)
    · rw [List.forall_mem_cons, hiff, hiffs, areFaithfulItems, Bool.and_eq_true]
end

/-- `{2.5: None, 10.5: None}` is written with its keys in another order than it is read back. -/
example : (PyVal.dict [(.float (.finite ⟨['2', '.', '5'], rfl⟩), .none),
    (.float (.finite ⟨['1', '0', '.', '5'], rfl⟩), .none)]).isFaithful = false := by decide +kernel

mutual
/-- What `json.dumps` takes, pydantic can store. -/
theorem isStorable_of_toJson (x : PyVal) (hkeys : x.isWellKeyed = true) {j : Json} (hj : x.toJson = some j) :
    x.isStorable = true := by
  match x with
  | .none => rfl
  | .bool _ => rfl
  | .int i => exact (toJson_int_eq_some_iff.1 hj).1
  | .float _ => rfl
  | .str _ => rfl
  | .list xs =>
    rw [PyVal.toJson] at hj
    obtain ⟨js, hjs, -⟩ := Option.map_eq_some_iff.1 hj
    rw [PyVal.isStorable]
    exact areStorable_of_toJson xs (by simpa only [PyVal.isWellKeyed] using hkeys) hjs
  | .dict items =>
    rw [PyVal.toJson] at hj
    obtain ⟨ms, hms, hj⟩ := Option.bind_eq_some_iff.1 hj
    obtain ⟨sorted, hsorted, -⟩ := Option.map_eq_some_iff.1 hj
    have hkeys : areWellKeyedItems items = true := by simpa only [PyVal.isWellKeyed] using hkeys
    obtain ⟨rows, rfl, -, hrows, hkeyed, -⟩ := rereadItems_toJson items hkeys hms
    have htexts : (items.map Prod.fst).Pairwise fun k l => l.clashes k = false := by
      rw [← hrows]
      exact List.pairwise_map.2 (pairwise_clashes hkeyed hsorted)
    rw [PyVal.isStorable]
    exact areStorableItems_of_toJson items hkeys htexts hms
  | .object _ => cases hj
theorem areStorable_of_toJson (xs : List PyVal) (hkeys : areWellKeyed xs = true) {js : List Json}
    (hjs : toJsonList xs = some js) : areStorable xs = true := by
  match xs with
  | [] => rfl
  | x :: xs =>
    rw [areWellKeyed, Bool.and_eq_true] at hkeys
    rw [toJsonList] at hjs
    obtain ⟨j, hj, hrest⟩ := Option.bind_eq_some_iff.1 hjs
    obtain ⟨js₁, htail, -⟩ := Option.map_eq_some_iff.1 hrest
    rw [areStorable, isStorable_of_toJson x hkeys.1 hj, areStorable_of_toJson xs hkeys.2 htail, Bool.and_self]
theorem areStorableItems_of_toJson (items : List (PyKey × PyVal)) (hkeys : areWellKeyedItems items = true)
    (htexts : (items.map Prod.fst).Pairwise fun k l => l.clashes k = false) {ms : List (PyKey × Json)}
    (hms : toJsonItems items = some ms) : areStorableItems items = true := by
  match items with
  | [] => rfl
  | (k, x) :: items =>
    simp only [areWellKeyedItems, Bool.and_eq_true] at hkeys
    obtain ⟨⟨-, hx⟩, hitems⟩ := hkeys
    obtain ⟨hfits, j, ms₁, hj, htail, -⟩ := toJsonItems_cons_eq_some_iff.1 hms
    rw [List.map_cons, List.pairwise_cons] at htexts
    have hnew : (items.any fun p => p.1.clashes k) = false :=
      List.any_eq_false.2 fun p hp => Bool.eq_false_iff.1 (htexts.1 p.1 (List.mem_map_of_mem hp))
    rw [areStorableItems, hfits, hnew, isStorable_of_toJson x hx hj, areStorableItems_of_toJson items hitems htexts.2 htail]
    rfl
end

lemma isWellKeyed_ofItems {items : List (String × PyVal)} (hnodup : (items.map Prod.fst).Nodup)
    (hvalues : ∀ p ∈ items, p.2.isWellKeyed = true) : (PyVal.ofItems items).isWellKeyed = true := by
  rw [PyVal.ofItems, PyVal.isWellKeyed]
  induction items with
  | nil => rfl
  | cons p items ih =>
    rw [List.map_cons, List.nodup_cons] at hnodup
    have hnew : ((items.map fun p => (PyKey.str p.1, p.2)).any fun q => q.1.same (.str p.1)) = false := by
      refine List.any_eq_false.2 fun q hq heq => hnodup.1 ?_
      obtain ⟨r, hr, rfl⟩ := List.mem_map.1 hq
      have hkey : r.1 = p.1 := by simpa [PyKey.same, PyKey.value] using heq
      exact List.mem_map.2 ⟨r, hr, hkey⟩
    rw [List.map_cons, areWellKeyedItems, hnew, hvalues p List.mem_cons_self,
      ih hnodup.2 fun q hq => hvalues q (List.mem_cons_of_mem _ hq)]
    rfl

lemma nodup_of_isWellKeyed {items : List (String × PyVal)} (h : (PyVal.ofItems items).isWellKeyed = true) :
    (items.map Prod.fst).Nodup ∧ ∀ p ∈ items, p.2.isWellKeyed = true := by
  rw [PyVal.ofItems, PyVal.isWellKeyed] at h
  induction items with
  | nil => simp
  | cons p items ih =>
    simp only [List.map_cons, areWellKeyedItems, Bool.and_eq_true, List.any_map] at h
    obtain ⟨⟨hnew, hp⟩, hitems⟩ := h
    obtain ⟨hnodup, hvalues⟩ := ih hitems
    refine ⟨?_, List.forall_mem_cons.2 ⟨hp, hvalues⟩⟩
    rw [List.map_cons, List.nodup_cons]
    refine ⟨fun hmem => ?_, hnodup⟩
    obtain ⟨q, hq, heq⟩ := List.mem_map.1 hmem
    simp only [Bool.not_eq_true', List.any_eq_false] at hnew
    exact hnew q hq (by simp [PyKey.same, heq])

lemma isStorable_ofItems {items : List (String × PyVal)} (hnodup : (items.map Prod.fst).Nodup)
    (hvalues : ∀ p ∈ items, p.2.isStorable = true) : (PyVal.ofItems items).isStorable = true := by
  rw [PyVal.ofItems, PyVal.isStorable]
  induction items with
  | nil => rfl
  | cons p items ih =>
    rw [List.map_cons, List.nodup_cons] at hnodup
    have hnew : ((items.map fun p => (PyKey.str p.1, p.2)).any fun q => q.1.clashes (.str p.1)) = false := by
      rw [List.any_map, List.any_eq_false]
      intro q hq heq
      exact hnodup.1 (List.mem_map.2 ⟨q, hq, by simpa [PyKey.clashes, keyText] using heq⟩)
    rw [List.map_cons, areStorableItems, hnew, hvalues p List.mem_cons_self,
      ih hnodup.2 fun q hq => hvalues q (List.mem_cons_of_mem _ hq)]
    rfl

namespace Audit

/-! ## Records -/

/-- No dictionary in the record holds a key twice. -/
def AuditRecord.isWellKeyed (r : AuditRecord) : Bool := r.payload.isWellKeyed

/-- The record comes back as it was hashed. -/
def AuditRecord.isFaithful (r : AuditRecord) : Bool :=
  (PyVal.ofItems r.decision).isFaithful && (PyVal.ofItems? r.sandboxResult).isFaithful

lemma reread_ofStrings (l : List String) : (PyVal.ofStrings l).reread = .ofStrings l := by
  rw [PyVal.ofStrings, PyVal.reread]
  congr 1
  induction l with
  | nil => rfl
  | cons s l ih => rw [List.map_cons, rereadList, ih, PyVal.reread]

lemma isStorable_ofStrings (l : List String) : (PyVal.ofStrings l).isStorable = true := by
  rw [PyVal.ofStrings, PyVal.isStorable]
  induction l with
  | nil => rfl
  | cons s l ih => simpa only [List.map_cons, areStorable, PyVal.isStorable, Bool.true_and] using ih

lemma reread_payload (r : AuditRecord) : r.reread.payload = r.payload.reread := by
  simp only [AuditRecord.payload, AuditRecord.fields, reread_ofItems, rereadFields, List.map_cons, List.map_nil,
    PyVal.reread, reread_ofStrings, reread_ofItems?, AuditRecord.reread, List.map_map]
  rfl

lemma isFaithful_ofStrings (l : List String) : (PyVal.ofStrings l).isFaithful = true := by
  rw [PyVal.ofStrings, PyVal.isFaithful]
  induction l with
  | nil => rfl
  | cons s l ih => simpa only [List.map_cons, areFaithful, PyVal.isFaithful, Bool.true_and] using ih

lemma isFaithful_ofItems (items : List (String × PyVal)) :
    (PyVal.ofItems items).isFaithful = items.all fun p => p.2.isFaithful := by
  have hkeys : keysAgree ((items.map fun p => (PyKey.str p.1, p.2)).map Prod.fst) = true := by
    simp [keysAgree, PyKey.agrees, PyKey.value, keyText, PyKey.jsonText]
  rw [PyVal.ofItems, PyVal.isFaithful, hkeys, Bool.true_and]
  clear hkeys
  induction items with
  | nil => rfl
  | cons p items ih => rw [List.map_cons, areFaithfulItems, List.all_cons, ih]

/-- What a record holds besides the decision and the outcome is faithful. -/
lemma payload_isFaithful (r : AuditRecord) : r.payload.isFaithful = r.isFaithful := by
  have hparameters : (r.request.parameters.map fun p => (p.1, PyVal.str p.2)).all (fun p => p.2.isFaithful) = true := by
    simp [PyVal.isFaithful]
  simp only [AuditRecord.payload, AuditRecord.fields, isFaithful_ofItems, List.all_cons, List.all_nil, PyVal.isFaithful,
    isFaithful_ofStrings, hparameters, AuditRecord.isFaithful, Bool.true_and, Bool.and_true]

/-- What is hashed of a record comes back from the file exactly if the record is faithful. -/
theorem reread_payload_iff {P : Platform} {h d : String} {r : AuditRecord} (hkeys : r.isWellKeyed = true)
    (hd : computeRecordHash P h r = .ok d) :
    r.reread.payload.toJson = r.payload.toJson ↔ r.isFaithful = true := by
  obtain ⟨j, hj⟩ := toJson_of_hash hd
  obtain ⟨j', hj', hiff⟩ := reread_toJson r.payload hkeys hj
  rw [reread_payload, hj', hj, Option.some.injEq, hiff, payload_isFaithful]

lemma isStorable_of_mem {items : List (String × PyVal)} (h : (PyVal.ofItems items).isStorable = true) :
    ∀ p ∈ items, p.2.isStorable = true := by
  rw [PyVal.ofItems, PyVal.isStorable] at h
  induction items with
  | nil => simp
  | cons p items ih =>
    rw [List.map_cons, areStorableItems, Bool.and_eq_true, Bool.and_eq_true] at h
    exact List.forall_mem_cons.2 ⟨h.1.2, ih h.2⟩

/-- A record of which a hash is computed can be stored. -/
theorem isStorable_of_hash {P : Platform} {h d : String} {r : AuditRecord} (hkeys : r.isWellKeyed = true)
    (hd : computeRecordHash P h r = .ok d) : r.isStorable = true := by
  obtain ⟨j, hj⟩ := toJson_of_hash hd
  have hfields := isStorable_of_mem (isStorable_of_toJson r.payload hkeys hj)
  rw [AuditRecord.isStorable, Bool.and_eq_true]
  constructor
  · exact hfields ("decision", .ofItems r.decision) (by simp [AuditRecord.fields])
  · exact hfields ("sandbox_result", .ofItems? r.sandboxResult) (by simp [AuditRecord.fields])

/-- The hashes of a record hold no dictionary. -/
lemma isWellKeyed_hashes (r : AuditRecord) (h d : String) :
    ({ r with prevHash := h, recordHash := d } : AuditRecord).isWellKeyed = r.isWellKeyed := by
  simp only [AuditRecord.isWellKeyed, AuditRecord.payload, AuditRecord.fields, PyVal.ofItems, List.map_cons, List.map_nil,
    PyVal.isWellKeyed, areWellKeyedItems, List.any_cons, List.any_nil]

lemma computeRecordHash_congr (P : Platform) (h : String) {r s : AuditRecord} (hpayload : r.payload.toJson = s.payload.toJson) :
    computeRecordHash P h r = computeRecordHash P h s := by
  simp only [computeRecordHash, hashInput, canonicalBytes, PyVal.dumps, hpayload]

section Append

variable {P : Platform} {logger logger' : HashChainedJSONLLogger} {file file' : Option String}
  {record record' : AuditRecord} {rs : List AuditRecord}

/-- What is appended can be stored. -/
lemma isStorable_of_append (hkeys : record.isWellKeyed = true)
    (happ : logger.append P file record = .ok (file', logger', record')) : record.isStorable = true := by
  obtain ⟨d, line, hd, -⟩ := append_ok happ
  have hkeys' : ({ record with prevHash := logger.prevHash } : AuditRecord).isWellKeyed = true :=
    (isWellKeyed_hashes record logger.prevHash record.recordHash).trans hkeys
  have hstorable := isStorable_of_hash hkeys' hd
  exact hstorable

/-- A faithful record continues the chain. -/
theorem append_faithful (hP : P.Stores) (hlog : Holds P file logger.prevHash rs) (hkeys : record.isWellKeyed = true)
    (hfaithful : record.isFaithful = true) (happ : logger.append P file record = .ok (file', logger', record')) :
    Holds P file' logger'.prevHash (rs ++ [record'.reread]) := by
  obtain ⟨hterm, hreads⟩ := append_reads hP hlog.terminated hlog.reads (isStorable_of_append hkeys happ) happ
  obtain ⟨hprev, hhash, hlast⟩ := append_links happ
  have hkeys' : record'.isWellKeyed = true := by
    rw [append_record happ]
    exact (isWellKeyed_hashes ..).trans hkeys
  have hfaithful' : record'.isFaithful = true := by
    rw [append_record happ]
    exact hfaithful
  have hpayload := (reread_payload_iff hkeys' hhash).2 hfaithful'
  have hlink : Links P logger.prevHash record'.reread logger'.prevHash :=
    ⟨hprev, (computeRecordHash_congr P _ hpayload).trans hhash, hlast⟩
  exact ⟨hterm, hreads, linked_concat_iff.2 ⟨_, hlog.linked, hlink⟩⟩

/-- **A log with one more record is accepted exactly if the record is faithful.** -/
theorem append_accepted_iff (hP : P.Stores) (hlog : Holds P file logger.prevHash rs) (hkeys : record.isWellKeyed = true)
    (happ : logger.append P file record = .ok (file', logger', record'))
    (hcoll : ∀ b b', hashInput logger.prevHash record' = .ok b → hashInput logger.prevHash record'.reread = .ok b' →
      P.sha256.hexdigest b = P.sha256.hexdigest b' → b = b') :
    (∃ n f, verifyChain P file' = .ok ⟨true, n, f⟩) ↔ record.isFaithful = true := by
  constructor
  · rintro ⟨n, f, hverify⟩
    obtain ⟨-, hreads⟩ := append_reads hP hlog.terminated hlog.reads (isStorable_of_append hkeys happ) happ
    obtain ⟨-, hhash, -⟩ := append_links happ
    have hkeys' : record'.isWellKeyed = true := by
      rw [append_record happ]
      exact (isWellKeyed_hashes ..).trans hkeys
    have hfaithful : record'.isFaithful = record.isFaithful := by rw [append_record happ]; rfl
    obtain ⟨rs', k, hreads', hlinked, -, -⟩ := verify_accepts_iff.1 hverify
    obtain rfl := hreads.unique hreads'
    obtain ⟨m, hbefore, -, hlink, -⟩ := linked_concat_iff.1 hlinked
    obtain rfl : m = logger.prevHash := (linked_lastHash hbefore).trans (linked_lastHash hlog.linked).symm
    -- the two inputs have one digest
    obtain ⟨b, hb, hdigest⟩ := hashInput_of_hash hhash
    obtain ⟨b', hb', hdigest'⟩ := hashInput_of_hash hlink
    obtain rfl := hcoll b b' hb hb' (hdigest.trans hdigest'.symm)
    rw [← hfaithful, ← reread_payload_iff hkeys' hhash]
    exact (hashInput_inj rfl hb' hb).2
  · intro hfaithful
    exact ⟨_, _, (append_faithful hP hlog hkeys hfaithful happ).verify⟩

end Append

section LogCall

variable {P : Platform} {py : PyStr} {logger logger' : HashChainedJSONLLogger} {file file' : Option String}
  {context : ExecutionContext} {request : ToolRequest} {d : PolicyDecision} {s : Option SandboxResult}
  {recordId timestamp : String} {record : AuditRecord}

variable (d) in
/-- No dictionary in the rewritten parameters holds a key twice. -/
def WellKeyed : Prop := ∀ m, d.modifiedParameters = some m → ∀ p ∈ m.items, p.2.isWellKeyed = true

variable (d s) in
/-- The rewritten parameters are faithful, and the duration is finite. -/
def Faithful : Prop :=
  (∀ m, d.modifiedParameters = some m → ∀ p ∈ m.items, p.2.isFaithful = true) ∧
    ∀ r, s = some r → ∃ x, r.durationMs = .finite x

lemma isWellKeyed_ofStrings (l : List String) : (PyVal.ofStrings l).isWellKeyed = true := by
  rw [PyVal.ofStrings, PyVal.isWellKeyed]
  induction l with
  | nil => rfl
  | cons q l ih => simpa only [List.map_cons, areWellKeyed, PyVal.isWellKeyed, Bool.true_and] using ih

lemma isWellKeyed_record {r : AuditRecord} (hparameters : (r.request.parameters.map Prod.fst).Nodup)
    (hdecision : (PyVal.ofItems r.decision).isWellKeyed = true)
    (hsandbox : (PyVal.ofItems? r.sandboxResult).isWellKeyed = true) : r.isWellKeyed = true := by
  have hrequest : (PyVal.ofItems (r.request.parameters.map fun p => (p.1, .str p.2))).isWellKeyed = true := by
    refine isWellKeyed_ofItems ?_ ?_
    · rwa [List.map_map]
    · intro p hp
      obtain ⟨q, -, rfl⟩ := List.mem_map.1 hp
      rfl
  have hwhole : (PyVal.ofItems
      [("tool_name", .str r.request.toolName), ("function_name", .str r.request.functionName),
        ("call_id", .str r.request.callId),
        ("parameters", .ofItems (r.request.parameters.map fun p => (p.1, .str p.2)))]).isWellKeyed = true :=
    isWellKeyed_ofItems (by simp) (by simpa using ⟨rfl, rfl, rfl, hrequest⟩)
  have hcontext : (PyVal.ofItems
      [("user_id", .str r.context.userId), ("agent_id", .str r.context.agentId),
        ("session_id", .str r.context.sessionId), ("roles", .ofStrings r.context.roles)]).isWellKeyed = true :=
    isWellKeyed_ofItems (by simp) (by simpa using ⟨rfl, rfl, rfl, isWellKeyed_ofStrings _⟩)
  refine isWellKeyed_ofItems (by simp [AuditRecord.fields]) ?_
  simpa [AuditRecord.fields] using ⟨rfl, rfl, rfl, hcontext, hwhole, hdecision, hsandbox, rfl⟩

lemma isWellKeyed_modelDump (hd : WellKeyed d) : (PyVal.ofItems d.modelDump).isWellKeyed = true := by
  have hmodified : (PyVal.ofItems? (d.modifiedParameters.map Dict.items)).isWellKeyed = true := by
    cases hm : d.modifiedParameters with
    | none => rfl
    | some m => exact isWellKeyed_ofItems m.nodup (hd m hm)
  refine isWellKeyed_ofItems (by simp [PolicyDecision.modelDump]) ?_
  simpa [PolicyDecision.modelDump] using ⟨rfl, rfl, hmodified, isWellKeyed_ofStrings _⟩

lemma isWellKeyed_sandbox (s : Option SandboxResult) :
    (PyVal.ofItems? (s.map SandboxResult.modelDump)).isWellKeyed = true := by
  cases s with
  | none => rfl
  | some r =>
    refine isWellKeyed_ofItems (by simp [SandboxResult.modelDump]) ?_
    simp [SandboxResult.modelDump, PyVal.isWellKeyed]

/-- A dictionary of a hashed record comes back as the same JSON, if it is faithful. -/
lemma reread_of_hash {P : Platform} {h : String} {r : AuditRecord} {k : String} {x : PyVal}
    (hd : computeRecordHash P h r = .ok k) {f : String} (hmem : (f, x) ∈ r.fields) (hkeys : x.isWellKeyed = true)
    (hfaithful : x.isFaithful = true) : x.reread.toJson = x.toJson := by
  obtain ⟨j, hj⟩ := toJson_of_hash hd
  obtain ⟨i, hi⟩ := exists_toJson_of_mem hj hmem
  obtain ⟨i', hi', hiff⟩ := reread_toJson x hkeys hi
  rw [hi', hi, hiff.2 hfaithful]

section Faithfully

variable {sandboxResult : Option (List (String × PyVal))}
  (hkeys : (PyVal.ofItems d.modelDump).isWellKeyed = true ∧ (PyVal.ofItems? sandboxResult).isWellKeyed = true)
  (hfaithful : (PyVal.ofItems d.modelDump).isFaithful = true ∧ (PyVal.ofItems? sandboxResult).isFaithful = true)
  (hcall : logger.logCall P py file context request d sandboxResult recordId timestamp = .ok (file', logger', record))
include hkeys hfaithful hcall

/-- What is logged faithfully continues the chain. -/
theorem logCall_faithful (hP : P.Stores) {rs : List AuditRecord} (hlog : Holds P file logger.prevHash rs) :
    Holds P file' logger'.prevHash (rs ++ [record.reread]) := by
  obtain ⟨r, hr, happ⟩ := logCall_ok hcall
  have hnames : (r.parameters.map Prod.fst).Nodup := by
    rw [(redactRequest_names hr).2]
    exact request.parameters.nodup
  have hwell := isWellKeyed_record (r := recordOfCall context r d sandboxResult recordId timestamp) hnames hkeys.1 hkeys.2
  have hwhole : (recordOfCall context r d sandboxResult recordId timestamp).isFaithful = true :=
    Bool.and_eq_true_iff.2 hfaithful
  exact append_faithful hP hlog hwell hwhole happ

/-- What is logged faithfully is read back as the same JSON. -/
theorem reread_of_logCall : (PyVal.ofItems record.reread.decision).toJson = (PyVal.ofItems d.modelDump).toJson ∧
    (PyVal.ofItems? record.reread.sandboxResult).toJson = (PyVal.ofItems? sandboxResult).toJson := by
  obtain ⟨r, -, happ⟩ := logCall_ok hcall
  obtain ⟨-, hhash, -⟩ := append_links happ
  obtain ⟨-, hdecision, hsandbox⟩ := logCall_record hcall
  constructor
  · rw [AuditRecord.reread, ← reread_ofItems, hdecision]
    refine reread_of_hash hhash (f := "decision") ?_ hkeys.1 hfaithful.1
    rw [← hdecision]
    simp [AuditRecord.fields]
  · rw [AuditRecord.reread, ← reread_ofItems?, hsandbox]
    refine reread_of_hash hhash (f := "sandbox_result") ?_ hkeys.2 hfaithful.2
    rw [← hsandbox]
    simp [AuditRecord.fields]

end Faithfully

lemma isFaithful_float_iff (x : JFloat) : (PyVal.float x).isFaithful = true ↔ ∃ y, x = .finite y := by
  cases x with
  | finite y => exact iff_of_true rfl ⟨y, rfl⟩
  | _ => exact iff_of_false Bool.false_ne_true (by simp)

lemma isFaithful_iff {built : AuditRecord} (hdecision : built.decision = d.modelDump)
    (hsandbox : built.sandboxResult = s.map SandboxResult.modelDump) : built.isFaithful = true ↔ Faithful d s := by
  rw [AuditRecord.isFaithful, Bool.and_eq_true, hdecision, hsandbox]
  refine and_congr ?_ ?_
  · cases hm : d.modifiedParameters with
    | none =>
      simp [PolicyDecision.modelDump, isFaithful_ofItems, isFaithful_ofStrings, PyVal.isFaithful, hm, PyVal.ofItems?]
    | some m =>
      simp [PolicyDecision.modelDump, isFaithful_ofItems, isFaithful_ofStrings, PyVal.isFaithful, hm, PyVal.ofItems?]
  · cases s with
    | none => exact iff_of_true rfl (by simp)
    | some r =>
      have hall : (PyVal.ofItems? ((some r).map SandboxResult.modelDump)).isFaithful =
          ((PyVal.float r.durationMs).isFaithful && true) := isFaithful_ofItems r.modelDump
      rw [hall, Bool.and_true, isFaithful_float_iff]
      exact ⟨fun hfinite _ heq => Option.some.inj heq ▸ hfinite, fun h => h r rfl⟩

/-- **The hashed form and the stored form of a call's record agree exactly if they are faithful.** -/
theorem stored_as_hashed_iff (hP : P.Stores) {rs : List AuditRecord} (hlog : Holds P file logger.prevHash rs)
    (hd : WellKeyed d)
    (hcall : logger.logCall P py file context request d (s.map SandboxResult.modelDump) recordId timestamp
      = .ok (file', logger', record))
    (hcoll : ∀ b b', hashInput logger.prevHash record = .ok b → hashInput logger.prevHash record.reread = .ok b' →
      P.sha256.hexdigest b = P.sha256.hexdigest b' → b = b') :
    (∃ n f, verifyChain P file' = .ok ⟨true, n, f⟩) ↔ Faithful d s := by
  obtain ⟨r, hr, happ⟩ := logCall_ok hcall
  have hnames : (r.parameters.map Prod.fst).Nodup := by
    rw [(redactRequest_names hr).2]
    exact request.parameters.nodup
  have hkeys := isWellKeyed_record (r := recordOfCall context r d (s.map SandboxResult.modelDump) recordId timestamp) hnames
    (isWellKeyed_modelDump hd) (isWellKeyed_sandbox s)
  rw [append_accepted_iff hP hlog hkeys happ hcoll, isFaithful_iff rfl rfl]

end LogCall

/-! ### Keys that are numbers -/

/-- An engine has capped two numbered quotas. -/
def quotaDecision (low high : ℤ) : PolicyDecision where
  allowed := true
  reason := "capped"
  modifiedParameters := some ⟨[("quota", .dict [(.int low, .str "low"), (.int high, .str "high")])], by simp⟩

def quotaRecord (low high : ℤ) : AuditRecord := { sampleRecord with decision := (quotaDecision low high).modelDump }

/-- The digests of some inputs, and the digest `other` of every other one. -/
def sha256Of (table : List (Except Exc ByteArray × String)) (other : String)
    (hlength : ∀ d ∈ other :: table.map Prod.snd, d.toList.length = 64) : Sha256 where
  hexdigest b := ((table.find? fun row => row.1.map ByteArray.data = .ok b.data).map Prod.snd).getD other
  length_hexdigest b := by
    refine hlength _ ?_
    cases hrow : table.find? fun row => row.1.map ByteArray.data = .ok b.data with
    | none => exact List.mem_cons_self
    | some row => exact List.mem_cons_of_mem _ (List.mem_map_of_mem (List.mem_of_find?_eq_some hrow))

/-- The digest of the record whose quotas are numbered 1 and 2. -/
def inOrderHash : String := "5a35c0174fb173e334dcbb38e54e27dc921837adfcf07c73850a26a0f63c8f6e"

/-- The digest of the record whose quotas are numbered 2 and 10. -/
def outOfOrderHash : String := "ff27af6f0a753d2bf75c9b9c4c62b50b7eb2fd0ff6fc570947c572052c9b3538"

/-- The digest of the same record with its keys sorted as texts. -/
def resortedHash : String := "a31ca9810eb02b3cf7b9d926eba84c5358810d2659a7b6c6bbfef0ffe015332c"

def inOrderSha256 : Sha256 :=
  sha256Of [(hashInput GENESIS_HASH (quotaRecord 1 2), inOrderHash)] resortedHash (by decide +kernel)

def outOfOrderSha256 : Sha256 :=
  sha256Of [(hashInput GENESIS_HASH (quotaRecord 2 10), outOfOrderHash)] resortedHash (by decide +kernel)

def quotaCaller : ExecutionContext where
  userId := "u"
  agentId := "a"
  sessionId := "s"
  roles := ["dev"]

def quotaRequest : ToolRequest where
  toolName := "t"
  functionName := "f"
  parameters := Dict.empty
  callId := "c1"

def freshLogger : HashChainedJSONLLogger := ⟨true, [], GENESIS_HASH⟩

/-- The call is logged on a fresh file. -/
lemma quota_logged {P : Platform} (hP : P.Stores) (py : PyStr) (low high : ℤ)
    (htext : (quotaRecord low high).payload.dumps.isSome = true) (hstorable : (quotaRecord low high).isStorable = true) :
    ∃ file logger d,
      freshLogger.append P none (quotaRecord low high) = .ok (file, logger, { quotaRecord low high with recordHash := d }) ∧
      freshLogger.logCall P py none quotaCaller quotaRequest (quotaDecision low high)
          ((none : Option SandboxResult).map SandboxResult.modelDump) "r1" "2024-01-01T00:00:00Z" =
        .ok (file, logger, { quotaRecord low high with recordHash := d }) := by
  obtain ⟨text, htext⟩ := Option.isSome_iff_exists.1 htext
  obtain ⟨d, hd⟩ : ∃ d, computeRecordHash P GENESIS_HASH (quotaRecord low high) = .ok d :=
    ⟨_, by rw [computeRecordHash, hashInput, canonicalBytes, htext]; rfl⟩
  obtain ⟨line, hdump, -⟩ := hP { quotaRecord low high with recordHash := d } hstorable
  have happ : freshLogger.append P none (quotaRecord low high) = _ := append_eq hd hdump
  exact ⟨_, _, d, happ, (logCall_of_redacted (r := ⟨"t", "f", "c1", []⟩) rfl _ _ _ _ _ _).trans happ⟩

/-- Two inputs that have one digest are the same, if one of them is in the table. -/
lemma sha256Of_inj {table : List (Except Exc ByteArray × String)} {other : String}
    {hlength : ∀ d ∈ other :: table.map Prod.snd, d.toList.length = 64} (hnodup : (other :: table.map Prod.snd).Nodup)
    {input : Except Exc ByteArray} {d : String} (hmem : (input, d) ∈ table) {b b' : ByteArray} (hb : input = .ok b)
    (h : (sha256Of table other hlength).hexdigest b = (sha256Of table other hlength).hexdigest b') : b = b' := by
  have hfound : ∀ {b : ByteArray} {row : Except Exc ByteArray × String},
      table.find? (fun row => row.1.map ByteArray.data = .ok b.data) = some row → row.1 = .ok b := by
    intro b row hrow
    have hdata : row.1.map ByteArray.data = .ok b.data := by simpa using List.find?_some hrow
    cases hinput : row.1 with
    | error e => simp [hinput, Except.map] at hdata
    | ok b' =>
      rw [hinput] at hdata
      rw [ByteArray.ext (Except.ok.inj hdata)]
  obtain ⟨hother, hdigests⟩ := List.nodup_cons.1 hnodup
  obtain ⟨row, hrow⟩ : ∃ row, table.find? (fun row => row.1.map ByteArray.data = .ok b.data) = some row := by
    rw [← Option.isSome_iff_exists, List.find?_isSome]
    exact ⟨(input, d), hmem, by simp [hb, Except.map]⟩
  have hrow' := List.mem_of_find?_eq_some hrow
  simp only [sha256Of, hrow, Option.map_some, Option.getD_some] at h
  cases hfind : table.find? (fun row => row.1.map ByteArray.data = .ok b'.data) with
  | none =>
    rw [hfind] at h
    have heq : row.2 = other := h
    exact absurd (heq ▸ List.mem_map_of_mem hrow') hother
  | some row₂ =>
    rw [hfind] at h
    obtain rfl := List.inj_on_of_nodup_map hdigests hrow' (List.mem_of_find?_eq_some hfind) h
    exact Except.ok.inj ((hfound hrow).symm.trans (hfound hfind))

lemma inOrderSha256_inj {b b' : ByteArray} (hb : hashInput GENESIS_HASH (quotaRecord 1 2) = .ok b)
    (h : inOrderSha256.hexdigest b = inOrderSha256.hexdigest b') : b = b' :=
  sha256Of_inj (by decide) List.mem_cons_self hb h

lemma outOfOrderSha256_inj {b b' : ByteArray} (hb : hashInput GENESIS_HASH (quotaRecord 2 10) = .ok b)
    (h : outOfOrderSha256.hexdigest b = outOfOrderSha256.hexdigest b') : b = b' :=
  sha256Of_inj (by decide) List.mem_cons_self hb h

theorem stored_as_hashed_iff_inOrder : ∃ file logger record,
    freshLogger.logCall (storingPlatform inOrderSha256) ⟨fun _ => "", fun _ => false, fun _ _ => rfl⟩ none quotaCaller quotaRequest
        (quotaDecision 1 2) ((none : Option SandboxResult).map SandboxResult.modelDump) "r1" "2024-01-01T00:00:00Z" =
      .ok (file, logger, record) ∧
      ∃ n f, verifyChain (storingPlatform inOrderSha256) file = .ok ⟨true, n, f⟩ := by
  have hP := storingPlatform_stores inOrderSha256
  obtain ⟨file, logger, d, -, hcall⟩ :=
    quota_logged hP ⟨fun _ => "", fun _ => false, fun _ _ => rfl⟩ 1 2 (by decide +kernel) (by decide +kernel)
  have hvalues : ∀ m, (quotaDecision 1 2).modifiedParameters = some m → ∀ p ∈ m.items,
      p.2.isWellKeyed = true ∧ p.2.isFaithful = true := by
    intro m hm p hp
    obtain rfl := Option.some.inj hm
    obtain rfl := List.mem_singleton.1 hp
    decide +kernel
  refine ⟨file, logger, _, hcall, ?_⟩
  refine (stored_as_hashed_iff hP (holds_fresh _) (fun m hm p hp => (hvalues m hm p hp).1) hcall ?_).2 ⟨?_, by simp⟩
  · intro b b' hb _ hdigest
    exact inOrderSha256_inj hb hdigest
  · intro m hm p hp
    exact (hvalues m hm p hp).2

/-- The quotas are hashed in the order 2, 10, and come back in the order 10, 2. -/
theorem numbered_keys_break_chain : ∃ file logger record,
    freshLogger.logCall (storingPlatform outOfOrderSha256) ⟨fun _ => "", fun _ => false, fun _ _ => rfl⟩ none quotaCaller quotaRequest
        (quotaDecision 2 10) ((none : Option SandboxResult).map SandboxResult.modelDump) "r1" "2024-01-01T00:00:00Z" =
      .ok (file, logger, record) ∧
      ¬ ∃ n f, verifyChain (storingPlatform outOfOrderSha256) file = .ok ⟨true, n, f⟩ := by
  have hP := storingPlatform_stores outOfOrderSha256
  obtain ⟨file, logger, d, happ, hcall⟩ :=
    quota_logged hP ⟨fun _ => "", fun _ => false, fun _ _ => rfl⟩ 2 10 (by decide +kernel) (by decide +kernel)
  have hkeys : (quotaRecord 2 10).isWellKeyed = true := by decide +kernel
  have hnot : ¬ (quotaRecord 2 10).isFaithful = true := by decide +kernel
  refine ⟨file, logger, _, hcall, fun hverify => hnot ?_⟩
  refine (append_accepted_iff hP (holds_fresh _) hkeys happ ?_).1 hverify
  intro b b' hb _ hdigest
  exact outOfOrderSha256_inj hb hdigest

end Audit

end Aimw
