import Aimw.Audit.Chain
import Aimw.Audit.Codec

/-!
# What comes back from the file

The hash of a record covers what `json.dumps` makes of it, and the file holds what pydantic makes of it.  Pydantic
writes a float that is not finite as null and every key as a string, so what is read back can be another value
(`PyVal.reread`).  A record whose values are `Stable` comes back with the same hash.
-/

namespace Aimw

open Lib Audit

/-! ## Values -/

def PyKey.isNaN : PyKey → Bool
  | .float .nan => true
  | _ => false

@[simp] lemma PyKey.isNaN_str (s : String) : (PyKey.str s).isNaN = false := rfl

/-- The keys are written alike; several NaN objects, which Python tells apart, are left out. -/
def PyKey.clashes (k l : PyKey) : Bool := keyText k == keyText l && !(k.isNaN && l.isNaN)

mutual
/-- The value that pydantic reads back from the JSON it wrote; of several NaN keys, the last one. -/
def PyVal.reread : PyVal → PyVal
  | .none => .none
  | .bool b => .bool b
  | .int i => .int i
  | .float (.finite x) => .float (.finite x)
  | .float _ => .none
  | .str s => .str s
  | .list xs => .list (rereadList xs)
  | .dict items => .dict (rereadItems items)
  | .object n => .object n
def rereadList : List PyVal → List PyVal
  | [] => []
  | x :: xs => x.reread :: rereadList xs
def rereadItems : List (PyKey × PyVal) → List (PyKey × PyVal)
  | [] => []
  | (k, x) :: items =>
    if k.isNaN && items.any (fun p => p.1.isNaN) then rereadItems items
    else (.str (keyText k), x.reread) :: rereadItems items
end

mutual
/-- JSON can hold the value: no foreign object, only integers that `str()` writes, and no two keys that are written
alike. -/
def PyVal.isStorable : PyVal → Bool
  | .none => true
  | .bool _ => true
  | .int i => fitsStr i
  | .float _ => true
  | .str _ => true
  | .list xs => areStorable xs
  | .dict items => areStorableItems items
  | .object _ => false
def areStorable : List PyVal → Bool
  | [] => true
  | x :: xs => x.isStorable && areStorable xs
def areStorableItems : List (PyKey × PyVal) → Bool
  | [] => true
  | (k, x) :: items =>
    k.fits && !(items.any fun p => p.1.clashes k) && x.isStorable && areStorableItems items
end

/-- A dictionary that `json.dumps` takes holds values that it takes. -/
lemma exists_toJson_of_mem {items : List (String × PyVal)} {j : Json} (h : (PyVal.ofItems items).toJson = some j)
    {p : String × PyVal} (hp : p ∈ items) : ∃ k, p.2.toJson = some k := by
  rw [PyVal.ofItems, PyVal.toJson] at h
  obtain ⟨ms, hms, -⟩ := Option.bind_eq_some_iff.1 h
  clear h
  induction items generalizing ms with
  | nil => cases hp
  | cons q items ih =>
    obtain ⟨-, k, ms', hk, hms', -⟩ := toJsonItems_cons_eq_some_iff.1 hms
    rcases List.mem_cons.1 hp with rfl | hp
    · exact ⟨k, hk⟩
    · exact ih hp ms' hms'

/-- The value can be stored, and `json.dumps` makes the same of it before and after. -/
def PyVal.Stable (x : PyVal) : Prop := x.isStorable = true ∧ x.reread.toJson = x.toJson

mutual
theorem reread_of_isNative (x : PyVal) (h : x.isNative = true) : x.reread = x := by
  match x with
  | .none => rfl
  | .bool _ => rfl
  | .int _ => rfl
  | .float (.finite _) => rfl
  | .float .nan => simp [PyVal.isNative] at h
  | .float .inf => simp [PyVal.isNative] at h
  | .float .negInf => simp [PyVal.isNative] at h
  | .str _ => rfl
  | .list xs =>
    rw [PyVal.reread, rereadList_of_areNative xs (by simpa only [PyVal.isNative] using h)]
  | .dict items =>
    rw [PyVal.reread, rereadItems_of_areNativeItems items (by simpa only [PyVal.isNative] using h)]
  | .object _ => simp [PyVal.isNative] at h
theorem rereadList_of_areNative (xs : List PyVal) (h : areNative xs = true) : rereadList xs = xs := by
  match xs with
  | [] => rfl
  | x :: xs =>
    simp only [areNative, Bool.and_eq_true] at h
    rw [rereadList, reread_of_isNative x h.1, rereadList_of_areNative xs h.2]
theorem rereadItems_of_areNativeItems (items : List (PyKey × PyVal)) (h : areNativeItems items = true) :
    rereadItems items = items := by
  match items with
  | [] => rfl
  | (.str k, x) :: items =>
    simp only [areNativeItems, Bool.and_eq_true] at h
    rw [rereadItems, PyKey.isNaN_str, Bool.false_and, if_neg Bool.false_ne_true, reread_of_isNative x h.1.2,
      rereadItems_of_areNativeItems items h.2, keyText]
  | (.int _, _) :: _ => simp [areNativeItems, PyKey.asStr] at h
  | (.bool _, _) :: _ => simp [areNativeItems, PyKey.asStr] at h
  | (.float _, _) :: _ => simp [areNativeItems, PyKey.asStr] at h
  | (.none, _) :: _ => simp [areNativeItems, PyKey.asStr] at h
end

lemma keys_of_areNativeItems {items : List (PyKey × PyVal)} (h : areNativeItems items = true) :
    ∀ p ∈ items, ∃ s, p.1 = .str s := by
  induction items with
  | nil => simp
  | cons p items ih =>
    obtain ⟨k, x⟩ := p
    simp only [areNativeItems, Bool.and_eq_true] at h
    refine List.forall_mem_cons.2 ⟨?_, ih h.2⟩
    cases k with
    | str s => exact ⟨s, rfl⟩
    | int i => simp [PyKey.asStr] at h
    | bool b => simp [PyKey.asStr] at h
    | float x => simp [PyKey.asStr] at h
    | none => simp [PyKey.asStr] at h

mutual
theorem isStorable_of_isNative (x : PyVal) (h : x.isNative = true) : x.isStorable = true := by
  match x with
  | .none => rfl
  | .bool _ => rfl
  | .int _ => exact h
  | .float _ => rfl
  | .str _ => rfl
  | .list xs =>
    rw [PyVal.isStorable]
    exact areStorable_of_areNative xs (by simpa only [PyVal.isNative] using h)
  | .dict items =>
    rw [PyVal.isStorable]
    exact areStorableItems_of_areNativeItems items (by simpa only [PyVal.isNative] using h)
  | .object _ => simp [PyVal.isNative] at h
theorem areStorable_of_areNative (xs : List PyVal) (h : areNative xs = true) : areStorable xs = true := by
  match xs with
  | [] => rfl
  | x :: xs =>
    simp only [areNative, Bool.and_eq_true] at h
    simp only [areStorable, isStorable_of_isNative x h.1, areStorable_of_areNative xs h.2, Bool.and_self]
theorem areStorableItems_of_areNativeItems (items : List (PyKey × PyVal)) (h : areNativeItems items = true) :
    areStorableItems items = true := by
  match items with
  | [] => rfl
  | (k, x) :: items =>
    have hkeys := keys_of_areNativeItems h
    simp only [areNativeItems, Bool.and_eq_true] at h
    obtain ⟨⟨⟨-, hnew⟩, hx⟩, hitems⟩ := h
    have htexts : (items.any fun p => p.1.clashes k) = false := by
      obtain ⟨s, rfl⟩ := hkeys (k, x) List.mem_cons_self
      refine List.any_eq_false.2 fun p hp heq => ?_
      obtain ⟨t, ht⟩ := hkeys p (List.mem_cons_of_mem _ hp)
      have hst : t = s := by simpa [ht, PyKey.clashes, keyText] using heq
      have hnew : ∀ k x, (k, x) ∈ items → ¬ k = .str s := by simpa using hnew
      exact hnew p.1 p.2 hp (by rw [ht, hst])
    have hfits : k.fits = true := by
      obtain ⟨s, rfl⟩ := hkeys (k, x) List.mem_cons_self
      rfl
    simp only [areStorableItems, hfits, htexts, isStorable_of_isNative x hx,
      areStorableItems_of_areNativeItems items hitems, Bool.not_false, Bool.and_self]
end

theorem stable_of_isNative {x : PyVal} (h : x.isNative = true) : x.Stable :=
  ⟨isStorable_of_isNative x h, by rw [reread_of_isNative x h]⟩

mutual
/-- What comes back is plain data. -/
lemma isPlain_reread (x : PyVal) (h : x.isStorable = true) : x.reread.isPlain = true := by
  match x with
  | .none => rfl
  | .bool _ => rfl
  | .int _ => exact h
  | .float (.finite _) => rfl
  | .float .nan => rfl
  | .float .inf => rfl
  | .float .negInf => rfl
  | .str _ => rfl
  | .list xs =>
    rw [PyVal.reread, PyVal.isPlain]
    exact arePlain_rereadList xs (by simpa only [PyVal.isStorable] using h)
  | .dict items =>
    rw [PyVal.reread, PyVal.isPlain]
    exact arePlainItems_rereadItems items (by simpa only [PyVal.isStorable] using h)
  | .object _ => simp [PyVal.isStorable] at h
lemma arePlain_rereadList (xs : List PyVal) (h : areStorable xs = true) : arePlain (rereadList xs) = true := by
  match xs with
  | [] => rfl
  | x :: xs =>
    simp only [areStorable, Bool.and_eq_true] at h
    simp only [rereadList, arePlain, isPlain_reread x h.1, arePlain_rereadList xs h.2, Bool.and_self]
lemma arePlainItems_rereadItems (items : List (PyKey × PyVal)) (h : areStorableItems items = true) :
    arePlainItems (rereadItems items) = true := by
  match items with
  | [] => rfl
  | (k, x) :: items =>
    simp only [areStorableItems, Bool.and_eq_true] at h
    rw [rereadItems]
    split_ifs
    · exact arePlainItems_rereadItems items h.2
    · simp only [arePlainItems, PyKey.asStr, Option.isSome_some, isPlain_reread x h.1.2,
        arePlainItems_rereadItems items h.2, Bool.and_self]
end

/-- The members of an object with string keys, read back. -/
def rereadFields (items : List (String × PyVal)) : List (String × PyVal) := items.map fun p => (p.1, p.2.reread)

lemma reread_ofItems (items : List (String × PyVal)) : (PyVal.ofItems items).reread = .ofItems (rereadFields items) := by
  rw [PyVal.ofItems, PyVal.reread]
  congr 1
  induction items with
  | nil => rfl
  | cons p items ih =>
    rw [List.map_cons, rereadItems, ih]
    rfl

lemma reread_ofItems? (items : Option (List (String × PyVal))) :
    (PyVal.ofItems? items).reread = .ofItems? (items.map rereadFields) := by
  cases items with
  | none => rfl
  | some items => exact reread_ofItems items

/-- `json.dumps` of an object depends on what it makes of the members. -/
lemma toJson_ofItems_congr {items items' : List (String × PyVal)}
    (h : List.Forall₂ (fun p q => p.1 = q.1 ∧ p.2.toJson = q.2.toJson) items items') :
    (PyVal.ofItems items).toJson = (PyVal.ofItems items').toJson := by
  have hitems : toJsonItems (items.map fun p => (PyKey.str p.1, p.2)) =
      toJsonItems (items'.map fun p => (PyKey.str p.1, p.2)) := by
    induction h with
    | nil => rfl
    | cons hp _ ih =>
      simp only [List.map_cons, toJsonItems]
      rw [hp.1, hp.2, ih]
  rw [PyVal.ofItems, PyVal.ofItems, PyVal.toJson, PyVal.toJson, hitems]

namespace Audit

/-! ## Records -/

def AuditRecord.reread (r : AuditRecord) : AuditRecord :=
  { r with decision := rereadFields r.decision, sandboxResult := r.sandboxResult.map rereadFields }

def AuditRecord.isStorable (r : AuditRecord) : Bool :=
  (PyVal.ofItems r.decision).isStorable && (PyVal.ofItems? r.sandboxResult).isStorable

/-- The values of the record come back as the same JSON. -/
def AuditRecord.Stable (r : AuditRecord) : Prop :=
  (PyVal.ofItems r.decision).Stable ∧ (PyVal.ofItems? r.sandboxResult).Stable

/-- Pydantic writes every record that JSON can hold as one line of JSON, and reads it back as `reread` says. -/
def Platform.Stores (P : Platform) : Prop :=
  ∀ r : AuditRecord, r.isStorable = true →
    ∃ line, P.modelDumpJson r = .ok line ∧ JsonLine line ∧ P.modelValidateJson line = .ok r.reread

/-- What pydantic reads is plain data. -/
def Platform.ReadsPlain (P : Platform) : Prop :=
  ∀ line r, P.modelValidateJson line = .ok r →
    (PyVal.ofItems r.decision).isPlain = true ∧ (PyVal.ofItems? r.sandboxResult).isPlain = true

lemma AuditRecord.Stable.isStorable {r : AuditRecord} (h : r.Stable) : r.isStorable = true := by
  rw [AuditRecord.isStorable, h.1.1, h.2.1, Bool.and_self]

theorem stable_of_isNative_record {r : AuditRecord} (h : r.isNative = true) : r.Stable := by
  rw [AuditRecord.isNative, Bool.and_eq_true] at h
  exact ⟨stable_of_isNative h.1, stable_of_isNative h.2⟩

lemma rereadFields_of_isNative {items : List (String × PyVal)} (h : (PyVal.ofItems items).isNative = true) :
    rereadFields items = items := by
  have heq : PyVal.ofItems (rereadFields items) = .ofItems items := by rw [← reread_ofItems, reread_of_isNative _ h]
  have hinj : Function.Injective fun p : String × PyVal => (PyKey.str p.1, p.2) := by
    rintro ⟨k, x⟩ ⟨l, y⟩ hxy
    simpa using hxy
  exact hinj.list_map (PyVal.dict.inj heq)

/-- A record of JSON-native values comes back as it was. -/
lemma reread_of_isNative_record {r : AuditRecord} (hr : r.isNative = true) : r.reread = r := by
  rw [AuditRecord.isNative, Bool.and_eq_true] at hr
  have hsandbox : r.sandboxResult.map rereadFields = r.sandboxResult := by
    cases hs : r.sandboxResult with
    | none => rfl
    | some items =>
      rw [hs] at hr
      exact congrArg some (rereadFields_of_isNative hr.2)
  rw [AuditRecord.reread, rereadFields_of_isNative hr.1, hsandbox]

/-- What pydantic stores of JSON-native values, it gives back. -/
theorem Platform.Stores.roundTrips {P : Platform} (hP : P.Stores) : P.RoundTrips := by
  intro r hr
  obtain ⟨line, hdump, hline, hread⟩ := hP r (stable_of_isNative_record hr).isStorable
  exact ⟨line, hdump, hline, by rw [hread, reread_of_isNative_record hr]⟩

/-- The hash of a stable record is the hash of what comes back. -/
theorem computeRecordHash_reread (P : Platform) (h : String) {r : AuditRecord} (hr : r.Stable) :
    computeRecordHash P h r.reread = computeRecordHash P h r := by
  have hpayload : r.reread.payload.toJson = r.payload.toJson := by
    have hdecision : (PyVal.ofItems (rereadFields r.decision)).toJson = (PyVal.ofItems r.decision).toJson := by
      rw [← reread_ofItems]
      exact hr.1.2
    have hsandbox : (PyVal.ofItems? (r.sandboxResult.map rereadFields)).toJson = (PyVal.ofItems? r.sandboxResult).toJson := by
      rw [← reread_ofItems?]
      exact hr.2.2
    apply toJson_ofItems_congr
    exact .cons ⟨rfl, rfl⟩ <| .cons ⟨rfl, rfl⟩ <| .cons ⟨rfl, rfl⟩ <| .cons ⟨rfl, rfl⟩ <| .cons ⟨rfl, rfl⟩ <|
      .cons ⟨rfl, hdecision⟩ <| .cons ⟨rfl, hsandbox⟩ <| .cons ⟨rfl, rfl⟩ .nil
  simp only [computeRecordHash, hashInput, canonicalBytes, PyVal.dumps, hpayload]

/-- The hash of a stable record can be computed. -/
theorem computeRecordHash_ok_of_stable (P : Platform) (h : String) {r : AuditRecord} (hr : r.Stable) :
    ∃ d, computeRecordHash P h r = .ok d := by
  have hdecision : (PyVal.ofItems (rereadFields r.decision)).isPlain = true := by
    rw [← reread_ofItems]
    exact isPlain_reread _ hr.1.1
  have hsandbox : (PyVal.ofItems? (r.sandboxResult.map rereadFields)).isPlain = true := by
    rw [← reread_ofItems?]
    exact isPlain_reread _ hr.2.1
  obtain ⟨j, hj⟩ := Option.isSome_iff_exists.1
    (toJson_isSome r.reread.payload (isPlain_ofItems _ (fields_isPlain_of hdecision hsandbox)))
  rw [← computeRecordHash_reread P h hr]
  exact ⟨_, by simp only [computeRecordHash, hashInput, canonicalBytes, PyVal.dumps, hj, Option.map_some]; rfl⟩

/-! ## The chain on disk -/

/-- The file holds the chain `rs`, which ends at `head`, and what is written next starts a line. -/
structure Holds (P : Platform) (file : Option String) (head : String) (rs : List AuditRecord) : Prop where
  terminated : FileTerminated file
  reads : Reads P (lines file) rs
  linked : Linked (Links P) GENESIS_HASH rs head

section Holds

variable {P : Platform} {file file' : Option String} {head : String} {rs : List AuditRecord}
  {logger logger' : HashChainedJSONLLogger} {record record' : AuditRecord}

lemma holds_fresh (P : Platform) : Holds P none GENESIS_HASH [] :=
  ⟨Or.inl rfl, .nil, .nil _⟩

theorem Holds.verify (h : Holds P file head rs) : verifyChain P file = .ok ⟨true, rs.length, none⟩ :=
  verify_accepts_iff.2 ⟨rs, head, h.reads, h.linked, rfl, rfl⟩

/-- A logger that is opened on the file continues at its head. -/
theorem Holds.init (h : Holds P file head rs) (redactParameters : Bool) (sinks : List BaseAuditSink) :
    HashChainedJSONLLogger.init P file redactParameters sinks = .ok ⟨redactParameters, sinks, head⟩ := by
  rw [HashChainedJSONLLogger.init, loadLastHash_eq, loadLines_of_reads h.reads, ← linked_lastHash h.linked]
  rfl

lemma append_eq {d line : String}
    (hd : computeRecordHash P logger.prevHash { record with prevHash := logger.prevHash } = .ok d)
    (hline : P.modelDumpJson { record with prevHash := logger.prevHash, recordHash := d } = .ok line) :
    logger.append P file record = .ok (some (file.getD "" ++ line ++ "\n"),
      { logger with
        prevHash := d
        sinks := forwardBestEffort logger.sinks { record with prevHash := logger.prevHash, recordHash := d } },
      { record with prevHash := logger.prevHash, recordHash := d }) := by
  simp only [HashChainedJSONLLogger.append, hd, bind, Except.bind, hline]

/-- `append` returns if the hash can be computed and pydantic writes the record. -/
lemma append_ok_iff : (∃ out, logger.append P file record = .ok out) ↔
    ∃ d, computeRecordHash P logger.prevHash { record with prevHash := logger.prevHash } = .ok d ∧
      ∃ line, P.modelDumpJson { record with prevHash := logger.prevHash, recordHash := d } = .ok line := by
  constructor
  · rintro ⟨⟨file', logger', record'⟩, happ⟩
    obtain ⟨d, line, hd, rfl, hline, -⟩ := append_ok happ
    exact ⟨d, hd, line, hline⟩
  · rintro ⟨d, hd, line, hline⟩
    exact ⟨_, append_eq hd hline⟩

/-- What `append` writes: one more line, that holds the record as it comes back. -/
theorem append_writes_of (hterm : FileTerminated file)
    (hstores : ∀ d, ∃ line, P.modelDumpJson { record with prevHash := logger.prevHash, recordHash := d } = .ok line ∧
      JsonLine line ∧
      P.modelValidateJson line = .ok ({ record with prevHash := logger.prevHash, recordHash := d } : AuditRecord).reread)
    (happ : logger.append P file record = .ok (file', logger', record')) :
    FileTerminated file' ∧ ∃ line, lines file' = lines file ++ [line] ∧ RecordLine P line record'.reread := by
  obtain ⟨d, line, -, rfl, hdump, rfl, -⟩ := append_ok happ
  obtain ⟨line', hdump', hline, hread⟩ := hstores d
  obtain rfl := Except.ok.inj (hdump.symm.trans hdump')
  obtain ⟨hlines, hterm'⟩ := lines_append hterm hline
  refine ⟨hterm', line.toList, hlines, ?_, ?_⟩
  · rw [hline.strip_eq]
    exact hline.ne_nil
  · rw [readLine, hline.strip_eq, String.ofList_toList]
    exact hread

theorem append_writes (hP : P.Stores) (hterm : FileTerminated file) (hr : record.isStorable = true)
    (happ : logger.append P file record = .ok (file', logger', record')) :
    FileTerminated file' ∧ ∃ line, lines file' = lines file ++ [line] ∧ RecordLine P line record'.reread :=
  append_writes_of hterm (fun d => hP { record with prevHash := logger.prevHash, recordHash := d } hr) happ

/-- After it the file holds one more record. -/
theorem append_reads (hP : P.Stores) (hterm : FileTerminated file) (hreads : Reads P (lines file) rs)
    (hr : record.isStorable = true) (happ : logger.append P file record = .ok (file', logger', record')) :
    FileTerminated file' ∧ Reads P (lines file') (rs ++ [record'.reread]) := by
  obtain ⟨hterm', line, hlines, hline⟩ := append_writes hP hterm hr happ
  rw [hlines]
  exact ⟨hterm', hreads.append (.record hline.1 hline.2 .nil)⟩

/-- A stable record follows the logger's own hash. -/
theorem append_line (hP : P.Stores) (hterm : FileTerminated file) (hreads : Reads P (lines file) rs)
    (hr : record.Stable) (happ : logger.append P file record = .ok (file', logger', record')) :
    FileTerminated file' ∧ Reads P (lines file') (rs ++ [record'.reread]) ∧
      Links P logger.prevHash record'.reread logger'.prevHash := by
  obtain ⟨hterm', hreads'⟩ := append_reads hP hterm hreads hr.isStorable happ
  obtain ⟨hprev, hhash, hlast⟩ := append_links happ
  have hr' : record'.Stable := by
    rw [append_record happ]
    exact hr
  exact ⟨hterm', hreads', hprev, (computeRecordHash_reread P logger.prevHash hr').trans hhash, hlast⟩

/-- A logger whose cached hash is the head continues the chain. -/
theorem Holds.append (hP : P.Stores) (h : Holds P file logger.prevHash rs) (hr : record.Stable)
    (happ : logger.append P file record = .ok (file', logger', record')) :
    Holds P file' logger'.prevHash (rs ++ [record'.reread]) := by
  obtain ⟨hterm, hreads, hlinks⟩ := append_line hP h.terminated h.reads hr happ
  exact ⟨hterm, hreads, linked_concat_iff.2 ⟨_, h.linked, hlinks⟩⟩

/-- A record that JSON can hold is appended, if its hash can be computed. -/
theorem append_of_hash {d : String} (hP : P.Stores) (logger : HashChainedJSONLLogger) (file : Option String)
    (hr : record.isStorable = true)
    (hd : computeRecordHash P logger.prevHash { record with prevHash := logger.prevHash } = .ok d) :
    ∃ line logger' record', P.modelDumpJson record' = .ok line ∧
      logger.append P file record = .ok (some (file.getD "" ++ line ++ "\n"), logger', record') := by
  obtain ⟨line, hdump, -⟩ := hP { record with prevHash := logger.prevHash, recordHash := d } hr
  exact ⟨line, _, _, hdump, append_eq hd hdump⟩

/-- Stable records are appended. -/
theorem append_succeeds (hP : P.Stores) (logger : HashChainedJSONLLogger) (file : Option String) (hr : record.Stable) :
    ∃ file' logger' record', logger.append P file record = .ok (file', logger', record') := by
  have hr' : ({ record with prevHash := logger.prevHash } : AuditRecord).Stable := hr
  obtain ⟨d, hd⟩ := computeRecordHash_ok_of_stable P logger.prevHash hr'
  obtain ⟨line, logger', record', -, happ⟩ := append_of_hash hP logger file hr.isStorable hd
  exact ⟨_, logger', record', happ⟩

end Holds

/-! ## A platform that stores -/

/-- The platform that writes what comes back, with `sha` for SHA-256. -/
def storingPlatform (sha : Sha256) : Platform where
  sha256 := sha
  modelDumpJson r :=
    if r.isStorable then .ok (String.ofList (encodeVal (.ofItems r.reread.dump)).render)
    else .error (.exception "not JSON serializable")
  modelValidateJson := (codecPlatform sha).modelValidateJson

theorem isPlain_dump_reread {r : AuditRecord} (hr : r.isStorable = true) :
    (PyVal.ofItems r.reread.dump).isPlain = true := by
  rw [AuditRecord.isStorable, Bool.and_eq_true] at hr
  have hdecision : (PyVal.ofItems (rereadFields r.decision)).isPlain = true := by
    rw [← reread_ofItems]
    exact isPlain_reread _ hr.1
  have hsandbox : (PyVal.ofItems? (r.sandboxResult.map rereadFields)).isPlain = true := by
    rw [← reread_ofItems?]
    exact isPlain_reread _ hr.2
  refine isPlain_ofItems _ fun p hp => ?_
  rcases List.mem_append.1 hp with hp | hp
  · exact fields_isPlain_of (r := r.reread) hdecision hsandbox p hp
  · obtain rfl := List.mem_singleton.1 hp
    rfl

theorem storingPlatform_stores (sha : Sha256) : (storingPlatform sha).Stores := by
  intro r hr
  refine ⟨String.ofList (encodeVal (.ofItems r.reread.dump)).render, ?_, jsonLine_render_dump r.reread, ?_⟩
  · simp only [storingPlatform, hr, if_true]
  · rw [show (storingPlatform sha).modelValidateJson = (codecPlatform sha).modelValidateJson from rfl]
    exact modelValidateJson_render sha (isPlain_dump_reread hr)

theorem storingPlatform_readsPlain (sha : Sha256) : (storingPlatform sha).ReadsPlain := by
  intro line r hread
  simp only [storingPlatform, codecPlatform] at hread
  split at hread
  · next r' hr' =>
    obtain rfl := Except.ok.inj hread
    obtain ⟨j, hj, hr'⟩ := Option.bind_eq_some_iff.1 hr'
    exact isPlain_recordOf (isPlain_decodeVal j (intsFit_of_loadsText hj)) hr'
  · cases hread

end Audit

end Aimw
