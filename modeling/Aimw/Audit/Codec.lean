import Aimw.Audit.Record

/-!
# A codec for audit records

A JSON writer and reader of `AuditRecord`s for which `Platform.RoundTrips` holds (`codecPlatform_roundTrips`), over any
SHA-256: fields in the order of the model, compact, unknown keys ignored.  It refuses records of values that are
not JSON-native, and blanks between tokens.
-/

namespace Aimw.Audit

open Lib

/-! ## Values -/

/-- A key as pydantic writes it. -/
def keyText : PyKey → String
  | .str s => s
  | .int i => String.ofList (decimal i)
  | .bool b => if b then "true" else "false"
  | .float (.finite x) => String.ofList x.text
  | .float .nan => "nan"
  | .float .inf => "inf"
  | .float .negInf => "-inf"
  | .none => "None"

mutual
/-- The JSON value with the members in the order of the dictionary. -/
def encodeVal : PyVal → Json
  | .none => .null
  | .bool b => .bool b
  | .int i => .int i
  | .float x => .float x
  | .str s => .str s
  | .list xs => .arr (encodeList xs)
  | .dict items => .obj (encodeItems items)
  | .object _ => .null
def encodeList : List PyVal → List Json
  | [] => []
  | x :: xs => encodeVal x :: encodeList xs
def encodeItems : List (PyKey × PyVal) → List (String × Json)
  | [] => []
  | (k, x) :: items => (keyText k, encodeVal x) :: encodeItems items
end

mutual
def decodeVal : Json → PyVal
  | .null => .none
  | .bool b => .bool b
  | .int i => .int i
  | .float x => .float x
  | .str s => .str s
  | .arr xs => .list (decodeList xs)
  | .obj ms => .dict (decodeItems ms)
def decodeList : List Json → List PyVal
  | [] => []
  | x :: xs => decodeVal x :: decodeList xs
def decodeItems : List (String × Json) → List (PyKey × PyVal)
  | [] => []
  | (k, x) :: ms => (.str k, decodeVal x) :: decodeItems ms
end

mutual
/-- Every integer is short enough to be read. -/
def intsFit : Json → Bool
  | .int i => fitsStr i
  | .arr xs => listFits xs
  | .obj ms => membersFit ms
  | _ => true
def listFits : List Json → Bool
  | [] => true
  | x :: xs => intsFit x && listFits xs
def membersFit : List (String × Json) → Bool
  | [] => true
  | (_, x) :: ms => intsFit x && membersFit ms
end

lemma membersFit_iff {ms : List (String × Json)} : membersFit ms = true ↔ ∀ m ∈ ms, intsFit m.2 = true := by
  induction ms with
  | nil => simp [membersFit]
  | cons m ms ih => rw [membersFit, Bool.and_eq_true, ih, List.forall_mem_cons]

/-- The JSON value of a compact text. -/
def loadsText (text : String) : Option Json :=
  match readValue text.toList.length text.toList with
  | some (j, []) => if intsFit j then some j else none
  | _ => none

/-! ## Records -/

/-- `record.model_dump()`, in the order of the fields. -/
def AuditRecord.dump (r : AuditRecord) : List (String × PyVal) := r.fields ++ [("record_hash", .str r.recordHash)]

def asStr : PyVal → Option String
  | .str s => some s
  | _ => none

def asStrings : PyVal → Option (List String)
  | .list xs => xs.mapM asStr
  | _ => none

/-- A dictionary with string keys. -/
def asItems : PyVal → Option (List (String × PyVal))
  | .dict items => items.mapM fun p => p.1.asStr.map fun k => (k, p.2)
  | _ => none

def asStringItems (x : PyVal) : Option (List (String × String)) :=
  (asItems x).bind fun items => items.mapM fun p => (asStr p.2).map fun s => (p.1, s)

def recordOfContext (x : PyVal) : Option RedactedContext := do
  let items ← asItems x
  some {
    userId := ← (items.lookup "user_id").bind asStr
    agentId := ← (items.lookup "agent_id").bind asStr
    sessionId := ← (items.lookup "session_id").bind asStr
    roles := ← (items.lookup "roles").bind asStrings }

def recordOfRequest (x : PyVal) : Option RedactedRequest := do
  let items ← asItems x
  some {
    toolName := ← (items.lookup "tool_name").bind asStr
    functionName := ← (items.lookup "function_name").bind asStr
    callId := ← (items.lookup "call_id").bind asStr
    parameters := ← (items.lookup "parameters").bind asStringItems }

/-- The sandbox result: absent, null or an object. -/
def recordOfSandboxResult : Option PyVal → Option (Option (List (String × PyVal)))
  | none => some none
  | some .none => some none
  | some x => (asItems x).map some

def recordOf (x : PyVal) : Option AuditRecord := do
  let items ← asItems x
  some {
    recordId := ← (items.lookup "record_id").bind asStr
    timestamp := ← (items.lookup "timestamp").bind asStr
    callId := ← (items.lookup "call_id").bind asStr
    context := ← (items.lookup "context").bind recordOfContext
    request := ← (items.lookup "request").bind recordOfRequest
    decision := ← (items.lookup "decision").bind asItems
    sandboxResult := ← recordOfSandboxResult (items.lookup "sandbox_result")
    prevHash := ← (items.lookup "prev_hash").bind asStr
    recordHash := ← (items.lookup "record_hash").bind asStr }

/-- The platform with this codec, and `sha` for SHA-256. -/
def codecPlatform (sha : Sha256) : Platform where
  sha256 := sha
  modelDumpJson r :=
    if r.isNative then .ok (String.ofList (encodeVal (.ofItems r.dump)).render)
    else .error (.exception "not JSON-native")
  modelValidateJson line :=
    match (loadsText line).bind fun j => recordOf (decodeVal j) with
    | some r => .ok r
    | none => .error (.exception "validation error")

/-! ## Round trip -/

mutual
lemma decodeVal_encodeVal (x : PyVal) (h : x.isPlain = true) : decodeVal (encodeVal x) = x := by
  match x with
  | .none => rfl
  | .bool _ => rfl
  | .int _ => rfl
  | .float _ => rfl
  | .str _ => rfl
  | .list xs =>
    simp only [PyVal.isPlain] at h
    simp only [encodeVal, decodeVal, decodeList_encodeList xs h]
  | .dict items =>
    simp only [PyVal.isPlain] at h
    simp only [encodeVal, decodeVal, decodeItems_encodeItems items h]
  | .object _ => simp [PyVal.isPlain] at h
lemma decodeList_encodeList (xs : List PyVal) (h : arePlain xs = true) : decodeList (encodeList xs) = xs := by
  match xs with
  | [] => rfl
  | x :: xs =>
    simp only [arePlain, Bool.and_eq_true] at h
    simp only [encodeList, decodeList, decodeVal_encodeVal x h.1, decodeList_encodeList xs h.2]
lemma decodeItems_encodeItems (items : List (PyKey × PyVal)) (h : arePlainItems items = true) :
    decodeItems (encodeItems items) = items := by
  match items with
  | [] => rfl
  | (.str k, x) :: items =>
    simp only [arePlainItems, Bool.and_eq_true] at h
    simp only [encodeItems, decodeItems, keyText, decodeVal_encodeVal x h.1.2, decodeItems_encodeItems items h.2]
  | (.int _, _) :: _ => simp [arePlainItems, PyKey.asStr] at h
  | (.bool _, _) :: _ => simp [arePlainItems, PyKey.asStr] at h
  | (.float _, _) :: _ => simp [arePlainItems, PyKey.asStr] at h
  | (.none, _) :: _ => simp [arePlainItems, PyKey.asStr] at h
end

mutual
lemma intsFit_encodeVal (x : PyVal) (h : x.isPlain = true) : intsFit (encodeVal x) = true := by
  match x with
  | .none => rfl
  | .bool _ => rfl
  | .int _ => exact h
  | .float _ => rfl
  | .str _ => rfl
  | .list xs => exact listFits_encodeList xs h
  | .dict items => exact membersFit_encodeItems items h
  | .object _ => rfl
lemma listFits_encodeList (xs : List PyVal) (h : arePlain xs = true) : listFits (encodeList xs) = true := by
  match xs with
  | [] => rfl
  | x :: xs =>
    rw [arePlain, Bool.and_eq_true] at h
    rw [encodeList, listFits, intsFit_encodeVal x h.1, listFits_encodeList xs h.2, Bool.and_self]
lemma membersFit_encodeItems (items : List (PyKey × PyVal)) (h : arePlainItems items = true) :
    membersFit (encodeItems items) = true := by
  match items with
  | [] => rfl
  | (k, x) :: items =>
    rw [arePlainItems, Bool.and_eq_true, Bool.and_eq_true] at h
    rw [encodeItems, membersFit, intsFit_encodeVal x h.1.2, membersFit_encodeItems items h.2, Bool.and_self]
end

lemma loadsText_render {j : Json} (h : intsFit j = true) : loadsText (String.ofList j.render) = some j := by
  have hread := readValue_render j [] (by simp [Stops]) _ le_rfl
  rw [List.append_nil] at hread
  simp [loadsText, hread, h]

lemma intsFit_of_loadsText {text : String} {j : Json} (h : loadsText text = some j) : intsFit j = true := by
  unfold loadsText at h
  split at h
  · split_ifs at h with hfits
    rwa [← Option.some.inj h]
  · cases h

lemma mapM_map_some {α β γ : Type} {f : α → β} {g : β → Option γ} {h : α → γ} (hfg : ∀ a, g (f a) = some (h a))
    (l : List α) : (l.map f).mapM g = some (l.map h) := by
  induction l with
  | nil => rfl
  | cons a l ih => simp [List.mapM_cons, hfg, ih]

lemma forall₂_of_mapM {α β : Type} {f : α → Option β} {l : List α} {bs : List β} (h : l.mapM f = some bs) :
    List.Forall₂ (fun a b => f a = some b) l bs := by
  induction l generalizing bs with
  | nil =>
    obtain rfl : [] = bs := Option.some.inj h
    exact .nil
  | cons a l ih =>
    rw [List.mapM_cons] at h
    obtain ⟨b, hb, h⟩ := Option.bind_eq_some_iff.1 h
    obtain ⟨bs', hbs, h⟩ := Option.bind_eq_some_iff.1 h
    obtain rfl := Option.some.inj h
    exact .cons hb (ih hbs)

lemma asStrings_ofStrings (l : List String) : asStrings (.ofStrings l) = some l := by
  simpa [asStrings, PyVal.ofStrings] using mapM_map_some (f := PyVal.str) (g := asStr) (h := id) (fun _ => rfl) l

lemma asItems_ofItems (items : List (String × PyVal)) : asItems (.ofItems items) = some items := by
  simpa [asItems, PyVal.ofItems] using
    mapM_map_some (f := fun p : String × PyVal => (PyKey.str p.1, p.2)) (h := id) (fun _ => rfl) items

lemma asStringItems_ofItems (l : List (String × String)) :
    asStringItems (.ofItems (l.map fun p => (p.1, .str p.2))) = some l := by
  rw [asStringItems, asItems_ofItems, Option.bind_some]
  simpa using mapM_map_some (f := fun p : String × String => (p.1, PyVal.str p.2)) (h := id) (fun _ => rfl) l

/-- A record is found again in its dump. -/
theorem recordOf_dump (r : AuditRecord) : recordOf (.ofItems r.dump) = some r := by
  have hsand : recordOfSandboxResult (some (.ofItems? r.sandboxResult)) = some r.sandboxResult := by
    cases r.sandboxResult with
    | none => rfl
    | some s => exact congrArg (Option.map some) (asItems_ofItems s)
  have hcontext : recordOfContext (.ofItems
      [("user_id", .str r.context.userId), ("agent_id", .str r.context.agentId),
        ("session_id", .str r.context.sessionId), ("roles", .ofStrings r.context.roles)]) = some r.context := by
    simp [recordOfContext, asItems_ofItems, List.lookup_cons, asStr, asStrings_ofStrings]
  have hrequest : recordOfRequest (.ofItems
      [("tool_name", .str r.request.toolName), ("function_name", .str r.request.functionName),
        ("call_id", .str r.request.callId),
        ("parameters", .ofItems (r.request.parameters.map fun p => (p.1, .str p.2)))]) = some r.request := by
    simp [recordOfRequest, asItems_ofItems, List.lookup_cons, asStr, asStringItems_ofItems]
  simp [recordOf, AuditRecord.dump, AuditRecord.fields, asItems_ofItems, List.lookup_cons, asStr, hcontext, hrequest, hsand]

mutual
lemma isPlain_decodeVal (j : Json) (h : intsFit j = true) : (decodeVal j).isPlain = true := by
  match j with
  | .null => rfl
  | .bool _ => rfl
  | .int _ => exact h
  | .float _ => rfl
  | .str _ => rfl
  | .arr xs => exact arePlain_decodeList xs h
  | .obj ms => exact arePlainItems_decodeItems ms h
lemma arePlain_decodeList (xs : List Json) (h : listFits xs = true) : arePlain (decodeList xs) = true := by
  match xs with
  | [] => rfl
  | x :: xs =>
    rw [listFits, Bool.and_eq_true] at h
    rw [decodeList, arePlain, isPlain_decodeVal x h.1, arePlain_decodeList xs h.2, Bool.and_self]
lemma arePlainItems_decodeItems (ms : List (String × Json)) (h : membersFit ms = true) :
    arePlainItems (decodeItems ms) = true := by
  match ms with
  | [] => rfl
  | (k, x) :: ms =>
    rw [membersFit, Bool.and_eq_true] at h
    rw [decodeItems, arePlainItems, isPlain_decodeVal x h.1, arePlainItems_decodeItems ms h.2]
    rfl
end

lemma isPlain_of_mem {items : List (PyKey × PyVal)} (h : arePlainItems items = true) :
    ∀ p ∈ items, p.2.isPlain = true := by
  induction items with
  | nil => simp
  | cons p items ih =>
    rw [arePlainItems, Bool.and_eq_true, Bool.and_eq_true] at h
    exact List.forall_mem_cons.2 ⟨h.1.2, ih h.2⟩

/-- The values of plain items are plain. -/
lemma isPlain_of_asItems {x : PyVal} (hx : x.isPlain = true) {items : List (String × PyVal)}
    (h : asItems x = some items) : ∀ p ∈ items, p.2.isPlain = true := by
  cases x with
  | dict members =>
    have hmembers := isPlain_of_mem hx
    have hitems := forall₂_of_mapM h
    clear hx h
    induction hitems with
    | nil => simp
    | cons hp _ ih =>
      obtain ⟨k, -, rfl⟩ := Option.map_eq_some_iff.1 hp
      obtain ⟨hm, hmembers⟩ := List.forall_mem_cons.1 hmembers
      exact List.forall_mem_cons.2 ⟨hm, ih hmembers⟩
  | _ => cases h

/-- What `recordOf` takes from plain data is plain. -/
lemma isPlain_recordOf {x : PyVal} (hx : x.isPlain = true) {r : AuditRecord} (h : recordOf x = some r) :
    (PyVal.ofItems r.decision).isPlain = true ∧ (PyVal.ofItems? r.sandboxResult).isPlain = true := by
  have hlookup : ∀ {items : List (String × PyVal)} {k : String} {y : PyVal}, (∀ p ∈ items, p.2.isPlain = true) →
      items.lookup k = some y → y.isPlain = true := by
    intro items k y hitems hy
    obtain ⟨before, after, rfl, -⟩ := List.lookup_eq_some_iff.1 hy
    exact hitems (k, y) (by simp)
  unfold recordOf at h
  simp only [bind, Option.bind_eq_some_iff, Option.some.injEq] at h
  obtain ⟨items, hitems, _, -, _, -, _, -, _, -, _, -, decision, ⟨y, hy, hdecision⟩, sandboxResult, hsandbox, _, -, _, -,
    rfl⟩ := h
  have hvalues := isPlain_of_asItems hx hitems
  refine ⟨isPlain_ofItems _ (isPlain_of_asItems (hlookup hvalues hy) hdecision), ?_⟩
  cases hz : items.lookup "sandbox_result" with
  | none =>
    rw [hz] at hsandbox
    obtain rfl := Option.some.inj hsandbox
    rfl
  | some z =>
    rw [hz] at hsandbox
    unfold recordOfSandboxResult at hsandbox
    split at hsandbox
    · cases ‹some z = none›
    · obtain rfl := Option.some.inj hsandbox
      rfl
    · next y _ heq =>
      obtain rfl := Option.some.inj heq
      obtain ⟨out, hout, rfl⟩ := Option.map_eq_some_iff.1 hsandbox
      exact isPlain_ofItems _ (isPlain_of_asItems (hlookup hvalues hz) hout)

/-- What the codec writes of plain data, it reads. -/
theorem modelValidateJson_render (sha : Sha256) {r : AuditRecord} (hplain : (PyVal.ofItems r.dump).isPlain = true) :
    (codecPlatform sha).modelValidateJson (String.ofList (encodeVal (.ofItems r.dump)).render) = .ok r := by
  have hread := loadsText_render (intsFit_encodeVal _ hplain)
  simp [codecPlatform, hread, decodeVal_encodeVal _ hplain, recordOf_dump]

/-- An object that is not empty is written on one line. -/
theorem jsonLine_render (m : String × Json) (ms : List (String × Json)) :
    JsonLine (String.ofList (Json.obj (m :: ms)).render) := by
  have hedges := render_obj_edges m ms
  refine ⟨fun c hc => ?_, ?_, ?_⟩
  · exact render_oneLine _ c (by simpa using hc)
  · simpa using hedges.1
  · simpa using hedges.2

theorem jsonLine_render_dump (r : AuditRecord) : JsonLine (String.ofList (encodeVal (.ofItems r.dump)).render) := by
  obtain ⟨m, ms, hm⟩ : ∃ m ms, encodeVal (.ofItems r.dump) = .obj (m :: ms) := by
    simp [AuditRecord.dump, AuditRecord.fields, PyVal.ofItems, encodeVal, encodeItems]
  rw [hm]
  exact jsonLine_render m ms

/-- **A platform that round-trips.** -/
theorem codecPlatform_roundTrips (sha : Sha256) : (codecPlatform sha).RoundTrips := by
  intro r hr
  have hplain : (PyVal.ofItems r.dump).isPlain = true := by
    refine isPlain_ofItems _ fun p hp => ?_
    rcases List.mem_append.1 hp with hp | hp
    · exact fields_isPlain hr p hp
    · obtain rfl := List.mem_singleton.1 hp
      rfl
  refine ⟨String.ofList (encodeVal (.ofItems r.dump)).render, ?_, jsonLine_render_dump r, ?_⟩
  · simp [codecPlatform, hr]
  · exact modelValidateJson_render sha hplain

end Aimw.Audit
