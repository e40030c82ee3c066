import Aimw.Audit.Located

/-!
# What pydantic takes of a line

Of repeated keys pydantic keeps the last one, it ignores the keys that a model does not have, and it fills in the
defaults: `covered` is what is left of the JSON value.

* `decodeVal_covered` — what is left is the dump of the record that is read;
* `exists_record` — what has the JSON of a record can be read as one.
-/

namespace Aimw.Audit

open Lib

/-! ## What pydantic takes of a JSON value -/

mutual
/-- Of repeated keys, the last one wins. -/
def lastWins : Json → Json
  | .null => .null
  | .bool b => .bool b
  | .int i => .int i
  | .float x => .float x
  | .str s => .str s
  | .arr xs => .arr (lastWinsList xs)
  | .obj ms => .obj (lastWinsMembers ms)
def lastWinsList : List Json → List Json
  | [] => []
  | x :: xs => lastWins x :: lastWinsList xs
def lastWinsMembers : List (String × Json) → List (String × Json)
  | [] => []
  | (k, x) :: ms => if k ∈ ms.map Prod.fst then lastWinsMembers ms else (k, lastWins x) :: lastWinsMembers ms
end

/-- A field of a model, with its default and what is taken of its value. -/
structure ModelField where
  name : String
  default : Option Json := none
  take : Json → Json := id

/-- The value of a field, where no key is repeated. -/
def ModelField.value (ms : List (String × Json)) (f : ModelField) : Option Json :=
  ((ms.lookup f.name).or f.default).map f.take

/-- The members that are fields of the model, in its order. -/
def pick (fields : List ModelField) : Json → Json
  | .obj ms => .obj (fields.filterMap fun f => (f.value ms).map fun x => (f.name, x))
  | j => j

/-- `RedactedContext`. -/
def contextFields : List ModelField :=
  [{ name := "user_id" }, { name := "agent_id" }, { name := "session_id" }, { name := "roles" }]

/-- `RedactedRequest`. -/
def requestFields : List ModelField :=
  [{ name := "tool_name" }, { name := "function_name" }, { name := "call_id" }, { name := "parameters" }]

/-- `AuditRecord`, where the clock shows `now`. -/
def recordFields (now : String) : List ModelField :=
  [{ name := "record_id" }, { name := "timestamp", default := some (.str now) }, { name := "call_id" },
    { name := "context", take := pick contextFields }, { name := "request", take := pick requestFields },
    { name := "decision" }, { name := "sandbox_result", default := some .null }, { name := "prev_hash" },
    { name := "record_hash", default := some (.str "") }]

/-- What pydantic takes of a JSON value for an `AuditRecord`. -/
def covered (now : String) (j : Json) : Json := pick (recordFields now) (lastWins j)

/-- Pydantic reads a text with `loads`, which finds no JSON in the empty one and refuses integers that are too long, and
takes from the JSON value what it knows, if this has the right types. -/
structure Platform.Validates (P : Platform) (loads : String → Option Json) (now : String) : Prop where
  empty : loads "" = none
  fits : ∀ text j, loads text = some j → intsFit j = true
  reads : ∀ text r, P.modelValidateJson text = .ok r ↔
    ∃ j, loads text = some j ∧ recordOf (decodeVal (covered now j)) = some r

mutual
lemma intsFit_lastWins (j : Json) (h : intsFit j = true) : intsFit (lastWins j) = true := by
  match j with
  | .null => rfl
  | .bool _ => rfl
  | .int _ => exact h
  | .float _ => rfl
  | .str _ => rfl
  | .arr xs => exact listFits_lastWinsList xs h
  | .obj ms => exact membersFit_lastWinsMembers ms h
lemma listFits_lastWinsList (xs : List Json) (h : listFits xs = true) : listFits (lastWinsList xs) = true := by
  match xs with
  | [] => rfl
  | x :: xs =>
    rw [listFits, Bool.and_eq_true] at h
    rw [lastWinsList, listFits, intsFit_lastWins x h.1, listFits_lastWinsList xs h.2, Bool.and_self]
lemma membersFit_lastWinsMembers (ms : List (String × Json)) (h : membersFit ms = true) :
    membersFit (lastWinsMembers ms) = true := by
  match ms with
  | [] => rfl
  | (k, x) :: ms =>
    rw [membersFit, Bool.and_eq_true] at h
    rw [lastWinsMembers]
    split_ifs
    · exact membersFit_lastWinsMembers ms h.2
    · rw [membersFit, intsFit_lastWins x h.1, membersFit_lastWinsMembers ms h.2, Bool.and_self]
end

/-- What is picked is a default, or was there before. -/
lemma intsFit_pick {fields : List ModelField} (hdefault : ∀ f ∈ fields, ∀ x, f.default = some x → intsFit x = true)
    (htake : ∀ f ∈ fields, ∀ x, intsFit x = true → intsFit (f.take x) = true) {j : Json} (h : intsFit j = true) :
    intsFit (pick fields j) = true := by
  cases j with
  | obj ms =>
    refine membersFit_iff.2 fun m hm => ?_
    obtain ⟨f, hf, hvalue⟩ := List.mem_filterMap.1 hm
    obtain ⟨y, hy, rfl⟩ := Option.map_eq_some_iff.1 hvalue
    obtain ⟨x, hx, rfl⟩ := Option.map_eq_some_iff.1 hy
    refine htake f hf x ?_
    rcases Option.or_eq_some_iff.1 hx with hlookup | ⟨-, hx⟩
    · obtain ⟨before, after, rfl, -⟩ := List.lookup_eq_some_iff.1 hlookup
      exact membersFit_iff.1 h (f.name, x) (by simp)
    · exact hdefault f hf x hx
  | _ => exact h

lemma intsFit_covered (now : String) {j : Json} (h : intsFit j = true) : intsFit (covered now j) = true := by
  have hcontext : ∀ x, intsFit x = true → intsFit (pick contextFields x) = true := fun x =>
    intsFit_pick (by simp [contextFields]) (by simp [contextFields])
  have hrequest : ∀ x, intsFit x = true → intsFit (pick requestFields x) = true := fun x =>
    intsFit_pick (by simp [requestFields]) (by simp [requestFields])
  refine intsFit_pick ?_ ?_ (intsFit_lastWins j h)
  · simp [recordFields, intsFit]
  · simpa [recordFields] using ⟨hcontext, hrequest⟩

/-- Members of other models are not picked. -/
lemma pick_cons {fields : List ModelField} {k : String} (hk : k ∉ fields.map ModelField.name) (x : Json)
    (ms : List (String × Json)) : pick fields (.obj ((k, x) :: ms)) = pick fields (.obj ms) := by
  rw [pick, pick]
  congr 1
  refine List.filterMap_congr fun f hf => ?_
  have hne : (f.name == k) = false := by
    rw [beq_eq_false_iff_ne]
    exact fun heq => hk (heq ▸ List.mem_map_of_mem hf)
  rw [ModelField.value, ModelField.value, List.lookup_cons, hne]

/-- A member is not covered if its key is repeated after it, or if the model does not have it. -/
theorem covered_cons {now k : String} {ms : List (String × Json)}
    (h : k ∈ ms.map Prod.fst ∨ k ∉ (recordFields now).map ModelField.name) (x : Json) :
    covered now (.obj ((k, x) :: ms)) = covered now (.obj ms) := by
  rw [covered, covered, lastWins, lastWins, lastWinsMembers]
  split_ifs with hmem
  · rfl
  · exact pick_cons (h.resolve_left hmem) _ _

/-! ## What it reads is the dump of a record -/

lemma eq_map_of_mapM {α β : Type} {f : α → Option β} {g : β → α} (hfg : ∀ a b, f a = some b → a = g b) {l : List α}
    {bs : List β} (h : l.mapM f = some bs) : l = bs.map g := by
  have hl := forall₂_of_mapM h
  clear h
  induction hl with
  | nil => rfl
  | cons hb _ ih => rw [List.map_cons, ← hfg _ _ hb, ← ih]

lemma eq_str_of_asStr {x : PyVal} {s : String} (h : asStr x = some s) : x = .str s := by
  cases x with
  | str t => rw [← Option.some.inj h]
  | _ => cases h

lemma eq_of_asStrings {x : PyVal} {l : List String} (h : asStrings x = some l) : x = .ofStrings l := by
  cases x with
  | list xs => rw [PyVal.ofStrings, ← eq_map_of_mapM (fun _ _ => eq_str_of_asStr) h]
  | _ => cases h

lemma eq_of_asItems {x : PyVal} {items : List (String × PyVal)} (h : asItems x = some items) : x = .ofItems items := by
  cases x with
  | dict members =>
    rw [PyVal.ofItems, ← eq_map_of_mapM ?_ h]
    rintro ⟨k, x⟩ p hp
    obtain ⟨s, hs, rfl⟩ := Option.map_eq_some_iff.1 hp
    cases k with
    | str t => rw [Option.some.inj hs]
    | _ => cases hs
  | _ => cases h

lemma eq_of_asStringItems {x : PyVal} {l : List (String × String)} (h : asStringItems x = some l) :
    x = .ofItems (l.map fun p => (p.1, .str p.2)) := by
  obtain ⟨items, hitems, h⟩ := Option.bind_eq_some_iff.1 h
  rw [eq_of_asItems hitems, ← eq_map_of_mapM ?_ h]
  rintro ⟨k, x⟩ p hp
  obtain ⟨s, hs, rfl⟩ := Option.map_eq_some_iff.1 hp
  exact congrArg (Prod.mk k) (eq_str_of_asStr hs)

lemma eq_of_recordOfSandboxResult {x : PyVal} {s : Option (List (String × PyVal))}
    (h : recordOfSandboxResult (some x) = some s) : x = .ofItems? s := by
  cases x with
  | none => rw [← Option.some.inj h]; rfl
  | dict members =>
    obtain ⟨items, hitems, rfl⟩ := Option.map_eq_some_iff.1 h
    exact eq_of_asItems hitems
  | _ => cases h

lemma decodeVal_obj (ms : List (String × Json)) :
    decodeVal (.obj ms) = .ofItems (ms.map fun m => (m.1, decodeVal m.2)) := by
  rw [decodeVal, PyVal.ofItems]
  congr 1
  induction ms with
  | nil => rfl
  | cons m ms ih => rw [decodeItems, ih]; rfl

section Pick

variable {fields : List ModelField} {value : ModelField → Option PyVal}

/-- The value of a field, among the members that are picked. -/
lemma lookup_filterMap (hnodup : (fields.map ModelField.name).Nodup) {f : ModelField} (hf : f ∈ fields) :
    (fields.filterMap fun f => (value f).map fun x => (f.name, x)).lookup f.name = value f := by
  induction fields with
  | nil => cases hf
  | cons g fields ih =>
    rw [List.map_cons, List.nodup_cons] at hnodup
    rcases List.mem_cons.1 hf with rfl | hf
    · cases hv : value f with
      | some x => simp [hv]
      | none =>
        rw [List.filterMap_cons_none (by rw [hv, Option.map_none]), List.lookup_eq_none_iff]
        intro p hp
        obtain ⟨f', hf', hp⟩ := List.mem_filterMap.1 hp
        obtain ⟨x, -, rfl⟩ := Option.map_eq_some_iff.1 hp
        have hne : f.name ≠ f'.name := fun heq => hnodup.1 (heq ▸ List.mem_map_of_mem hf')
        simpa using hne
    · have hne : (f.name == g.name) = false := by
        rw [beq_eq_false_iff_ne]
        exact fun heq => hnodup.1 (heq ▸ List.mem_map_of_mem hf)
      cases hv : value g with
      | some x => simpa [List.filterMap_cons, hv, List.lookup_cons, hne] using ih hnodup.2 hf
      | none => simpa [List.filterMap_cons, hv] using ih hnodup.2 hf

variable {j : Json} {items : List (String × PyVal)} (hnodup : (fields.map ModelField.name).Nodup)
  (h : asItems (decodeVal (pick fields j)) = some items)
include hnodup h

lemma exists_items : ∃ value : ModelField → Option PyVal,
    items = fields.filterMap (fun f => (value f).map fun x => (f.name, x)) ∧
      ∀ f ∈ fields, items.lookup f.name = value f ∧ (∀ x, value f = some x → ∃ y, x = decodeVal (f.take y)) ∧
        (f.default.isSome = true → (value f).isSome = true) := by
  cases j with
  | obj ms =>
    have hitems : items = fields.filterMap fun f => ((f.value ms).map decodeVal).map fun x => (f.name, x) := by
      rw [pick, decodeVal_obj, asItems_ofItems] at h
      rw [← Option.some.inj h, List.map_filterMap]
      refine List.filterMap_congr fun f _ => ?_
      rw [Option.map_map, Option.map_map]
      rfl
    refine ⟨fun f => (f.value ms).map decodeVal, hitems, fun f hf => ⟨?_, fun x hx => ?_, fun hdefault => ?_⟩⟩
    · rw [hitems]
      exact lookup_filterMap hnodup hf
    · obtain ⟨z, hz, rfl⟩ := Option.map_eq_some_iff.1 hx
      obtain ⟨y, -, rfl⟩ := Option.map_eq_some_iff.1 hz
      exact ⟨y, rfl⟩
    · simp [ModelField.value, hdefault]
  | _ => cases h

/-- With all fields there, they are the items. -/
lemma items_of_pick (hall : ∀ f ∈ fields, (items.lookup f.name).isSome = true) :
    items = fields.map fun f => (f.name, (items.lookup f.name).getD .none) := by
  obtain ⟨value, hitems, hvalue⟩ := exists_items hnodup h
  refine Eq.trans hitems ?_
  rw [← List.filterMap_eq_map]
  refine List.filterMap_congr fun f hf => ?_
  obtain ⟨x, hx⟩ := Option.isSome_iff_exists.1 (hall f hf)
  rw [← (hvalue f hf).1, Function.comp_apply, hx]
  rfl

/-- What a model is read from is what is picked for it. -/
lemma taken_of_lookup {f : ModelField} (hf : f ∈ fields) {x : PyVal} (hx : items.lookup f.name = some x) :
    ∃ y, x = decodeVal (f.take y) := by
  obtain ⟨value, -, hvalue⟩ := exists_items hnodup h
  obtain ⟨hlookup, htaken, -⟩ := hvalue f hf
  exact htaken x (hlookup.symm.trans hx)

lemma lookup_of_default {f : ModelField} (hf : f ∈ fields) (hdefault : f.default.isSome = true) :
    ∃ x, items.lookup f.name = some x := by
  obtain ⟨value, -, hvalue⟩ := exists_items hnodup h
  obtain ⟨hlookup, -, hsome⟩ := hvalue f hf
  exact hlookup ▸ Option.isSome_iff_exists.1 (hsome hdefault)

end Pick

/-- `context.model_dump()`. -/
def RedactedContext.items (c : RedactedContext) : List (String × PyVal) :=
  [("user_id", .str c.userId), ("agent_id", .str c.agentId), ("session_id", .str c.sessionId),
    ("roles", .ofStrings c.roles)]

/-- `request.model_dump()`. -/
def RedactedRequest.items (q : RedactedRequest) : List (String × PyVal) :=
  [("tool_name", .str q.toolName), ("function_name", .str q.functionName), ("call_id", .str q.callId),
    ("parameters", .ofItems (q.parameters.map fun p => (p.1, .str p.2)))]

lemma decodeVal_pick_context {j : Json} {c : RedactedContext}
    (h : recordOfContext (decodeVal (pick contextFields j)) = some c) :
    decodeVal (pick contextFields j) = .ofItems c.items := by
  simp only [recordOfContext, bind, Option.bind_eq_some_iff, Option.some.injEq] at h
  obtain ⟨items, hitems, _, ⟨x₁, hx₁, h₁⟩, _, ⟨x₂, hx₂, h₂⟩, _, ⟨x₃, hx₃, h₃⟩, _, ⟨x₄, hx₄, h₄⟩, rfl⟩ := h
  rw [eq_of_asItems hitems, items_of_pick (by decide) hitems ?_]
  · simp only [contextFields, List.map_cons, List.map_nil, hx₁, hx₂, hx₃, hx₄, Option.getD_some, eq_str_of_asStr h₁,
      eq_str_of_asStr h₂, eq_str_of_asStr h₃, eq_of_asStrings h₄]
    rfl
  · simp only [contextFields, List.forall_mem_cons, hx₁, hx₂, hx₃, hx₄, Option.isSome_some, List.not_mem_nil,
      false_imp_iff, implies_true, and_self]

lemma decodeVal_pick_request {j : Json} {q : RedactedRequest}
    (h : recordOfRequest (decodeVal (pick requestFields j)) = some q) :
    decodeVal (pick requestFields j) = .ofItems q.items := by
  simp only [recordOfRequest, bind, Option.bind_eq_some_iff, Option.some.injEq] at h
  obtain ⟨items, hitems, _, ⟨x₁, hx₁, h₁⟩, _, ⟨x₂, hx₂, h₂⟩, _, ⟨x₃, hx₃, h₃⟩, _, ⟨x₄, hx₄, h₄⟩, rfl⟩ := h
  rw [eq_of_asItems hitems, items_of_pick (by decide) hitems ?_]
  · simp only [requestFields, List.map_cons, List.map_nil, hx₁, hx₂, hx₃, hx₄, Option.getD_some, eq_str_of_asStr h₁,
      eq_str_of_asStr h₂, eq_str_of_asStr h₃, eq_of_asStringItems h₄]
    rfl
  · simp only [requestFields, List.forall_mem_cons, hx₁, hx₂, hx₃, hx₄, Option.isSome_some, List.not_mem_nil,
      false_imp_iff, implies_true, and_self]

/-- What is covered of a record that is read is its dump. -/
theorem decodeVal_covered {now : String} {j : Json} {r : AuditRecord}
    (h : recordOf (decodeVal (covered now j)) = some r) : decodeVal (covered now j) = .ofItems r.dump := by
  simp only [recordOf, bind, Option.bind_eq_some_iff, Option.some.injEq] at h
  obtain ⟨items, hitems, _, ⟨x₁, hx₁, h₁⟩, _, ⟨x₂, hx₂, h₂⟩, _, ⟨x₃, hx₃, h₃⟩, _, ⟨x₄, hx₄, h₄⟩, _, ⟨x₅, hx₅, h₅⟩,
    _, ⟨x₆, hx₆, h₆⟩, sandboxResult, h₇, _, ⟨x₈, hx₈, h₈⟩, _, ⟨x₉, hx₉, h₉⟩, rfl⟩ := h
  have hnodup : ((recordFields now).map ModelField.name).Nodup := by simp [recordFields]
  obtain ⟨y₄, rfl⟩ := taken_of_lookup (f := { name := "context", take := pick contextFields }) hnodup hitems
    (by simp [recordFields]) hx₄
  obtain ⟨y₅, rfl⟩ := taken_of_lookup (f := { name := "request", take := pick requestFields }) hnodup hitems
    (by simp [recordFields]) hx₅
  obtain ⟨x₇, hx₇⟩ : ∃ x, items.lookup "sandbox_result" = some x :=
    lookup_of_default (f := { name := "sandbox_result", default := some .null }) hnodup hitems (by simp [recordFields]) rfl
  rw [hx₇] at h₇
  rw [eq_of_asItems hitems, items_of_pick hnodup hitems ?_]
  · simp only [recordFields, List.map_cons, List.map_nil, hx₁, hx₂, hx₃, hx₄, hx₅, hx₆, hx₇, hx₈, hx₉, Option.getD_some,
      eq_str_of_asStr h₁, eq_str_of_asStr h₂, eq_str_of_asStr h₃, decodeVal_pick_context h₄, decodeVal_pick_request h₅,
      eq_of_asItems h₆, eq_of_recordOfSandboxResult h₇, eq_str_of_asStr h₈, eq_str_of_asStr h₉]
    rfl
  · simp only [recordFields, List.forall_mem_cons, hx₁, hx₂, hx₃, hx₄, hx₅, hx₆, hx₇, hx₈, hx₉, Option.isSome_some,
      List.not_mem_nil, false_imp_iff, implies_true, and_self]

/-! ## What has the JSON of a record can be read -/

lemma asStr_of_toJson {x : PyVal} {s : String} (h : x.toJson = (PyVal.str s).toJson) : asStr x = some s := by
  rw [eq_str_of_toJson h, asStr]

lemma toJsonList_strings (l : List String) : toJsonList (l.map .str) = some (l.map .str) := by
  induction l with
  | nil => rfl
  | cons s l ih =>
    rw [List.map_cons, toJsonList, ih]
    rfl

lemma asStrings_of_toJson {x : PyVal} {l : List String} (h : x.toJson = (PyVal.ofStrings l).toJson) :
    asStrings x = some l := by
  rw [PyVal.ofStrings, PyVal.toJson, toJsonList_strings] at h
  cases x with
  | list xs =>
    obtain ⟨js, heq, hjs⟩ := eq_arr_of_toJson h
    obtain rfl := Json.arr.inj heq
    rw [asStrings]
    clear h heq
    induction l generalizing xs with
    | nil =>
      cases xs with
      | nil => rfl
      | cons x xs =>
        obtain ⟨j, -, hjs⟩ := Option.bind_eq_some_iff.1 hjs
        obtain ⟨js, -, hjs⟩ := Option.map_eq_some_iff.1 hjs
        cases hjs
    | cons s l ih =>
      cases xs with
      | nil => cases hjs
      | cons x xs =>
        obtain ⟨j, hj, hjs⟩ := Option.bind_eq_some_iff.1 hjs
        obtain ⟨js, hrest, hjs⟩ := Option.map_eq_some_iff.1 hjs
        obtain ⟨rfl, rfl⟩ := List.cons.inj hjs
        rw [List.mapM_cons, asStr_of_toJson hj, ih xs hrest]
        rfl
  | dict items =>
    obtain ⟨ms, hms⟩ := eq_obj_of_toJson h
    cases hms
  | int i => cases (toJson_int_eq_some_iff.1 h).2
  | _ => cases h

/-- What is decoded to the JSON of an object has items. -/
lemma exists_asItems {y : Json} {items : List (String × PyVal)} {j : Json}
    (h : (decodeVal y).toJson = (PyVal.ofItems items).toJson) (hj : (PyVal.ofItems items).toJson = some j) :
    ∃ items', asItems (decodeVal y) = some items' := by
  obtain ⟨ms, rfl, -⟩ := mem_toJson hj
  rw [hj] at h
  cases y with
  | obj ms' => exact ⟨_, by rw [decodeVal_obj, asItems_ofItems]⟩
  | arr xs =>
    obtain ⟨js, hjs, -⟩ := eq_arr_of_toJson h
    cases hjs
  | int i => cases (toJson_int_eq_some_iff.1 h).2
  | _ => cases h

lemma exists_asStringItems {y : Json} {l : List (String × String)} {j : Json}
    (h : (decodeVal y).toJson = (PyVal.ofItems (l.map fun p => (p.1, .str p.2))).toJson)
    (hj : (PyVal.ofItems (l.map fun p => (p.1, .str p.2))).toJson = some j) :
    ∃ l', asStringItems (decodeVal y) = some l' := by
  obtain ⟨items, hitems⟩ := exists_asItems h hj
  have hstrings : ∀ p ∈ items, ∃ s, asStr p.2 = some s := by
    rintro ⟨k, x⟩ hx
    obtain ⟨v, hv, hjson⟩ := exists_mem_of_toJson hj (by rw [← eq_of_asItems hitems, h, hj]) hx
    obtain ⟨p, -, hp⟩ := List.mem_map.1 hv
    obtain ⟨-, rfl⟩ := Prod.mk.inj hp
    exact ⟨p.2, asStr_of_toJson hjson.symm⟩
  rw [asStringItems, hitems, Option.bind_some]
  clear hitems
  induction items with
  | nil => exact ⟨[], rfl⟩
  | cons p items ih =>
    obtain ⟨⟨s, hs⟩, hstrings⟩ := List.forall_mem_cons.1 hstrings
    obtain ⟨l', hl'⟩ := ih hstrings
    exact ⟨(p.1, s) :: l', by rw [List.mapM_cons, hs, hl']; rfl⟩

section Read

variable {fields : List ModelField} {y : Json} {target : List (String × PyVal)} {j : Json}

/-- The fields of what is picked, if it has the JSON of a record. -/
lemma exists_lookup (hnodup : (fields.map ModelField.name).Nodup)
    (h : (decodeVal (pick fields y)).toJson = (PyVal.ofItems target).toJson) (hj : (PyVal.ofItems target).toJson = some j) :
    ∃ items, asItems (decodeVal (pick fields y)) = some items ∧ ∀ f ∈ fields, ∀ v, (f.name, v) ∈ target →
      ∃ x, items.lookup f.name = some x ∧ x.toJson = v.toJson ∧ ∃ z, x = decodeVal (f.take z) := by
  obtain ⟨items, hitems⟩ := exists_asItems h hj
  refine ⟨items, hitems, fun f hf v hv => ?_⟩
  obtain ⟨x, hx, hjson⟩ := exists_mem_of_toJson (by rw [← eq_of_asItems hitems, h, hj]) hj hv
  have hlookup : items.lookup f.name = some x := by
    obtain ⟨value, hvalue, hfields⟩ := exists_items hnodup hitems
    rw [hvalue] at hx
    obtain ⟨f', hf', hx⟩ := List.mem_filterMap.1 hx
    obtain ⟨x', hx', heq⟩ := Option.map_eq_some_iff.1 hx
    obtain ⟨hname, rfl⟩ := Prod.mk.inj heq
    obtain rfl := List.inj_on_of_nodup_map hnodup hf' hf hname
    rw [(hfields f' hf).1, hx']
  exact ⟨x, hlookup, hjson, taken_of_lookup hnodup hitems hf hlookup⟩

lemma exists_context {c : RedactedContext}
    (h : (decodeVal (pick contextFields y)).toJson = (PyVal.ofItems c.items).toJson)
    (hj : (PyVal.ofItems c.items).toJson = some j) : ∃ c', recordOfContext (decodeVal (pick contextFields y)) = some c' := by
  obtain ⟨items, hitems, hlookup⟩ := exists_lookup (by decide) h hj
  simp only [contextFields, List.forall_mem_cons, List.not_mem_nil, false_imp_iff, implies_true, and_true] at hlookup
  obtain ⟨h₁, h₂, h₃, h₄⟩ := hlookup
  obtain ⟨x₁, hx₁, h₁, -⟩ := h₁ (.str c.userId) (by simp [RedactedContext.items])
  obtain ⟨x₂, hx₂, h₂, -⟩ := h₂ (.str c.agentId) (by simp [RedactedContext.items])
  obtain ⟨x₃, hx₃, h₃, -⟩ := h₃ (.str c.sessionId) (by simp [RedactedContext.items])
  obtain ⟨x₄, hx₄, h₄, -⟩ := h₄ (.ofStrings c.roles) (by simp [RedactedContext.items])
  refine ⟨c, ?_⟩
  simp [recordOfContext, hitems, hx₁, hx₂, hx₃, hx₄, asStr_of_toJson h₁, asStr_of_toJson h₂, asStr_of_toJson h₃,
    asStrings_of_toJson h₄]

lemma exists_request {q : RedactedRequest}
    (h : (decodeVal (pick requestFields y)).toJson = (PyVal.ofItems q.items).toJson)
    (hj : (PyVal.ofItems q.items).toJson = some j) : ∃ q', recordOfRequest (decodeVal (pick requestFields y)) = some q' := by
  obtain ⟨items, hitems, hlookup⟩ := exists_lookup (by decide) h hj
  simp only [requestFields, List.forall_mem_cons, List.not_mem_nil, false_imp_iff, implies_true, and_true] at hlookup
  obtain ⟨h₁, h₂, h₃, h₄⟩ := hlookup
  obtain ⟨x₁, hx₁, h₁, -⟩ := h₁ (.str q.toolName) (by simp [RedactedRequest.items])
  obtain ⟨x₂, hx₂, h₂, -⟩ := h₂ (.str q.functionName) (by simp [RedactedRequest.items])
  obtain ⟨x₃, hx₃, h₃, -⟩ := h₃ (.str q.callId) (by simp [RedactedRequest.items])
  have hmem : ("parameters", PyVal.ofItems (q.parameters.map fun p => (p.1, .str p.2))) ∈ q.items := by
    simp [RedactedRequest.items]
  obtain ⟨_, hx₄, h₄, z, rfl⟩ := h₄ _ hmem
  obtain ⟨k, hk⟩ := exists_toJson_of_mem hj hmem
  obtain ⟨parameters, hparameters⟩ := exists_asStringItems h₄ hk
  refine ⟨⟨q.toolName, q.functionName, q.callId, parameters⟩, ?_⟩
  rw [id_eq] at hparameters
  simp [recordOfRequest, hitems, hx₁, hx₂, hx₃, hx₄, asStr_of_toJson h₁, asStr_of_toJson h₂, asStr_of_toJson h₃,
    hparameters]

/-- What has the JSON of a sandbox result is one, or nothing. -/
lemma exists_sandboxResult {s : Option (List (String × PyVal))} (h : (decodeVal y).toJson = (PyVal.ofItems? s).toJson)
    (hj : (PyVal.ofItems? s).toJson = some j) : ∃ s', recordOfSandboxResult (some (decodeVal y)) = some s' := by
  cases s with
  | some items =>
    obtain ⟨items', hitems⟩ := exists_asItems h hj
    refine ⟨some items', ?_⟩
    rw [eq_of_asItems hitems]
    exact congrArg (Option.map some) (asItems_ofItems items')
  | none =>
    cases y with
    | null => exact ⟨none, rfl⟩
    | arr xs =>
      obtain ⟨js, hjs, -⟩ := eq_arr_of_toJson h
      cases hjs
    | obj ms =>
      obtain ⟨members, hmembers⟩ := eq_obj_of_toJson h
      cases hmembers
    | int i => cases (toJson_int_eq_some_iff.1 h).2
    | _ => cases h

/-- What has the JSON of a record can be read as one. -/
theorem exists_record {now : String} {r : AuditRecord}
    (h : (decodeVal (covered now y)).toJson = (PyVal.ofItems r.dump).toJson) (hj : (PyVal.ofItems r.dump).toJson = some j) :
    ∃ r', recordOf (decodeVal (covered now y)) = some r' := by
  obtain ⟨items, hitems, hlookup⟩ := exists_lookup (by simp [recordFields]) h hj
  simp only [recordFields, List.forall_mem_cons, List.not_mem_nil, false_imp_iff, implies_true, and_true] at hlookup
  obtain ⟨h₁, h₂, h₃, h₄, h₅, h₆, h₇, h₈, h₉⟩ := hlookup
  have hcontext : ("context", PyVal.ofItems r.context.items) ∈ r.dump := by
    simp [AuditRecord.dump, AuditRecord.fields, RedactedContext.items]
  have hrequest : ("request", PyVal.ofItems r.request.items) ∈ r.dump := by
    simp [AuditRecord.dump, AuditRecord.fields, RedactedRequest.items]
  have hdecision : ("decision", PyVal.ofItems r.decision) ∈ r.dump := by
    simp [AuditRecord.dump, AuditRecord.fields]
  have hsandbox : ("sandbox_result", PyVal.ofItems? r.sandboxResult) ∈ r.dump := by
    simp [AuditRecord.dump, AuditRecord.fields]
  obtain ⟨x₁, hx₁, h₁, -⟩ := h₁ (.str r.recordId) (by simp [AuditRecord.dump, AuditRecord.fields])
  obtain ⟨x₂, hx₂, h₂, -⟩ := h₂ (.str r.timestamp) (by simp [AuditRecord.dump, AuditRecord.fields])
  obtain ⟨x₃, hx₃, h₃, -⟩ := h₃ (.str r.callId) (by simp [AuditRecord.dump, AuditRecord.fields])
  obtain ⟨_, hx₄, h₄, z₄, rfl⟩ := h₄ _ hcontext
  obtain ⟨_, hx₅, h₅, z₅, rfl⟩ := h₅ _ hrequest
  obtain ⟨_, hx₆, h₆, z₆, rfl⟩ := h₆ _ hdecision
  obtain ⟨_, hx₇, h₇, z₇, rfl⟩ := h₇ _ hsandbox
  obtain ⟨x₈, hx₈, h₈, -⟩ := h₈ (.str r.prevHash) (by simp [AuditRecord.dump, AuditRecord.fields])
  obtain ⟨x₉, hx₉, h₉, -⟩ := h₉ (.str r.recordHash) (by simp [AuditRecord.dump, AuditRecord.fields])
  obtain ⟨_, hk₄⟩ := exists_toJson_of_mem hj hcontext
  obtain ⟨_, hk₅⟩ := exists_toJson_of_mem hj hrequest
  obtain ⟨_, hk₆⟩ := exists_toJson_of_mem hj hdecision
  obtain ⟨_, hk₇⟩ := exists_toJson_of_mem hj hsandbox
  obtain ⟨context, hcontext⟩ := exists_context h₄ hk₄
  obtain ⟨request, hrequest⟩ := exists_request h₅ hk₅
  obtain ⟨decision, hdecision⟩ := exists_asItems h₆ hk₆
  obtain ⟨sandboxResult, hsandbox⟩ := exists_sandboxResult h₇ hk₇
  refine ⟨⟨r.recordId, r.timestamp, r.callId, context, request, decision, sandboxResult, r.prevHash, r.recordHash⟩, ?_⟩
  rw [id_eq] at hdecision hsandbox
  simp [recordOf, covered, hitems, hx₁, hx₂, hx₃, hx₄, hx₅, hx₆, hx₇, hx₈, hx₉, asStr_of_toJson h₁, asStr_of_toJson h₂,
    asStr_of_toJson h₃, hcontext, hrequest, hdecision, hsandbox, asStr_of_toJson h₈, asStr_of_toJson h₉]

end Read

end Aimw.Audit
