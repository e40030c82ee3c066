import Aimw.Lib.Dict
import Aimw.Lib.Doubles
import Aimw.Lib.Text
import Mathlib.Data.List.Sort

/-!
# Core data contracts

The models every component shares (`models.py`, `sandbox/base.py`), the Python values that stand in their
`dict[str, Any]` fields, and `json.dumps(value, sort_keys=True, separators=(",", ":"))` of such a value.
-/

namespace Aimw

open Lib

/-! ## Python values -/

/-- A key of a Python dictionary that `json.dumps` takes. -/
inductive PyKey
  | str (s : String)
  | int (i : ℤ)
  | bool (b : Bool)
  | float (x : JFloat)
  | none
  deriving DecidableEq

/-- A Python object in a field of type `Any`; `object n` is one that no JSON encoder knows. -/
inductive PyVal
  | none
  | bool (b : Bool)
  | int (i : ℤ)
  | float (x : JFloat)
  | str (s : String)
  | list (xs : List PyVal)
  | dict (items : List (PyKey × PyVal))
  | object (n : ℕ)

/-- A dictionary with string keys, as a value. -/
def PyVal.ofItems (items : List (String × PyVal)) : PyVal := .dict (items.map fun p => (.str p.1, p.2))

/-- An optional dictionary with string keys, as a value. -/
def PyVal.ofItems? : Option (List (String × PyVal)) → PyVal
  | .some items => .ofItems items
  | .none => .none

/-- A list of strings, as a value. -/
def PyVal.ofStrings (l : List String) : PyVal := .list (l.map .str)

def PyKey.asStr : PyKey → Option String
  | .str s => some s
  | _ => Option.none

/-- The number that the key is compared as: Python takes `True` for `1`, and compares an integer with a float exactly. -/
def PyKey.value : PyKey → Option (WithBot (WithTop ℚ))
  | .int i => some ((i : ℚ) : WithTop ℚ)
  | .bool b => some (((if b then 1 else 0 : ℚ)) : WithTop ℚ)
  | .float (.finite x) => some (x.value : WithTop ℚ)
  | .float .inf => some (⊤ : WithTop ℚ)
  | .float .negInf => some ⊥
  | _ => Option.none

def PyKey.isNumber : PyKey → Bool
  | .int _ => true
  | .bool _ => true
  | .float _ => true
  | _ => false

/-- `k < l` of two numbers; a NaN is neither below nor above any number. -/
def PyKey.lt (k l : PyKey) : Bool :=
  match k.value, l.value with
  | some x, some y => decide (x < y)
  | _, _ => false

/-- `str()` writes the integer. -/
def PyKey.fits : PyKey → Bool
  | .int i => fitsStr i
  | _ => true

/-- The key as `json.dumps` writes it. -/
def PyKey.jsonText : PyKey → String
  | .str s => s
  | .int i => String.ofList (decimal i)
  | .bool b => if b then "true" else "false"
  | .float x => String.ofList x.render
  | .none => "null"

/-- `sorted(dct.items())` and the keys written as strings.  Strings sort by code points and numbers by value;
a mixture does not compare, nor does `None` with another key (`none` is a `TypeError`).  Where a NaN comes among
other numbers is up to the order in which they are compared, here that of an insertion. -/
def sortItems (ms : List (PyKey × Json)) : Option (List (String × Json)) :=
  match ms.mapM (fun m => m.1.asStr.map fun k => (k, m.2)) with
  | some ss => some (ss.insertionSort fun a b => a.1 ≤ b.1)
  | none =>
    if ms.all fun m => m.1.isNumber then
      some ((ms.insertionSort fun a b => !b.1.lt a.1).map fun m => (m.1.jsonText, m.2))
    else
      match ms with
      | [m] => some [(m.1.jsonText, m.2)]
      | _ => none

lemma PyKey.fits_of_asStr {k : PyKey} (h : k.asStr.isSome = true) : k.fits = true := by
  cases k with
  | str s => rfl
  | _ => cases h

mutual
/-- The JSON value `json.dumps(..., sort_keys=True)` writes; `none` is a `TypeError`, or the `ValueError` of an integer
that `str()` refuses. -/
def PyVal.toJson : PyVal → Option Json
  | .none => some .null
  | .bool b => some (.bool b)
  | .int i => if fitsStr i then some (.int i) else none
  | .float x => some (.float x)
  | .str s => some (.str s)
  | .list xs => (toJsonList xs).map .arr
  | .dict items => (toJsonItems items).bind fun ms => (sortItems ms).map .obj
  | .object _ => none
def toJsonList : List PyVal → Option (List Json)
  | [] => some []
  | x :: xs => x.toJson.bind fun j => (toJsonList xs).map fun js => j :: js
def toJsonItems : List (PyKey × PyVal) → Option (List (PyKey × Json))
  | [] => some []
  | (k, x) :: items =>
    if k.fits then x.toJson.bind fun j => (toJsonItems items).map fun js => (k, j) :: js else none
end

lemma toJson_int_eq_some_iff {i : ℤ} {j : Json} : (PyVal.int i).toJson = some j ↔ fitsStr i = true ∧ .int i = j := by
  rw [PyVal.toJson]
  split_ifs with hfits <;> simp [hfits]

lemma toJsonItems_cons_eq_some_iff {k : PyKey} {x : PyVal} {items : List (PyKey × PyVal)} {ms : List (PyKey × Json)} :
    toJsonItems ((k, x) :: items) = some ms ↔
      k.fits = true ∧ ∃ j ms', x.toJson = some j ∧ toJsonItems items = some ms' ∧ ms = (k, j) :: ms' := by
  rw [toJsonItems]
  split_ifs with hfits
  · rw [Option.bind_eq_some_iff]
    constructor
    · rintro ⟨j, hj, hms⟩
      obtain ⟨ms', hitems, rfl⟩ := Option.map_eq_some_iff.1 hms
      exact ⟨hfits, j, ms', hj, hitems, rfl⟩
    · rintro ⟨-, j, ms', hj, hitems, rfl⟩
      exact ⟨j, hj, by rw [hitems, Option.map_some]⟩
  · simp [hfits]

/-- `json.dumps(value, sort_keys=True, separators=(",", ":"))`. -/
def PyVal.dumps (x : PyVal) : Option String := x.toJson.map fun j => String.ofList j.render

/-- What `json.dumps` wrote determines the value up to the order of keys. -/
theorem toJson_eq_of_dumps_eq {x y : PyVal} {s : String} (hx : x.dumps = some s) (hy : y.dumps = some s) :
    x.toJson = y.toJson := by
  obtain ⟨j, hj, rfl⟩ := Option.map_eq_some_iff.1 hx
  obtain ⟨k, hk, h⟩ := Option.map_eq_some_iff.1 hy
  rw [hj, hk, render_inj (String.ofList_injective h)]

mutual
/-- Plain JSON data: no foreign object, only integers that `str()` writes, and only strings for keys. -/
def PyVal.isPlain : PyVal → Bool
  | .none => true
  | .bool _ => true
  | .int i => fitsStr i
  | .float _ => true
  | .str _ => true
  | .list xs => arePlain xs
  | .dict items => arePlainItems items
  | .object _ => false
def arePlain : List PyVal → Bool
  | [] => true
  | x :: xs => x.isPlain && arePlain xs
def arePlainItems : List (PyKey × PyVal) → Bool
  | [] => true
  | (k, x) :: items => k.asStr.isSome && x.isPlain && arePlainItems items
end

mutual
/-- JSON-native: plain data in which every float is finite and no object repeats a key. -/
def PyVal.isNative : PyVal → Bool
  | .none => true
  | .bool _ => true
  | .int i => fitsStr i
  | .float (.finite _) => true
  | .float _ => false
  | .str _ => true
  | .list xs => areNative xs
  | .dict items => areNativeItems items
  | .object _ => false
def areNative : List PyVal → Bool
  | [] => true
  | x :: xs => x.isNative && areNative xs
def areNativeItems : List (PyKey × PyVal) → Bool
  | [] => true
  | (k, x) :: items => k.asStr.isSome && !(items.any fun p => p.1 == k) && x.isNative && areNativeItems items
end

mutual
theorem isPlain_of_isNative (x : PyVal) (h : x.isNative = true) : x.isPlain = true := by
  match x with
  | .none => rfl
  | .bool _ => rfl
  | .int _ => exact h
  | .float _ => rfl
  | .str _ => rfl
  | .list xs => simpa only [PyVal.isPlain] using arePlain_of_areNative xs (by simpa only [PyVal.isNative] using h)
  | .dict items =>
    simpa only [PyVal.isPlain] using arePlainItems_of_areNativeItems items (by simpa only [PyVal.isNative] using h)
  | .object _ => simp [PyVal.isNative] at h
theorem arePlain_of_areNative (xs : List PyVal) (h : areNative xs = true) : arePlain xs = true := by
  match xs with
  | [] => rfl
  | x :: xs =>
    simp only [areNative, Bool.and_eq_true] at h
    simp only [arePlain, isPlain_of_isNative x h.1, arePlain_of_areNative xs h.2, Bool.and_self]
theorem arePlainItems_of_areNativeItems (items : List (PyKey × PyVal)) (h : areNativeItems items = true) :
    arePlainItems items = true := by
  match items with
  | [] => rfl
  | (k, x) :: items =>
    simp only [areNativeItems, Bool.and_eq_true] at h
    obtain ⟨⟨⟨hk, -⟩, hx⟩, hitems⟩ := h
    simp only [arePlainItems, hk, isPlain_of_isNative x hx, arePlainItems_of_areNativeItems items hitems, Bool.and_self]
end

theorem isPlain_ofItems (items : List (String × PyVal)) (h : ∀ p ∈ items, p.2.isPlain = true) :
    (PyVal.ofItems items).isPlain = true := by
  simp only [PyVal.ofItems, PyVal.isPlain]
  induction items with
  | nil => rfl
  | cons p items ih =>
    simp only [List.map_cons, arePlainItems, PyKey.asStr, Option.isSome_some, h p (by simp), Bool.true_and]
    exact ih fun q hq => h q (by simp [hq])

theorem isPlain_ofStrings (l : List String) : (PyVal.ofStrings l).isPlain = true := by
  simp only [PyVal.ofStrings, PyVal.isPlain]
  induction l with
  | nil => rfl
  | cons s l ih => simpa only [List.map_cons, arePlain, PyVal.isPlain, Bool.true_and] using ih

lemma sortItems_isSome {ms : List (PyKey × Json)} (h : ∀ m ∈ ms, m.1.asStr.isSome = true) :
    (sortItems ms).isSome = true := by
  have hmap : ∃ ss, ms.mapM (fun m => m.1.asStr.map fun k => (k, m.2)) = some ss := by
    induction ms with
    | nil => exact ⟨[], rfl⟩
    | cons m ms ih =>
      obtain ⟨k, hk⟩ := Option.isSome_iff_exists.1 (h m (by simp))
      obtain ⟨ss, hss⟩ := ih fun m hm => h m (by simp [hm])
      exact ⟨(k, m.2) :: ss, by simp [List.mapM_cons, hk, hss]⟩
  obtain ⟨ss, hss⟩ := hmap
  simp [sortItems, hss]

mutual
/-- `json.dumps` writes all plain data. -/
theorem toJson_isSome (x : PyVal) (h : x.isPlain = true) : x.toJson.isSome = true := by
  match x with
  | .none => rfl
  | .bool _ => rfl
  | .int i =>
    rw [toJson_int_eq_some_iff.2 ⟨h, rfl⟩, Option.isSome_some]
  | .float _ => rfl
  | .str _ => rfl
  | .list xs =>
    have := toJsonList_isSome xs (by simpa only [PyVal.isPlain] using h)
    simpa only [PyVal.toJson, Option.isSome_map] using this
  | .dict items =>
    obtain ⟨ms, hms, hkeys⟩ := toJsonItems_isSome items (by simpa only [PyVal.isPlain] using h)
    simpa only [PyVal.toJson, hms, Option.bind_some, Option.isSome_map] using sortItems_isSome hkeys
  | .object _ => simp [PyVal.isPlain] at h
theorem toJsonList_isSome (xs : List PyVal) (h : arePlain xs = true) : (toJsonList xs).isSome = true := by
  match xs with
  | [] => rfl
  | x :: xs =>
    simp only [arePlain, Bool.and_eq_true] at h
    obtain ⟨j, hj⟩ := Option.isSome_iff_exists.1 (toJson_isSome x h.1)
    have := toJsonList_isSome xs h.2
    simpa only [toJsonList, hj, Option.bind_some, Option.isSome_map] using this
theorem toJsonItems_isSome (items : List (PyKey × PyVal)) (h : arePlainItems items = true) :
    ∃ ms, toJsonItems items = some ms ∧ ∀ m ∈ ms, m.1.asStr.isSome = true := by
  match items with
  | [] => exact ⟨[], rfl, by simp⟩
  | (k, x) :: items =>
    simp only [arePlainItems, Bool.and_eq_true] at h
    obtain ⟨⟨hk, hx⟩, hitems⟩ := h
    obtain ⟨j, hj⟩ := Option.isSome_iff_exists.1 (toJson_isSome x hx)
    obtain ⟨ms, hms, hkeys⟩ := toJsonItems_isSome items hitems
    refine ⟨(k, j) :: ms, by simp [toJsonItems, PyKey.fits_of_asStr hk, hj, hms], fun m hm => ?_⟩
    rcases List.mem_cons.1 hm with rfl | hm
    · exact hk
    · exact hkeys m hm
end

/-! ## The shared models -/

/-- Who is asking, on whose behalf, and with what standing authority. -/
structure ExecutionContext where
  userId : String
  agentId : String
  sessionId : String
  roles : List String
  delegatedScopes : List String := []
  metadata : Dict PyVal := Dict.empty

/-- A single proposed tool invocation awaiting a policy decision. -/
structure ToolRequest where
  toolName : String
  functionName : String
  parameters : Dict PyVal
  callId : String

/-- The outcome of evaluating a `ToolRequest` against policy. -/
structure PolicyDecision where
  allowed : Bool
  reason : String
  modifiedParameters : Option (Dict PyVal) := none
  actionRequirements : List String := []

/-- `decision.model_dump()`. -/
def PolicyDecision.modelDump (d : PolicyDecision) : List (String × PyVal) :=
  [("allowed", .bool d.allowed), ("reason", .str d.reason),
    ("modified_parameters", .ofItems? (d.modifiedParameters.map Dict.items)),
    ("action_requirements", .ofStrings d.actionRequirements)]

/-- The outcome of one sandboxed execution. -/
structure SandboxResult where
  stdout : String
  stderr : String
  exitCode : ℤ
  durationMs : JFloat
  timedOut : Bool := false

/-- `sandbox_result.model_dump()`. -/
def SandboxResult.modelDump (r : SandboxResult) : List (String × PyVal) :=
  [("stdout", .str r.stdout), ("stderr", .str r.stderr), ("exit_code", .int r.exitCode),
    ("duration_ms", .float r.durationMs), ("timed_out", .bool r.timedOut)]

/-! ## Exceptions -/

/-- A raised exception.  `TimeoutError` and `exception` are subclasses of `Exception`; a cancellation and the
other `BaseException`s (`KeyboardInterrupt`, `SystemExit`) pass every `except Exception`. -/
inductive Exc
  | timeoutError (text : String)
  | exception (text : String)
  | cancelledError
  | baseException (text : String)
  deriving DecidableEq

/-- `isinstance(exc, Exception)`. -/
def Exc.isException : Exc → Bool
  | .timeoutError _ => true
  | .exception _ => true
  | .cancelledError => false
  | .baseException _ => false

/-- `str(exc)`. -/
def Exc.text : Exc → String
  | .timeoutError t => t
  | .exception t => t
  | .cancelledError => ""
  | .baseException t => t

end Aimw
