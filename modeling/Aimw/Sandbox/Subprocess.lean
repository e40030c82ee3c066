import Aimw.Interceptor.Handle
import Aimw.Lib.Text

/-!
# The subprocess sandbox

`sandbox/subprocess_sandbox.py`: implementations are registered under the text `tool_name.function_name`, and `execute`
awaits the one that stands under the text of the request.

* `execute_runs` — a run of `execute` awaits one implementation, and which one;
* `dispatch_iff` — when that is the one that was registered for the tool and the function of the request.
-/

namespace Aimw.Sandbox

open Lib Coro Interceptor

/-- `_default_implementation`, or a callable of the caller's, known by its number. -/
inductive ToolImplementation
  | default
  | callable (id : ℕ)
  deriving DecidableEq

/-! ## Calls -/

/-- `waitFor` is `asyncio.wait_for(impl(request, context), timeout=timeout)`. -/
inductive SandboxOp
  | monotonic
  | waitFor (impl : ToolImplementation) (request : ToolRequest) (context : ExecutionContext) (timeout : JFloat)

abbrev SandboxOp.Answer : SandboxOp → Type
  | monotonic => JFloat
  | waitFor _ _ _ _ => Awaited String

abbrev SandboxProg (α : Type) : Type := Coro SandboxOp SandboxOp.Answer Exc α

/-- The implementation that a call awaits. -/
def SandboxOp.impl? : SandboxOp → Option ToolImplementation
  | monotonic => none
  | waitFor impl _ _ _ => some impl

/-- `(now - start) * 1000`, and a float in an f-string. -/
structure Runtime where
  elapsedMs : JFloat → JFloat → JFloat
  format : JFloat → String

/-! ## `SubprocessSandbox` -/

structure SubprocessSandbox where
  implementations : Dict ToolImplementation
  timeoutS : JFloat

/-- `f"{tool_name}.{function_name}"` -/
def implementationKey (toolName functionName : String) : String := s!"{toolName}.{functionName}"

namespace SubprocessSandbox

variable (rt : Runtime) (sandbox : SubprocessSandbox)

def register (toolName functionName : String) (impl : ToolImplementation) : SubprocessSandbox :=
  { sandbox with implementations := sandbox.implementations.set (implementationKey toolName functionName) impl }

/-- `self._implementations.get(key, _default_implementation)`. -/
def implementationOf (request : ToolRequest) : ToolImplementation :=
  (sandbox.implementations.get? (implementationKey request.toolName request.functionName)).getD .default

def execute (request : ToolRequest) (context : ExecutionContext) : SandboxProg SandboxResult := do
  let impl := sandbox.implementationOf request
  let start ← perform .monotonic
  tryExcept
    (do
      let stdout ← await (.waitFor impl request context sandbox.timeoutS) Interceptor.waitFor
      let now ← perform .monotonic
      return { stdout, stderr := "", exitCode := 0, durationMs := rt.elapsedMs start now })
    fun
    | .timeoutError _ => do
      let now ← perform .monotonic
      return {
        stdout := ""
        stderr := s!"execution exceeded {rt.format sandbox.timeoutS}s timeout"
        exitCode := 124
        durationMs := rt.elapsedMs start now
        timedOut := true }
    | exc =>
      if exc.isException then do
        let now ← perform .monotonic
        return { stdout := "", stderr := exc.text, exitCode := 1, durationMs := rt.elapsedMs start now }
      else raise exc

end SubprocessSandbox

/-! ## What a run awaits -/

variable {rt : Runtime} {sandbox : SubprocessSandbox} {request : ToolRequest} {context : ExecutionContext}

section Runs

variable {World α : Type} {E : World → (q : SandboxOp) → q.Answer → World → Prop} {w w' : World}
  {tr : List ((q : SandboxOp) × q.Answer)}

/-- The implementations that are awaited in a trace. -/
def awaited (tr : List ((q : SandboxOp) × q.Answer)) : List ToolImplementation := tr.filterMap fun event => event.1.impl?

lemma awaited_append (t₁ t₂ : List ((q : SandboxOp) × q.Answer)) : awaited (t₁ ++ t₂) = awaited t₁ ++ awaited t₂ :=
  List.filterMap_append

lemma awaited_singleton {q : SandboxOp} (a : q.Answer) : awaited [⟨q, a⟩] = q.impl?.toList := by
  cases himpl : q.impl? <;> simp [awaited, himpl]

/-- A program that only reads the clock. -/
abbrev ReadsClock (x : SandboxProg α) : Prop := x.Ensures (fun q => q.impl? = none) fun _ => True

lemma awaited_of_readsClock {x : SandboxProg α} {r : Except Exc α} (hx : ReadsClock x) (h : Runs E w x tr r w') :
    awaited tr = [] := by
  unfold awaited
  rw [List.filterMap_eq_nil_iff]
  exact (hx.of_runs h).1

lemma awaited_of_await {β : Type} {q : SandboxOp} {f : q.Answer → Except Exc β} {k : β → SandboxProg α}
    {r : Except Exc α} (hk : ∀ b, ReadsClock (k b)) (h : Runs E w ((await q f).bind k) tr r w') :
    awaited tr = q.impl?.toList := by
  rcases runs_bind_iff.1 h with ⟨e, hawait, -⟩ | ⟨b, w₁, t₁, t₂, rfl, hawait, hrest⟩
  · obtain ⟨a, rfl, -, -⟩ := runs_await_iff.1 hawait
    exact awaited_singleton a
  · obtain ⟨a, rfl, -, -⟩ := runs_await_iff.1 hawait
    rw [awaited_append, awaited_singleton, awaited_of_readsClock (hk b) hrest, List.append_nil]

/-- **A run of `execute` awaits one implementation**: the one that stands under the key of the request. -/
theorem execute_runs {r : Except Exc SandboxResult} (h : Runs E w (sandbox.execute rt request context) tr r w') :
    awaited tr = [sandbox.implementationOf request] := by
  obtain ⟨start, w₁, t, rfl, -, hrest⟩ := runs_call_iff.1 h
  have hbody : ∀ {t : List ((q : SandboxOp) × q.Answer)} {w w' : World} {r : Except Exc SandboxResult},
      Runs E w ((await (SandboxOp.waitFor (sandbox.implementationOf request) request context sandbox.timeoutS)
        Interceptor.waitFor).bind fun stdout => (perform .monotonic).bind fun now =>
          ret { stdout, stderr := "", exitCode := 0, durationMs := rt.elapsedMs start now }) t r w' →
      awaited t = [sandbox.implementationOf request] := by
    intro t w w' r hrun
    refine awaited_of_await (fun stdout => ?_) hrun
    exact ⟨rfl, fun now => trivial⟩
  show awaited t = _
  rcases runs_tryExcept_iff.1 hrest with ⟨a, hrun, -⟩ | ⟨e, w₂, t₁, t₂, rfl, hrun, hhandler⟩
  · exact hbody hrun
  · have hquiet : awaited t₂ = [] := by
      refine awaited_of_readsClock ?_ hhandler
      cases e with
      | timeoutError text => exact ⟨rfl, fun now => trivial⟩
      | exception text => exact ⟨rfl, fun now => trivial⟩
      | cancelledError => trivial
      | baseException text => trivial
    rw [awaited_append, hbody hrun, hquiet, List.append_nil]

end Runs

/-! ## Registrations -/

/-- A call of `register`. -/
structure Registration where
  toolName : String
  functionName : String
  impl : ToolImplementation

/-- A sandbox without implementations, after the calls of `register`. -/
def registered (timeoutS : JFloat) (regs : List Registration) : SubprocessSandbox :=
  regs.foldl (fun sandbox reg => sandbox.register reg.toolName reg.functionName reg.impl) ⟨Dict.empty, timeoutS⟩

/-- The last registration that has `P`. -/
def lastWith (regs : List Registration) (P : Registration → Prop) [DecidablePred P] : Option Registration :=
  regs.reverse.find? fun reg => P reg

/-- The implementation that was registered last for exactly the tool and the function of the request. -/
def authorised (regs : List Registration) (request : ToolRequest) : ToolImplementation :=
  ((lastWith regs fun reg => reg.toolName = request.toolName ∧ reg.functionName = request.functionName).map
    Registration.impl).getD .default

/-- The last registration under the key of the request. -/
def lastUnderKey (regs : List Registration) (request : ToolRequest) : Option Registration :=
  lastWith regs fun reg =>
    implementationKey reg.toolName reg.functionName = implementationKey request.toolName request.functionName

/-- **What is registered last under a key stands there.** -/
theorem registered_get? (timeoutS : JFloat) (regs : List Registration) (request : ToolRequest) :
    (registered timeoutS regs).implementations.get? (implementationKey request.toolName request.functionName) =
      (lastUnderKey regs request).map Registration.impl := by
  induction regs using List.reverseRecOn with
  | nil => rfl
  | append_singleton regs reg ih =>
    rw [registered, List.foldl_append, List.foldl_cons, List.foldl_nil, SubprocessSandbox.register, Dict.get?_set]
    rw [registered] at ih
    rw [lastUnderKey, lastWith, List.reverse_append, List.reverse_singleton, List.singleton_append, List.find?_cons]
    by_cases hkey : implementationKey reg.toolName reg.functionName =
        implementationKey request.toolName request.functionName
    · simp [hkey]
    · rw [if_neg (Ne.symm hkey), ih, decide_eq_false hkey]
      rfl

lemma implementationOf_registered (timeoutS : JFloat) (regs : List Registration) (request : ToolRequest) :
    (registered timeoutS regs).implementationOf request =
      ((lastUnderKey regs request).map Registration.impl).getD .default := by
  rw [SubprocessSandbox.implementationOf, registered_get?]

lemma of_lastWith {regs : List Registration} {P : Registration → Prop} [DecidablePred P] {reg : Registration}
    (hlast : lastWith regs P = some reg) : reg ∈ regs ∧ P reg := by
  obtain ⟨hP, before, after, hsplit, -⟩ := List.find?_eq_some_iff_append.1 hlast
  refine ⟨List.mem_reverse.1 ?_, of_decide_eq_true hP⟩
  rw [hsplit]
  simp

lemma lastWith_of_imp {regs : List Registration} {P Q : Registration → Prop} [DecidablePred P] [DecidablePred Q]
    (himp : ∀ reg, P reg → Q reg) {reg : Registration} (hlast : lastWith regs Q = some reg) (hreg : P reg) :
    lastWith regs P = some reg := by
  obtain ⟨-, before, after, hsplit, hnone⟩ := List.find?_eq_some_iff_append.1 hlast
  refine List.find?_eq_some_iff_append.2 ⟨decide_eq_true hreg, before, after, hsplit, fun other hother => ?_⟩
  have hnot := hnone other hother
  simp only [Bool.not_eq_true', decide_eq_false_iff_not] at hnot ⊢
  exact fun hP => hnot (himp other hP)

lemma lastWith_none_of_imp {regs : List Registration} {P Q : Registration → Prop} [DecidablePred P] [DecidablePred Q]
    (himp : ∀ reg, P reg → Q reg) (hlast : lastWith regs Q = none) : lastWith regs P = none := by
  rw [lastWith, List.find?_eq_none] at hlast ⊢
  intro reg hreg hP
  exact hlast reg hreg (decide_eq_true (himp reg (of_decide_eq_true hP)))

/-- The joined text of tools without a dot tells the pairs apart. -/
lemma implementationKey_inj {toolName toolName' functionName functionName' : String} (h : '.' ∉ toolName.toList)
    (h' : '.' ∉ toolName'.toList)
    (hkey : implementationKey toolName functionName = implementationKey toolName' functionName') :
    toolName = toolName' ∧ functionName = functionName' := by
  have hjoin : ∀ t f : String, (implementationKey t f).toList = t.toList ++ '.' :: f.toList := by
    intro t f
    simp [implementationKey, toString]
  have hlist := congrArg String.toList hkey
  rw [hjoin, hjoin] at hlist
  obtain ⟨htool, hfunction⟩ := append_cons_inj h h' hlist
  exact ⟨String.toList_inj.1 htool, String.toList_inj.1 hfunction⟩

/-! ## What policy authorised -/

/-- Every run of `execute` awaits the implementation that was registered for exactly the request's names, and no
other. -/
def RunsAuthorised (rt : Runtime) (timeoutS : JFloat) (regs : List Registration) (request : ToolRequest) : Prop :=
  ∀ (context : ExecutionContext) (World : Type) (E : World → (q : SandboxOp) → q.Answer → World → Prop) (w w' : World)
    (tr : List ((q : SandboxOp) × q.Answer)) (r : Except Exc SandboxResult),
    Runs E w ((registered timeoutS regs).execute rt request context) tr r w' → awaited tr = [authorised regs request]

/-- Every implementation returns at once. -/
def promptWorld : (q : SandboxOp) → Unit → q.Answer × Unit
  | .monotonic, _ => (.nan, ())
  | .waitFor _ _ _ _, _ => (.returned "", ())

lemma runsAuthorised_iff {timeoutS : JFloat} {regs : List Registration} :
    RunsAuthorised rt timeoutS regs request ↔
      ((lastUnderKey regs request).map Registration.impl).getD .default = authorised regs request := by
  constructor
  · intro h
    have hrun := runs_run (E := fun w q a w' => promptWorld q w = (a, w')) (fun q w => rfl)
      ((registered timeoutS regs).execute rt request ⟨"", "", "", [], [], Dict.empty⟩) ()
    have hwaited := execute_runs hrun
    rw [h _ _ _ _ _ _ _ hrun, implementationOf_registered] at hwaited
    exact (List.singleton_inj.1 hwaited).symm
  · intro h context World E w w' tr r hrun
    rw [execute_runs hrun, implementationOf_registered, h]

/-! ## Other implementations under the same names -/

def Registration.names (reg : Registration) : String × String := (reg.toolName, reg.functionName)

/-- The same names are registered, in the same order, for other implementations. -/
def withImplementations (impls : ℕ → ToolImplementation) (regs : List Registration) : List Registration :=
  regs.mapIdx fun n reg => { reg with impl := impls n }

lemma map_names_withImplementations (impls : ℕ → ToolImplementation) (regs : List Registration) :
    (withImplementations impls regs).map Registration.names = regs.map Registration.names := by
  refine List.ext_getElem? fun n => ?_
  simp only [withImplementations, List.getElem?_map, List.getElem?_mapIdx, Option.map_map]
  rfl

lemma map_names_lastUnderKey (regs : List Registration) (request : ToolRequest) :
    (lastUnderKey regs request).map Registration.names = (regs.map Registration.names).reverse.find? fun n =>
      implementationKey n.1 n.2 = implementationKey request.toolName request.functionName := by
  rw [← List.map_reverse, List.find?_map]
  rfl

/-- What stands last under a key has the same names, whatever is registered for them. -/
lemma lastUnderKey_names (impls : ℕ → ToolImplementation) (regs : List Registration) (request : ToolRequest) :
    (lastUnderKey (withImplementations impls regs) request).map Registration.names =
      (lastUnderKey regs request).map Registration.names := by
  rw [map_names_lastUnderKey, map_names_lastUnderKey, map_names_withImplementations]

/-- Different implementations tell the registrations apart. -/
lemma eq_of_impl_eq {regs : List Registration} {reg reg' : Registration}
    (h : reg ∈ withImplementations .callable regs) (h' : reg' ∈ withImplementations .callable regs)
    (himpl : reg.impl = reg'.impl) : reg = reg' := by
  obtain ⟨n, hn, rfl⟩ := List.mem_mapIdx.1 h
  obtain ⟨m, hm, rfl⟩ := List.mem_mapIdx.1 h'
  obtain rfl : n = m := ToolImplementation.callable.inj himpl
  rfl

/-- Where the registrations can be told apart, the one that is dispatched to is the authorised one. -/
lemma exact_of_callable {timeoutS : JFloat} {regs : List Registration} {reg : Registration}
    (h : RunsAuthorised rt timeoutS (withImplementations .callable regs) request)
    (hlast : lastUnderKey (withImplementations .callable regs) request = some reg) :
    reg.toolName = request.toolName ∧ reg.functionName = request.functionName := by
  have hsame := runsAuthorised_iff.1 h
  rw [hlast, Option.map_some, Option.getD_some, authorised] at hsame
  have hmem := (of_lastWith hlast).1
  cases hexact : lastWith (withImplementations .callable regs) fun reg =>
      reg.toolName = request.toolName ∧ reg.functionName = request.functionName with
  | none =>
    obtain ⟨n, hn, rfl⟩ := List.mem_mapIdx.1 hmem
    rw [hexact] at hsame
    cases hsame
  | some reg' =>
    rw [hexact] at hsame
    obtain ⟨hmem', hnames⟩ := of_lastWith hexact
    obtain rfl := eq_of_impl_eq hmem hmem' hsame
    exact hnames

/-- **When the sandbox runs what policy authorised**: iff the last registration under the key of the request was made
for its tool and its function, or registered the authorised implementation all the same.  It does so whatever the
implementations are iff that registration was made for its tool and its function.  Tools without a dot are safe. -/
theorem dispatch_iff (rt : Runtime) (timeoutS : JFloat) (regs : List Registration) (request : ToolRequest) :
    (RunsAuthorised rt timeoutS regs request ↔ ∀ reg, lastUnderKey regs request = some reg →
      (reg.toolName = request.toolName ∧ reg.functionName = request.functionName) ∨
        reg.impl = authorised regs request) ∧
    ((∀ impls, RunsAuthorised rt timeoutS (withImplementations impls regs) request) ↔
      ∀ reg, lastUnderKey regs request = some reg →
        reg.toolName = request.toolName ∧ reg.functionName = request.functionName) ∧
    ((∀ reg ∈ regs, '.' ∉ reg.toolName.toList) → '.' ∉ request.toolName.toList →
      RunsAuthorised rt timeoutS regs request) := by
  have hnames : ∀ reg : Registration, reg.toolName = request.toolName ∧ reg.functionName = request.functionName →
      implementationKey reg.toolName reg.functionName =
        implementationKey request.toolName request.functionName := by
    rintro reg ⟨htool, hfunction⟩
    rw [htool, hfunction]
  have hiff : ∀ regs, RunsAuthorised rt timeoutS regs request ↔ ∀ reg, lastUnderKey regs request = some reg →
      (reg.toolName = request.toolName ∧ reg.functionName = request.functionName) ∨
        reg.impl = authorised regs request := by
    intro regs
    rw [runsAuthorised_iff]
    cases hlast : lastUnderKey regs request with
    | none =>
      refine iff_of_true ?_ (by simp)
      rw [authorised, lastWith_none_of_imp hnames hlast]
    | some reg =>
      simp only [Option.map_some, Option.getD_some, Option.some.injEq, forall_eq']
      refine ⟨Or.inr, fun h => h.elim (fun hexact => ?_) id⟩
      rw [authorised, lastWith_of_imp hnames hlast hexact]
      rfl
  refine ⟨hiff regs, ⟨fun h reg hlast => ?_, fun h impls => (hiff _).2 fun reg' hlast' => Or.inl ?_⟩,
    fun hregs hrequest => (hiff regs).2 fun reg hlast => Or.inl ?_⟩
  · obtain ⟨reg', hlast', hnames'⟩ : ∃ reg', lastUnderKey (withImplementations .callable regs) request = some reg' ∧
        reg'.names = reg.names := by
      have hmap := lastUnderKey_names .callable regs request
      rw [hlast] at hmap
      exact Option.map_eq_some_iff.1 hmap
    obtain ⟨htool, hfunction⟩ := Prod.mk.inj hnames'
    rw [← htool, ← hfunction]
    exact exact_of_callable (h .callable) hlast'
  · have hmap := lastUnderKey_names impls regs request
    rw [hlast'] at hmap
    obtain ⟨reg, hlast, hnames'⟩ := Option.map_eq_some_iff.1 hmap.symm
    obtain ⟨htool, hfunction⟩ := Prod.mk.inj hnames'
    rw [← htool, ← hfunction]
    exact h reg hlast
  · obtain ⟨hmem, hkey⟩ := of_lastWith hlast
    exact implementationKey_inj (hregs reg hmem) hrequest hkey

/-- The function `c` of the tool `a.b`, and the function `b.c` of the tool `a`. -/
def dottedRegs : List Registration := [⟨"a.b", "c", .callable 1⟩, ⟨"a", "b.c", .callable 2⟩]

def dottedRequest (toolName functionName : String) : ToolRequest := ⟨toolName, functionName, Dict.empty, "c1"⟩

/-- The call of `c` of `a.b` runs what was registered for `b.c` of `a`. -/
theorem dotted_names_collide : authorised dottedRegs (dottedRequest "a.b" "c") = .callable 1 ∧
    (registered .nan dottedRegs).implementationOf (dottedRequest "a.b" "c") = .callable 2 ∧
    ∀ rt, ¬ RunsAuthorised rt .nan dottedRegs (dottedRequest "a.b" "c") := by
  have hauthorised : authorised dottedRegs (dottedRequest "a.b" "c") = .callable 1 := by decide +kernel
  have hlast : ((lastUnderKey dottedRegs (dottedRequest "a.b" "c")).map Registration.impl).getD .default =
      .callable 2 := by decide +kernel
  refine ⟨hauthorised, by rw [implementationOf_registered, hlast], fun rt h => ?_⟩
  have hsame := runsAuthorised_iff.1 h
  rw [hauthorised, hlast] at hsame
  cases hsame

def plainRegs : List Registration := [⟨"search_tool", "query", .callable 1⟩, ⟨"search_tool", "index", .callable 2⟩]

theorem dispatch_plain : RunsAuthorised ⟨fun _ _ => .nan, fun _ => "5.0"⟩ .nan plainRegs
    (dottedRequest "search_tool" "query") := by
  refine (dispatch_iff _ .nan plainRegs _).2.2 ?_ (by decide)
  simp only [plainRegs, List.forall_mem_cons, List.not_mem_nil, false_implies, implies_true, and_true]
  decide

end Aimw.Sandbox
