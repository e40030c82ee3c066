import Aimw.Interceptor.Authorization
import Aimw.Reliability.CircuitBreaker
import Mathlib.Data.List.TakeWhile

/-!
# What a failing tool costs

An in-memory circuit breaker behind one interceptor, whose calls run one after another.  If every execution for a
breaker key fails, at most `min_samples` executions for it are recorded in a time shorter than the window and the
cooldown.
-/

namespace Aimw.Reliability

open Lib Coro Interceptor

/-! ## The breaker behind the interceptor -/

/-- The breaker and the clock; `recorded` remembers all outcomes that were ever recorded for a key. -/
structure BreakerWorld (T : Type) where
  breaker : InMemoryCircuitBreakerBackend T
  now : T
  recorded : String → List (T × Bool) := fun _ => []

/-- A question or a report to the circuit breaker. -/
def usesBreaker : Op → Bool
  | .check _ _ | .recordResult _ _ _ => true
  | _ => false

variable {T : Type} [AddCommGroup T] [LinearOrder T] [IsOrderedAddMonoid T]

/-- The breaker answers at a time of its own; the other collaborators answer as they like, and time passes. -/
inductive Serving : BreakerWorld T → (q : Op) → q.Answer → BreakerWorld T → Prop
  | check (w : BreakerWorld T) (agentId toolName : String) (now : T) : w.now ≤ now →
      Serving w (.check agentId toolName) (w.breaker.check agentId toolName now).1
        { w with breaker := (w.breaker.check agentId toolName now).2, now }
  | recordResult (w : BreakerWorld T) (agentId toolName : String) (success : Bool) (now : T) : w.now ≤ now →
      Serving w (.recordResult agentId toolName success) (.ok ())
        { breaker := w.breaker.recordResult agentId toolName now success
          now
          recorded := Function.update w.recorded (keyFor agentId toolName)
            (w.recorded (keyFor agentId toolName) ++ [(now, success)]) }
  | other (w : BreakerWorld T) (q : Op) (a : q.Answer) (now : T) : usesBreaker q = false → w.now ≤ now →
      Serving w q a { w with now }

/-- Calls of `handle`, one after another. -/
inductive Calls (rt : Runtime) (ic : ToolCallInterceptor) : BreakerWorld T → BreakerWorld T → Prop
  | nil (w : BreakerWorld T) : Calls rt ic w w
  | snoc {w w₁ w' : BreakerWorld T} {context : ExecutionContext} {request : ToolRequest} {tr : Trace}
      {r : Except Exc InterceptorResult} : Calls rt ic w w₁ →
      Runs Serving w₁ (ic.handle rt context request) tr r w' → Calls rt ic w w'

/-! ## The breaker of a tool that always fails -/

/-- The outcomes recorded for a key in an interval. -/
def recordedIn (w : BreakerWorld T) (key : String) (lo hi : T) : List (T × Bool) :=
  (w.recorded key).filter fun e => lo ≤ e.1 ∧ e.1 ≤ hi

def AlwaysFails (w : BreakerWorld T) (key : String) : Prop := ∀ e ∈ w.recorded key, e.2 = false

/-- An interval shorter than the window and the cooldown. -/
def Short (settings : Settings T) (lo hi : T) : Prop :=
  hi - lo < settings.windowSeconds ∧ hi - lo < settings.cooldownSeconds

/-- What the breaker knows of a key: all that was recorded lately, unless it was cleared, and then nothing was.  A
trip is later than all that was recorded. -/
structure Within (settings : Settings T) (key : String) (w : BreakerWorld T) : Prop where
  configured : w.breaker.settings = settings
  past : ∀ e ∈ w.recorded key, e.1 ≤ w.now
  failed : ∀ e ∈ w.breaker.events key, e.2 = false
  kept : ∀ lo, Short settings lo w.now →
    ((w.breaker.events key).filter fun e => lo ≤ e.1) = (w.recorded key).filter fun e => lo ≤ e.1
  tripped : ∀ t ∈ w.breaker.trippedAt key, ∀ e ∈ w.recorded key, e.1 ≤ t
  bounded : ∀ lo hi, Short settings lo hi → ((recordedIn w key lo hi).length : ℤ) ≤ settings.minSamples

/-- The circuit is closed, and there is room for one more failure. -/
def Room (key : String) (w : BreakerWorld T) : Prop :=
  w.breaker.trippedAt key = none ∧ ((w.breaker.events key).length : ℤ) < w.breaker.settings.minSamples

variable {settings : Settings T} {key : String} {w w' : BreakerWorld T} {now : T}

lemma Short.mono {lo hi hi' : T} (h : Short settings lo hi') (hle : hi ≤ hi') : Short settings lo hi :=
  ⟨(sub_le_sub_right hle lo).trans_lt h.1, (sub_le_sub_right hle lo).trans_lt h.2⟩

/-- Only what belongs to the key matters, and the time. -/
lemma Within.congr (h : Within settings key w) (hsettings : w'.breaker.settings = w.breaker.settings)
    (hevents : w'.breaker.events key = w.breaker.events key)
    (htripped : w'.breaker.trippedAt key = w.breaker.trippedAt key) (hrecorded : w'.recorded key = w.recorded key)
    (hnow : w.now ≤ w'.now) : Within settings key w' where
  configured := hsettings.trans h.configured
  past := by
    rw [hrecorded]
    exact fun e he => (h.past e he).trans hnow
  failed := by
    rw [hevents]
    exact h.failed
  kept lo hlo := by
    rw [hevents, hrecorded]
    exact h.kept lo (hlo.mono hnow)
  tripped := by
    rw [htripped, hrecorded]
    exact h.tripped
  bounded lo hi hshort := by
    rw [recordedIn, hrecorded]
    exact h.bounded lo hi hshort

/-- What `_prune` drops is older than anything that still counts. -/
lemma filter_prune {lo : T} (hshort : Short settings lo now) (hsettings : w.breaker.settings = settings) :
    (((w.breaker.prune key now).events key).filter fun e => lo ≤ e.1) =
      (w.breaker.events key).filter fun e => lo ≤ e.1 := by
  rw [InMemoryCircuitBreakerBackend.prune]
  simp only [Function.update_self, hsettings]
  conv_rhs => rw [← List.takeWhile_append_dropWhile (p := fun e => decide (e.1 < now - settings.windowSeconds))
    (l := w.breaker.events key), List.filter_append]
  have hold : ((w.breaker.events key).takeWhile fun e => decide (e.1 < now - settings.windowSeconds)).filter
      (fun e => lo ≤ e.1) = [] := by
    refine List.filter_eq_nil_iff.2 fun e he => ?_
    have hlt : e.1 < now - settings.windowSeconds := by simpa using List.mem_takeWhile_imp he
    have hwindow : now - settings.windowSeconds < lo := sub_lt_comm.1 hshort.1
    simpa using hlt.trans hwindow
  rw [hold, List.nil_append]

omit [IsOrderedAddMonoid T] in
lemma mem_events_prune {b : InMemoryCircuitBreakerBackend T} {e : T × Bool} (he : e ∈ (b.prune key now).events key) :
    e ∈ b.events key := by
  rw [InMemoryCircuitBreakerBackend.prune] at he
  simp only [Function.update_self] at he
  exact List.dropWhile_sublist _ |>.subset he

theorem Within.prune (h : Within settings key w) (hnow : w.now ≤ now) :
    Within settings key { w with breaker := w.breaker.prune key now, now } where
  configured := h.configured
  past e he := (h.past e he).trans hnow
  failed e he := h.failed e (mem_events_prune he)
  kept lo hlo := (filter_prune hlo h.configured).trans (h.kept lo (hlo.mono hnow))
  tripped := h.tripped
  bounded := h.bounded

omit [IsOrderedAddMonoid T] in
theorem Within.trip (h : Within settings key w) : Within settings key { w with breaker :=
    { w.breaker with trippedAt := Function.update w.breaker.trippedAt key (some w.now) } } where
  configured := h.configured
  past := h.past
  failed := h.failed
  kept := h.kept
  tripped t ht e he := by
    simp only [Function.update_self, Option.mem_def, Option.some.injEq] at ht
    exact ht ▸ h.past e he
  bounded := h.bounded

/-- When a cooldown ends, nothing was recorded for so long that the cleared history is not missed. -/
theorem Within.clear {t : T} (h : Within settings key w) (ht : w.breaker.trippedAt key = some t)
    (hover : ¬ w.now - t < settings.cooldownSeconds) : Within settings key { w with breaker :=
    { w.breaker with
      trippedAt := Function.update w.breaker.trippedAt key none
      events := Function.update w.breaker.events key [] } } where
  configured := h.configured
  past := h.past
  failed e he := by
    simp only [Function.update_self, List.not_mem_nil] at he
  kept lo hlo := by
    simp only [Function.update_self, List.filter_nil]
    refine (List.filter_eq_nil_iff.2 fun e he => ?_).symm
    have htrip : e.1 ≤ t := h.tripped t ht e he
    have hcool : t < lo := lt_of_not_ge fun hle => hover ((sub_le_sub_left hle w.now).trans_lt hlo.2)
    simpa using htrip.trans_lt hcool
  tripped t' ht' := by
    simp only [Function.update_self, Option.mem_def, reduceCtorEq] at ht'
  bounded := h.bounded

/-- One more failure, when there is room for it. -/
theorem Within.record (h : Within settings key w) (hroom : Room key w) (hnow : w.now ≤ now) :
    Within settings key {
      breaker := w.breaker.record key now false
      now
      recorded := Function.update w.recorded key (w.recorded key ++ [(now, false)]) } := by
  have hevents : (w.breaker.record key now false).events key =
      (w.breaker.prune key now).events key ++ [(now, false)] := by
    rw [InMemoryCircuitBreakerBackend.record]
    simp only [Function.update_self]
  have hkept : ∀ lo, Short settings lo now →
      (((w.breaker.prune key now).events key).filter fun e => lo ≤ e.1) =
        (w.recorded key).filter fun e => lo ≤ e.1 := (h.prune hnow).kept
  refine ⟨h.configured, fun e he => ?_, fun e he => ?_, fun lo hlo => ?_, fun t ht => ?_, fun lo hi hshort => ?_⟩
  · simp only [Function.update_self] at he
    rcases List.mem_append.1 he with he | he
    · exact (h.past e he).trans hnow
    · exact (congrArg Prod.fst (List.mem_singleton.1 he)).le
  · rw [hevents] at he
    rcases List.mem_append.1 he with he | he
    · exact h.failed e (mem_events_prune he)
    · exact congrArg Prod.snd (List.mem_singleton.1 he)
  · simp only [Function.update_self]
    rw [hevents, List.filter_append, List.filter_append, hkept lo hlo]
  · exact absurd (hroom.1.symm.trans ht) (by simp)
  · simp only [recordedIn, Function.update_self]
    rw [List.filter_append, List.length_append]
    by_cases hlate : now ≤ hi
    · -- the failures in the interval are among those the breaker knows
      have hlo : Short settings lo now := hshort.mono hlate
      have hsub : ((w.recorded key).filter fun e => lo ≤ e.1 ∧ e.1 ≤ hi).length ≤ (w.breaker.events key).length :=
        calc ((w.recorded key).filter fun e => lo ≤ e.1 ∧ e.1 ≤ hi).length
            ≤ ((w.recorded key).filter fun e => lo ≤ e.1).length :=
              (List.monotone_filter_right _ fun e he => by simpa using (by simpa using he : _ ∧ _).1).length_le
          _ = (((w.breaker.events key)).filter fun e => lo ≤ e.1).length := by rw [h.kept lo (hlo.mono hnow)]
          _ ≤ (w.breaker.events key).length := List.length_filter_le ..
      have hone : ([(now, false)].filter fun e => lo ≤ e.1 ∧ e.1 ≤ hi).length ≤ 1 := List.length_filter_le ..
      have hroom := hroom.2
      rw [h.configured] at hroom
      omega
    · have hnone : [(now, false)].filter (fun e => lo ≤ e.1 ∧ e.1 ≤ hi) = [] := by simp [hlate]
      rw [hnone, List.length_nil, Nat.add_zero]
      exact h.bounded lo hi hshort

/-- A question about the key: if the answer is that the circuit is closed, there is room. -/
theorem Within.isOpen (h : Within settings key w) (hmin : 1 ≤ settings.minSamples)
    (hthreshold : settings.failureThreshold ≤ 1) (hnow : w.now ≤ now) :
    Within settings key { w with breaker := (w.breaker.isOpen key now).2, now } ∧
      ((w.breaker.isOpen key now).1 = .ok false → Room key { w with breaker := (w.breaker.isOpen key now).2, now }) := by
  have hwaited : Within settings key { w with now } := h.congr rfl rfl rfl rfl hnow
  cases ht : w.breaker.trippedAt key with
  | some t =>
    by_cases hcool : now - t < w.breaker.settings.cooldownSeconds
    · rw [w.breaker.isOpen_cooling ht hcool]
      exact ⟨hwaited, by simp⟩
    · rw [w.breaker.isOpen_cooled ht hcool]
      refine ⟨hwaited.clear ht (h.configured ▸ hcool), fun _ => ⟨Function.update_self .., ?_⟩⟩
      simp only [Function.update_self, List.length_nil, Nat.cast_zero, h.configured]
      omega
  | none =>
    have hfailed : ∀ o ∈ w.breaker.outcomes key now, o = false := fun o ho => by
      obtain ⟨e, he, rfl⟩ := List.mem_map.1 ho
      exact h.failed e (mem_events_prune he)
    by_cases hmany : tooManyFailures w.breaker.settings (w.breaker.outcomes key now) = .ok true
    · rw [w.breaker.isOpen_tripping ht hmany]
      exact ⟨(h.prune hnow).trip, by simp⟩
    · rw [w.breaker.isOpen_closed ht hmany]
      refine ⟨h.prune hnow, fun _ => ⟨ht, ?_⟩⟩
      rw [h.configured] at hmany
      have hfew := mt (tooManyFailures_of_failed hmin hthreshold hfailed) hmany
      rw [InMemoryCircuitBreakerBackend.outcomes, List.length_map] at hfew
      show (((w.breaker.prune key now).events key).length : ℤ) < (w.breaker.prune key now).settings.minSamples
      rw [show (w.breaker.prune key now).settings = settings from h.configured]
      omega

/-! ## The calls of the interceptor -/

variable {rt : Runtime} {ic : ToolCallInterceptor} {context : ExecutionContext} {request : ToolRequest}

/-- As long as all executions for the key fail, the breaker keeps track of it. -/
def Tracked (settings : Settings T) (key : String) (w : BreakerWorld T) : Prop :=
  AlwaysFails w key → Within settings key w

theorem Tracked.check {agentId toolName : String} {a : Except Exc Bool} (h : Tracked settings key w)
    (hmin : 1 ≤ settings.minSamples) (hthreshold : settings.failureThreshold ≤ 1)
    (hserve : Serving w (.check agentId toolName) a w') :
    Tracked settings key w' ∧ (a = .ok true → key = keyFor agentId toolName → AlwaysFails w' key → Room key w') := by
  cases hserve with
  | other _ _ _ hbreaker => cases hbreaker
  | check _ _ now hnow =>
    by_cases hkey : key = keyFor agentId toolName
    · subst hkey
      refine ⟨fun hfails => ((h hfails).isOpen hmin hthreshold hnow).1, fun hclosed _ hfails => ?_⟩
      apply ((h hfails).isOpen hmin hthreshold hnow).2
      replace hclosed : (w.breaker.isOpen (keyFor agentId toolName) now).1.map not = .ok true := hclosed
      cases hopen : (w.breaker.isOpen (keyFor agentId toolName) now).1 with
      | error e =>
        rw [hopen] at hclosed
        cases hclosed
      | ok o =>
        rw [hopen] at hclosed
        cases o with
        | true => cases hclosed
        | false => rfl
    · obtain ⟨hsettings, hevents, htripped⟩ := w.breaker.isOpen_frame now hkey
      exact ⟨fun hfails => (h hfails).congr hsettings hevents htripped rfl hnow, fun _ heq => absurd heq hkey⟩

theorem Tracked.recordResult {agentId toolName : String} {success : Bool} {a : Except Exc Unit}
    (h : Tracked settings key w) (hroom : key = keyFor agentId toolName → AlwaysFails w key → Room key w)
    (hserve : Serving w (.recordResult agentId toolName success) a w') : Tracked settings key w' := by
  cases hserve with
  | other _ _ _ hbreaker => cases hbreaker
  | recordResult _ _ _ now hnow =>
    intro hfails
    by_cases hkey : key = keyFor agentId toolName
    · subst hkey
      simp only [AlwaysFails, Function.update_self, List.forall_mem_append, List.forall_mem_singleton] at hfails
      obtain ⟨hbefore, rfl⟩ := hfails
      exact (h hbefore).record (hroom rfl hbefore) hnow
    · have hfails : AlwaysFails w key := by
        simpa only [AlwaysFails, Function.update_of_ne hkey] using hfails
      rw [InMemoryCircuitBreakerBackend.recordResult_eq]
      refine (h hfails).congr rfl ?_ rfl (Function.update_of_ne hkey ..) hnow
      simp only [InMemoryCircuitBreakerBackend.record, InMemoryCircuitBreakerBackend.prune, Function.update_self,
        Function.update_of_ne hkey]

omit [AddCommGroup T] [LinearOrder T] [IsOrderedAddMonoid T] in
lemma Room.congr (h : Room key w) (hbreaker : w'.breaker = w.breaker) : Room key w' := by
  rw [Room, hbreaker]
  exact h

/-- Calls that have nothing to do with the breaker. -/
def Quiet (tr : Trace) : Prop := ∀ event ∈ tr, usesBreaker event.1 = false

omit [IsOrderedAddMonoid T] in
theorem Quiet.trail {tr : Trace} (hquiet : Quiet tr) (h : Trail Serving w tr w') :
    w'.breaker = w.breaker ∧ w'.recorded = w.recorded ∧ w.now ≤ w'.now := by
  induction h with
  | nil w => exact ⟨rfl, rfl, le_rfl⟩
  | cons hserve _ ih =>
    have hevent := hquiet _ List.mem_cons_self
    obtain ⟨hbreaker, hrecorded, hnow⟩ := ih fun e he => hquiet e (List.mem_cons_of_mem _ he)
    cases hserve with
    | check => cases hevent
    | recordResult => cases hevent
    | other _ _ now _ hpassed => exact ⟨hbreaker, hrecorded, hpassed.trans hnow⟩

theorem Tracked.quiet {tr : Trace} (h : Tracked settings key w) (hquiet : Quiet tr) (htrail : Trail Serving w tr w') :
    Tracked settings key w' := by
  obtain ⟨hbreaker, hrecorded, hnow⟩ := hquiet.trail htrail
  intro hfails
  rw [AlwaysFails, hrecorded] at hfails
  exact (h hfails).congr (by rw [hbreaker]) (by rw [hbreaker]) (by rw [hbreaker]) (by rw [hrecorded]) hnow

lemma Quiet.of_working {tr : Trace} (h : Working tr) : Quiet tr := by
  intro event hevent
  have hwork := h event hevent
  generalize event.1 = q at hwork ⊢
  cases q <;> first | rfl | cases hwork

/-- One call of `handle`. -/
theorem Tracked.handle {tr : Trace} {r : Except Exc InterceptorResult} (h : Tracked settings key w)
    (hmin : 1 ≤ settings.minSamples) (hthreshold : settings.failureThreshold ≤ 1)
    (hrun : Runs Serving w (ic.handle rt context request) tr r w') : Tracked settings key w' := by
  have hpath := handle_path hrun
  have htrail := hrun.trail
  have hlogged : ∀ d s a, Quiet [logged context request d s a] := by simp [Quiet, usesBreaker]
  cases hpath with
  | gateRaised hgate =>
    obtain ⟨-, rfl⟩ := hgate.error_eq
    exact (h.check hmin hthreshold (trail_singleton_iff.1 htrail)).1
  | circuitOpen hgate _ =>
    obtain ⟨w₁, hchecked, hlast⟩ := trail_append_iff.1 htrail
    obtain ⟨-, hclosed, -⟩ | ⟨-, rfl⟩ := hgate.ok_eq
    · cases hclosed
    · exact (h.check hmin hthreshold (trail_singleton_iff.1 hchecked)).1.quiet (hlogged _ _ _) hlast
  | decided hgate hbody =>
    obtain ⟨w₂, hfront, hlast⟩ := trail_append_iff.1 htrail
    refine Tracked.quiet ?_ (hlogged _ _ _) hlast
    obtain ⟨w₁, hchecked, hbodyTrail⟩ := trail_append_iff.1 hfront
    obtain ⟨hnone, -, rfl⟩ | ⟨-, rfl⟩ := hgate.ok_eq
    · cases hchecked
      rcases hbody.ending with ⟨hworking, -⟩ | ⟨-, -, -, -, -, -, hbreaker, -⟩
      · exact h.quiet (.of_working hworking) hbodyTrail
      · exact absurd (hnone.symm.trans hbreaker) (by simp)
    · obtain ⟨hkept, hroom⟩ := h.check hmin hthreshold (trail_singleton_iff.1 hchecked)
      rcases hbody.ending with ⟨hworking, -⟩ | ⟨u, s, a, hworking, -, -, -, rfl⟩
      · exact hkept.quiet (.of_working hworking) hbodyTrail
      · -- the room that the check found is still there when the failure is reported
        obtain ⟨w₃, hwaited, hreported⟩ := trail_append_iff.1 hbodyTrail
        have hquiet := Quiet.of_working hworking
        obtain ⟨hsame, hrecorded, -⟩ := hquiet.trail hwaited
        refine (hkept.quiet hquiet hwaited).recordResult (fun hkey hfails => ?_) (trail_singleton_iff.1 hreported)
        rw [AlwaysFails, hrecorded] at hfails
        exact (hroom rfl hkey hfails).congr hsame

/-- All calls. -/
theorem Tracked.calls (h : Tracked settings key w) (hmin : 1 ≤ settings.minSamples)
    (hthreshold : settings.failureThreshold ≤ 1) (hcalls : Calls rt ic w w') : Tracked settings key w' := by
  induction hcalls with
  | nil => exact h
  | snoc _ hrun ih => exact ih.handle hmin hthreshold hrun

omit [IsOrderedAddMonoid T] in
lemma within_empty (hmin : 1 ≤ settings.minSamples) : Within settings key { breaker := { settings }, now } where
  configured := rfl
  past _ he := by cases he
  failed _ he := by cases he
  kept _ _ := rfl
  tripped _ ht := by cases ht
  bounded lo hi _ := by
    rw [recordedIn, List.filter_nil, List.length_nil]
    omega

/-- **A failing tool costs a bounded number of executions.**  If every recorded execution for a key failed, at most
`min_samples` of them are recorded in an interval shorter than the window and the cooldown. -/
theorem failures_bounded {lo hi : T} (hmin : 1 ≤ settings.minSamples) (hthreshold : settings.failureThreshold ≤ 1)
    (hcalls : Calls rt ic { breaker := { settings }, now } w) (hfails : AlwaysFails w key)
    (hshort : Short settings lo hi) : ((recordedIn w key lo hi).length : ℤ) ≤ settings.minSamples := by
  have htracked : Tracked settings key w :=
    Tracked.calls (fun _ => within_empty hmin) hmin hthreshold hcalls
  exact (htracked hfails).bounded lo hi hshort

/-- The engine allows everything, the approver approves, the sandbox fails, and everything takes a second. -/
def failing : (q : Op) → BreakerWorld ℤ → q.Answer × BreakerWorld ℤ
  | .check agentId toolName, w =>
    ((w.breaker.check agentId toolName (w.now + 1)).1,
      { w with breaker := (w.breaker.check agentId toolName (w.now + 1)).2, now := w.now + 1 })
  | .recordResult agentId toolName success, w =>
    (.ok (), {
      breaker := w.breaker.recordResult agentId toolName (w.now + 1) success
      now := w.now + 1
      recorded := Function.update w.recorded (keyFor agentId toolName)
        (w.recorded (keyFor agentId toolName) ++ [(w.now + 1, success)]) })
  | .evaluateToolCall _ _ _, w => (.returned sampleDecision, { w with now := w.now + 1 })
  | .approvalCallback _ _ _, w => (.ok true, { w with now := w.now + 1 })
  | .monotonic, w => (.finite ⟨['1', '.', '0'], rfl⟩, { w with now := w.now + 1 })
  | .execute _ _, w => (.error (.exception "boom"), { w with now := w.now + 1 })
  | .logCall _ _ _ _, w => (.error (.exception "disk full"), { w with now := w.now + 1 })

lemma serving_failing (q : Op) (w : BreakerWorld ℤ) : Serving w q (failing q w).1 (failing q w).2 := by
  have hnow : w.now ≤ w.now + 1 := by omega
  cases q with
  | check agentId toolName => exact .check w agentId toolName _ hnow
  | recordResult agentId toolName success => exact .recordResult w agentId toolName success _ hnow
  | _ => exact .other w _ _ _ rfl hnow

/-- After some calls of the same tool, which always fails. -/
def afterFailures : ℕ → BreakerWorld ℤ
  | 0 => {
    breaker := { settings := { windowSeconds := 60, failureThreshold := 1 / 2, minSamples := 2, cooldownSeconds := 30 } }
    now := 0 }
  | n + 1 =>
    (((sampleInterceptor true).handle sampleRuntime sampleContext sampleRequest).run failing (afterFailures n)).2.2

lemma calls_afterFailures (n : ℕ) : Calls sampleRuntime (sampleInterceptor true) (afterFailures 0) (afterFailures n) := by
  induction n with
  | zero => exact .nil _
  | succ n ih => exact ih.snoc (runs_run serving_failing _ _)

theorem failures_bounded_three : ((recordedIn (afterFailures 3) (keyFor "a" "t") 1 25).length : ℤ) ≤ 2 := by
  have hfails : ∀ e ∈ (afterFailures 3).recorded (keyFor "a" "t"), e.2 = false := by decide +kernel
  exact failures_bounded (by decide) (by decide +kernel) (calls_afterFailures 3) hfails ⟨by decide, by decide⟩

end Aimw.Reliability
