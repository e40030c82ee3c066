import Aimw.Reliability.Window

/-!
# Pairs that share a key

The facade `CircuitBreaker` makes one key of an agent and a tool, `f"{agent_id}:{tool_name}"`.  Pairs with different keys
do not see each other's calls; two pairs may have the same key, as `("a:b", "c")` and `("a", "b:c")` have
(`pairs_never_mix_iff`).
-/

namespace Aimw.Reliability

open Lib

inductive PairOp where
  | recordResult (success : Bool)
  | check
  | score

/-- A call for an agent and a tool, at a time. -/
structure PairCall (T : Type) where
  agentId : String
  toolName : String
  time : T
  op : PairOp

/-- What a caller of the facade gets back. -/
inductive PairReply where
  | recorded
  | check (answer : Except Exc Bool)
  | score (answer : Except Exc ℚ)

section Facade

variable {T : Type} [LinearOrder T] [Sub T] (b : InMemoryCircuitBreakerBackend T)

/-- `CircuitBreaker.score`. -/
def CircuitBreaker.score (agentId toolName : String) (now : T) : Except Exc ℚ × InMemoryCircuitBreakerBackend T :=
  b.score (keyFor agentId toolName) now

def InMemoryCircuitBreakerBackend.request (c : PairCall T) : PairReply × InMemoryCircuitBreakerBackend T :=
  match c.op with
  | .recordResult success => (.recorded, b.recordResult c.agentId c.toolName c.time success)
  | .check => (b.check c.agentId c.toolName c.time).map .check id
  | .score => (CircuitBreaker.score b c.agentId c.toolName c.time).map .score id

/-- The call of the backend. -/
def PairCall.keyCall {T : Type} (c : PairCall T) : KeyCall T where
  key := keyFor c.agentId c.toolName
  time := c.time
  call := match c.op with
    | .recordResult true => .recordSuccess
    | .recordResult false => .recordFailure
    | .check => .isOpen
    | .score => .score

/-- What the facade makes of an answer of the backend. -/
def PairReply.ofReply : Reply → PairReply
  | .recorded => .recorded
  | .score answer => .score answer
  | .isOpen answer => .check (answer.map not)

lemma request_eq (c : PairCall T) : b.request c = (b.serve c.keyCall).map PairReply.ofReply id := by
  obtain ⟨agentId, toolName, time, op⟩ := c
  cases op with
  | recordResult success => cases success <;> rfl
  | check => rfl
  | score => rfl

/-- The answers to the calls for a pair. -/
def answersTo (p : String × String) (calls : List (PairCall T)) : List (PairCall T × PairReply) :=
  observations InMemoryCircuitBreakerBackend.request (fun c => (c.agentId, c.toolName) = p) b calls

/-- The calls for other pairs. -/
def without {T : Type} (q : String × String) (calls : List (PairCall T)) : List (PairCall T) :=
  calls.filter fun c => !decide ((c.agentId, c.toolName) = q)

end Facade

section Keys

variable {T : Type} [LinearOrder T] [Sub T] {p q : String × String}

/-- Pairs with different keys. -/
theorem request_unwinds (hkey : keyFor p.1 p.2 ≠ keyFor q.1 q.2) :
    Unwinds (InMemoryCircuitBreakerBackend.request (T := T)) (fun c => (c.agentId, c.toolName) = p)
      (fun c => (c.agentId, c.toolName) = q) (SameAt (keyFor p.1 p.2)) where
  hidden b b' c hq h := by
    obtain rfl : (c.agentId, c.toolName) = q := by simpa using hq
    rw [request_eq]
    exact (serve_frame hkey).trans h
  kept b b' c _ h := by
    rw [request_eq, request_eq]
    exact h.serve_any
  answer b b' c hp h := by
    obtain rfl : (c.agentId, c.toolName) = p := by simpa using hp
    have hserve : (b.serve c.keyCall).1 = (b'.serve c.keyCall).1 := SameAt.serve h |>.1
    rw [request_eq, request_eq, Prod.map_fst, Prod.map_fst, hserve]
  disjoint c hp := by
    obtain rfl : (c.agentId, c.toolName) = p := by simpa using hp
    refine decide_eq_false fun hq => hkey ?_
    rw [hq]

end Keys

/-! ## One key for two pairs -/

section Collision

variable {T : Type} [AddCommGroup T] [LinearOrder T] [IsOrderedAddMonoid T] {settings : Settings T}
  {p q : String × String}

/-- A failure of one pair, and then the score of another. -/
def failThenScore (p q : String × String) : List (PairCall T) :=
  [⟨q.1, q.2, 0, .recordResult false⟩, ⟨p.1, p.2, 0, .score⟩]

/-- What has just failed counts. -/
lemma outcomes_record (hwindow : ¬ settings.windowSeconds < 0) (key : String) (now : T) :
    (({ settings } : InMemoryCircuitBreakerBackend T).record key now false).outcomes key now = [false] := by
  have hnow : ¬ now < now - settings.windowSeconds := by simpa using hwindow
  simp only [InMemoryCircuitBreakerBackend.outcomes, InMemoryCircuitBreakerBackend.record,
    InMemoryCircuitBreakerBackend.prune, Function.update_self, List.dropWhile_nil, List.nil_append]
  rw [List.dropWhile_cons_of_neg (by simpa using hnow)]
  rfl

/-- The failure of a pair shows in the score of another pair with the same key. -/
theorem failure_shows (hwindow : ¬ settings.windowSeconds < 0) (hne : p ≠ q) (hkey : keyFor p.1 p.2 = keyFor q.1 q.2) :
    answersTo { settings } p (failThenScore p q) = [(⟨p.1, p.2, 0, .score⟩, .score (.ok 1))] ∧
      answersTo { settings } p (without q (failThenScore p q)) = [(⟨p.1, p.2, 0, .score⟩, .score (.ok 0))] := by
  have hremoved : without q (failThenScore p q) = [(⟨p.1, p.2, 0, .score⟩ : PairCall T)] := by
    simp [without, failThenScore, hne]
  constructor
  · have hscore : ((({ settings } : InMemoryCircuitBreakerBackend T).recordResult q.1 q.2 0 false).score
        (keyFor p.1 p.2) 0).1 = .ok 1 := by
      have houtcomes := outcomes_record hwindow (keyFor p.1 p.2) (0 : T)
      rw [InMemoryCircuitBreakerBackend.recordResult_eq, ← hkey]
      show scoreOf (InMemoryCircuitBreakerBackend.outcomes _ _ _) = _
      rw [houtcomes]
      norm_num [scoreOf, failureRate]
    simp only [answersTo, observations, failThenScore, transcript]
    rw [List.filter_cons_of_neg (by simpa using hne.symm), List.filter_cons_of_pos (by simp), List.filter_nil]
    simp only [InMemoryCircuitBreakerBackend.request, CircuitBreaker.score, Prod.map_fst, hscore]
  · have hscore : (({ settings } : InMemoryCircuitBreakerBackend T).score (keyFor p.1 p.2) 0).1 = .ok 0 := by
      simp [InMemoryCircuitBreakerBackend.score, InMemoryCircuitBreakerBackend.prune, scoreOf]
    rw [hremoved]
    simp only [answersTo, observations, transcript]
    rw [List.filter_cons_of_pos (by simp), List.filter_nil]
    simp only [InMemoryCircuitBreakerBackend.request, CircuitBreaker.score, Prod.map_fst, hscore]

/-! ## A window that ends before it begins -/

/-- Nothing that was recorded by `last` is in the window. -/
structure Forgetful (settings : Settings T) (b : InMemoryCircuitBreakerBackend T) (last : T) : Prop where
  configured : b.settings = settings
  past : ∀ key, ∀ e ∈ b.events key, e.1 ≤ last
  closed : ∀ key, b.trippedAt key = none

/-- What a backend answers that remembers nothing. -/
def blankReply (settings : Settings T) : Call → Reply
  | .recordSuccess | .recordFailure => .recorded
  | .score => .score (.ok 0)
  | .isOpen => .isOpen (tooManyFailures settings [])

omit [AddCommGroup T] [LinearOrder T] [IsOrderedAddMonoid T] in
lemma tooManyFailures_nil_ne (settings : Settings T) : tooManyFailures settings [] ≠ .ok true := by
  unfold tooManyFailures
  split_ifs
  · simp
  · simp [failureRate, Except.map]

variable {b : InMemoryCircuitBreakerBackend T} {c : KeyCall T} {last : T}

lemma Forgetful.prune (h : Forgetful settings b last) (hwindow : settings.windowSeconds < 0) (key : String) {now : T}
    (hnow : last ≤ now) : (b.prune key now).events key = [] := by
  have hcutoff : now < now - b.settings.windowSeconds := by
    rw [h.configured, lt_sub_iff_add_lt]
    simpa using hwindow
  simp only [InMemoryCircuitBreakerBackend.prune, Function.update_self]
  rw [List.dropWhile_eq_nil_iff]
  intro e he
  exact decide_eq_true (((h.past key e he).trans hnow).trans_lt hcutoff)

/-- What a call on the key leaves of it. -/
lemma Forgetful.serve_key (h : Forgetful settings b last) (hwindow : settings.windowSeconds < 0) (hnow : last ≤ c.time) :
    (b.serve c).1 = blankReply settings c.call ∧ (∀ e ∈ (b.serve c).2.events c.key, e.1 ≤ c.time) ∧
      (b.serve c).2.trippedAt c.key = none := by
  have hpruned := h.prune hwindow c.key hnow
  have houtcomes : b.outcomes c.key c.time = [] := by rw [InMemoryCircuitBreakerBackend.outcomes, hpruned, List.map_nil]
  have hrecord : ∀ success, ∀ e ∈ (b.record c.key c.time success).events c.key, e.1 ≤ c.time := by
    intro success e he
    simp only [InMemoryCircuitBreakerBackend.record, Function.update_self, hpruned, List.nil_append] at he
    obtain rfl := List.mem_singleton.1 he
    exact le_rfl
  unfold InMemoryCircuitBreakerBackend.serve
  cases c.call with
  | recordSuccess => exact ⟨rfl, hrecord true, h.closed c.key⟩
  | recordFailure => exact ⟨rfl, hrecord false, h.closed c.key⟩
  | score =>
    refine ⟨?_, ?_, h.closed c.key⟩
    · exact congrArg (fun outcomes => Reply.score (scoreOf outcomes)) houtcomes
    · intro e he
      exact absurd (hpruned ▸ he) List.not_mem_nil
  | isOpen =>
    have hfew : tooManyFailures b.settings (b.outcomes c.key c.time) ≠ .ok true := by
      rw [houtcomes]
      exact tooManyFailures_nil_ne _
    rw [b.isOpen_closed (h.closed c.key) hfew, houtcomes, h.configured]
    refine ⟨rfl, ?_, h.closed c.key⟩
    intro e he
    exact absurd (hpruned ▸ he) List.not_mem_nil

theorem Forgetful.serve (h : Forgetful settings b last) (hwindow : settings.windowSeconds < 0) (hnow : last ≤ c.time) :
    Forgetful settings (b.serve c).2 c.time := by
  obtain ⟨-, hpast, hclosed⟩ := h.serve_key hwindow hnow
  refine ⟨settings_serve.trans h.configured, ?_, ?_⟩
  · intro key
    by_cases hkey : key = c.key
    · rwa [hkey]
    · rw [(serve_frame hkey).events]
      exact fun e he => (h.past key e he).trans hnow
  · intro key
    by_cases hkey : key = c.key
    · rwa [hkey]
    · rw [(serve_frame hkey).trippedAt, h.closed key]

/-- A run that remembers nothing. -/
theorem Forgetful.transcript (hwindow : settings.windowSeconds < 0) {calls : List (PairCall T)}
    (hsorted : calls.Pairwise fun c d => c.time ≤ d.time) (h : ∀ c ∈ calls, Forgetful settings b c.time) :
    transcript InMemoryCircuitBreakerBackend.request b calls =
      calls.map fun c => (c, .ofReply (blankReply settings c.keyCall.call)) := by
  induction calls generalizing b with
  | nil => rfl
  | cons c calls ih =>
    obtain ⟨hc, -⟩ := List.forall_mem_cons.1 h
    obtain ⟨hle, hsorted⟩ := List.pairwise_cons.1 hsorted
    have hnow : c.time ≤ c.keyCall.time := le_rfl
    have hanswer := (hc.serve_key hwindow hnow).1
    have hnext : ∀ d ∈ calls, Forgetful settings (b.request c).2 d.time := by
      intro d hd
      rw [request_eq]
      have hserve := hc.serve hwindow hnow
      exact ⟨hserve.configured, fun key e he => (hserve.past key e he).trans (hle d hd), hserve.closed⟩
    rw [Lib.transcript, ih hsorted hnext, List.map_cons, request_eq, Prod.map_fst, hanswer]

omit [AddCommGroup T] [IsOrderedAddMonoid T] in
lemma forgetful_new (settings : Settings T) (now : T) : Forgetful settings { settings } now :=
  ⟨rfl, by simp, fun _ => rfl⟩

/-- Nobody sees anything of anybody. -/
theorem answersTo_without (hwindow : settings.windowSeconds < 0) (hne : p ≠ q) {calls : List (PairCall T)}
    (hsorted : calls.Pairwise fun c d => c.time ≤ d.time) :
    answersTo { settings } p calls = answersTo { settings } p (without q calls) := by
  have hfewer : (without q calls).Pairwise fun c d => c.time ≤ d.time := hsorted.sublist List.filter_sublist
  rw [answersTo, answersTo, observations, observations,
    Forgetful.transcript hwindow hsorted fun c _ => forgetful_new settings c.time,
    Forgetful.transcript hwindow hfewer fun c _ => forgetful_new settings c.time, List.filter_map, List.filter_map, without,
    List.filter_filter]
  refine congrArg _ (List.filter_congr fun c _ => ?_)
  by_cases hp : (c.agentId, c.toolName) = p
  · simp [hp, hne]
  · simp [hp]

/-- **When pairs do not mix.** -/
theorem pairs_never_mix_iff (settings : Settings T) {p q : String × String} (hne : p ≠ q) :
    (∀ calls : List (PairCall T), (calls.Pairwise fun c d => c.time ≤ d.time) →
        answersTo { settings } p calls = answersTo { settings } p (without q calls)) ↔
      keyFor p.1 p.2 ≠ keyFor q.1 q.2 ∨ settings.windowSeconds < 0 := by
  constructor
  · intro h
    by_contra hnot
    rw [not_or, not_not] at hnot
    obtain ⟨hkey, hwindow⟩ := hnot
    have hsame := h (failThenScore p q) (by simp [failThenScore])
    obtain ⟨hmixed, halone⟩ := failure_shows hwindow hne hkey
    rw [hmixed, halone] at hsame
    simp at hsame
  · rintro (hkey | hwindow) calls hsorted
    · exact (request_unwinds hkey).observations ⟨rfl, rfl, rfl⟩ calls
    · exact answersTo_without hwindow hne hsorted

/-- Another tool of the same agent. -/
theorem pairs_never_mix_otherTool :
    answersTo { settings := touchySettings } ("agent-1", "other_tool")
        (failThenScore ("agent-1", "other_tool") ("agent-1", "sql_tool")) =
      answersTo { settings := touchySettings } ("agent-1", "other_tool")
        (without ("agent-1", "sql_tool") (failThenScore ("agent-1", "other_tool") ("agent-1", "sql_tool"))) :=
  (pairs_never_mix_iff touchySettings (by decide)).2 (Or.inl (by decide)) _ (by simp [failThenScore])

/-- The failure of tool `b:c` of agent `a` counts for tool `c` of agent `a:b`. -/
theorem colliding_pairs_mix :
    (("a:b", "c") : String × String) ≠ ("a", "b:c") ∧
      answersTo { settings := touchySettings } ("a:b", "c") (failThenScore ("a:b", "c") ("a", "b:c")) =
        [(⟨"a:b", "c", 0, .score⟩, .score (.ok 1))] ∧
      answersTo { settings := touchySettings } ("a:b", "c") (without ("a", "b:c") (failThenScore ("a:b", "c") ("a", "b:c"))) =
        [(⟨"a:b", "c", 0, .score⟩, .score (.ok 0))] := by
  have hne : (("a:b", "c") : String × String) ≠ ("a", "b:c") := by decide
  exact ⟨hne, failure_shows (by decide) hne (by decide)⟩

end Collision

end Aimw.Reliability
