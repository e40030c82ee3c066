import Aimw.Lib.Redis
import Aimw.Models

/-!
# The circuit breaker

`reliability/circuit_breaker.py`: the two backends and the facade.  A method takes the time that the clock shows when
it is called; the ratio of failures is an exact number.  The clock of the Redis backend goes in whole seconds.
-/

namespace Aimw.Reliability

open Lib

structure Settings (T : Type) where
  windowSeconds : T
  failureThreshold : ℚ
  minSamples : ℤ
  cooldownSeconds : T

/-- `failures / len(events)`, which fails where there are none. -/
def failureRate (outcomes : List Bool) : Except Exc ℚ :=
  if outcomes = [] then .error (.exception "division by zero")
  else .ok ((outcomes.count false : ℚ) / outcomes.length)

/-- The number that `score` returns. -/
def scoreOf (outcomes : List Bool) : Except Exc ℚ := if outcomes = [] then .ok 0 else failureRate outcomes

/-- The test of `is_open` on the recent outcomes. -/
def tooManyFailures {T : Type} (settings : Settings T) (outcomes : List Bool) : Except Exc Bool :=
  if (outcomes.length : ℤ) < settings.minSamples then .ok false
  else (failureRate outcomes).map fun rate => settings.failureThreshold ≤ rate

lemma tooManyFailures_nil {T : Type} {settings : Settings T} (h : 1 ≤ settings.minSamples) :
    tooManyFailures settings [] = .ok false := by
  rw [tooManyFailures, if_pos]
  simpa using (by omega : 0 < settings.minSamples)

/-- Where all failed, the circuit trips as soon as there are enough samples. -/
lemma tooManyFailures_of_failed {T : Type} {settings : Settings T} {outcomes : List Bool} (hmin : 1 ≤ settings.minSamples)
    (hthreshold : settings.failureThreshold ≤ 1) (hfailed : ∀ o ∈ outcomes, o = false)
    (hmany : settings.minSamples ≤ outcomes.length) : tooManyFailures settings outcomes = .ok true := by
  have hne : outcomes ≠ [] := by
    rintro rfl
    simp only [List.length_nil, Nat.cast_zero] at hmany
    omega
  have hcount : outcomes.count false = outcomes.length := List.count_eq_length.2 fun o ho => (hfailed o ho).symm
  have hlength : (outcomes.length : ℚ) ≠ 0 := by
    rw [Nat.cast_ne_zero]
    exact List.length_pos_iff.2 hne |>.ne'
  rw [tooManyFailures, if_neg (by omega), failureRate, if_neg hne, hcount, div_self hlength]
  simp [Except.map, hthreshold]

/-! ## `InMemoryCircuitBreakerBackend` -/

/-- `events` holds the recent outcomes of a key with their times, and `trippedAt` when its circuit tripped, if it
is open. -/
structure InMemoryCircuitBreakerBackend (T : Type) where
  settings : Settings T
  events : String → List (T × Bool) := fun _ => []
  trippedAt : String → Option T := fun _ => none

namespace InMemoryCircuitBreakerBackend

variable {T : Type} [LinearOrder T] [Sub T] (b : InMemoryCircuitBreakerBackend T) (key : String) (now : T)

/-- `_prune`. -/
def prune : InMemoryCircuitBreakerBackend T :=
  { b with
    events := Function.update b.events key
      ((b.events key).dropWhile fun e => e.1 < now - b.settings.windowSeconds) }

def record (success : Bool) : InMemoryCircuitBreakerBackend T :=
  let b := b.prune key now
  { b with events := Function.update b.events key (b.events key ++ [(now, success)]) }

def recordSuccess : InMemoryCircuitBreakerBackend T := b.record key now true

def recordFailure : InMemoryCircuitBreakerBackend T := b.record key now false

def score : Except Exc ℚ × InMemoryCircuitBreakerBackend T :=
  let b := b.prune key now
  (scoreOf ((b.events key).map Prod.snd), b)

def isOpen : Except Exc Bool × InMemoryCircuitBreakerBackend T :=
  match b.trippedAt key with
  | some trippedAt =>
    if now - trippedAt < b.settings.cooldownSeconds then (.ok true, b)
    else (.ok false,
      { b with
        trippedAt := Function.update b.trippedAt key none
        events := Function.update b.events key [] })
  | none =>
    let b := b.prune key now
    match tooManyFailures b.settings ((b.events key).map Prod.snd) with
    | .ok true => (.ok true, { b with trippedAt := Function.update b.trippedAt key (some now) })
    | answer => (answer, b)

/-- The outcomes on which `is_open` decides. -/
def outcomes : List Bool := ((b.prune key now).events key).map Prod.snd

section IsOpen

variable {b key now} {trippedAt : T}

lemma isOpen_cooling (ht : b.trippedAt key = some trippedAt) (hcool : now - trippedAt < b.settings.cooldownSeconds) :
    b.isOpen key now = (.ok true, b) := by
  unfold isOpen
  rw [ht]
  exact if_pos hcool

lemma isOpen_cooled (ht : b.trippedAt key = some trippedAt) (hcool : ¬ now - trippedAt < b.settings.cooldownSeconds) :
    b.isOpen key now = (.ok false, { b with
      trippedAt := Function.update b.trippedAt key none
      events := Function.update b.events key [] }) := by
  unfold isOpen
  rw [ht]
  exact if_neg hcool

lemma isOpen_tripping (ht : b.trippedAt key = none) (hmany : tooManyFailures b.settings (b.outcomes key now) = .ok true) :
    b.isOpen key now = (.ok true, { b.prune key now with
      trippedAt := Function.update b.trippedAt key (some now) }) := by
  unfold isOpen
  rw [ht]
  simp only []
  split
  · rfl
  · next hnot => exact absurd hmany hnot

lemma isOpen_closed (ht : b.trippedAt key = none) (hmany : tooManyFailures b.settings (b.outcomes key now) ≠ .ok true) :
    b.isOpen key now = (tooManyFailures b.settings (b.outcomes key now), b.prune key now) := by
  unfold isOpen
  rw [ht]
  simp only []
  split
  · next heq => exact absurd heq hmany
  · rfl

variable (b now) in
/-- A question about another key. -/
lemma isOpen_frame {other : String} (hne : key ≠ other) :
    (b.isOpen other now).2.settings = b.settings ∧ (b.isOpen other now).2.events key = b.events key ∧
      (b.isOpen other now).2.trippedAt key = b.trippedAt key := by
  cases ht : b.trippedAt other with
  | some t =>
    by_cases hcool : now - t < b.settings.cooldownSeconds
    · rw [b.isOpen_cooling ht hcool]
      exact ⟨rfl, rfl, rfl⟩
    · rw [b.isOpen_cooled ht hcool]
      exact ⟨rfl, Function.update_of_ne hne .., Function.update_of_ne hne ..⟩
  | none =>
    by_cases hmany : tooManyFailures b.settings (b.outcomes other now) = .ok true
    · rw [b.isOpen_tripping ht hmany]
      exact ⟨rfl, Function.update_of_ne hne .., Function.update_of_ne hne ..⟩
    · rw [b.isOpen_closed ht hmany]
      exact ⟨rfl, Function.update_of_ne hne .., rfl⟩

end IsOpen

end InMemoryCircuitBreakerBackend

/-! ## `RedisCircuitBreakerBackend` -/

/-- The member `f"{time_ns}:{int(success)}"` of a sorted set, as its two parts. -/
abbrev Member : Type := ℤ × Bool

structure RedisCircuitBreakerBackend where
  redis : Redis Member
  settings : Settings ℤ
  keyPrefix : String := "aimw:cb"

namespace RedisCircuitBreakerBackend

variable (b : RedisCircuitBreakerBackend) (key : String) (now : ℤ)

def eventsKey : String := s!"{b.keyPrefix}:events:{key}"

def trippedKey : String := s!"{b.keyPrefix}:tripped:{key}"

/-- `_record`; `ns` is `time.time_ns()`. -/
def record (ns : ℤ) (success : Bool) : RedisCircuitBreakerBackend :=
  let redis := b.redis.zadd now (b.eventsKey key) (ns, success) now
  let redis := redis.zremrangebyscore now (b.eventsKey key) 0 (now - b.settings.windowSeconds)
  { b with redis := redis.expire now (b.eventsKey key) (b.settings.windowSeconds * 2) }

def recordSuccess (ns : ℤ) : RedisCircuitBreakerBackend := b.record key now ns true

def recordFailure (ns : ℤ) : RedisCircuitBreakerBackend := b.record key now ns false

/-- `_recent_events`. -/
def recentEvents : List Member × RedisCircuitBreakerBackend :=
  let redis := b.redis.zremrangebyscore now (b.eventsKey key) 0 (now - b.settings.windowSeconds)
  (redis.zrange now (b.eventsKey key), { b with redis })

def score : Except Exc ℚ × RedisCircuitBreakerBackend :=
  let (events, b) := b.recentEvents key now
  (scoreOf (events.map Prod.snd), b)

def isOpen : Except Exc Bool × RedisCircuitBreakerBackend :=
  if b.redis.ttl now (b.trippedKey key) > 0 then (.ok true, b)
  else
    let (events, b) := b.recentEvents key now
    match tooManyFailures b.settings (events.map Prod.snd) with
    | .ok true =>
      match b.redis.setex now (b.trippedKey key) b.settings.cooldownSeconds "1" with
      | some redis => (.ok true, { b with redis })
      | none => (.error (.exception "invalid expire time in 'setex' command"), b)
    | answer => (answer, b)

/-- The outcomes on which `is_open` decides. -/
def counted : List Bool := (b.recentEvents key now).1.map Prod.snd

section IsOpen

variable {b key now}

lemma isOpen_tripped (h : 0 < b.redis.ttl now (b.trippedKey key)) : b.isOpen key now = (.ok true, b) := if_pos h

lemma isOpen_tripping {redis : Redis Member} (h : ¬ 0 < b.redis.ttl now (b.trippedKey key))
    (hmany : tooManyFailures b.settings (b.counted key now) = .ok true)
    (hset : (b.recentEvents key now).2.redis.setex now (b.trippedKey key) b.settings.cooldownSeconds "1" = some redis) :
    b.isOpen key now = (.ok true, { b with redis }) := by
  unfold isOpen
  rw [if_neg h]
  simp only []
  split
  · split
    · next redis' hset' =>
      obtain rfl := Option.some.inj (hset'.symm.trans hset)
      rfl
    · next hrefused => exact absurd (hrefused.symm.trans hset) (by simp)
  · next hnot => exact absurd hmany hnot

lemma isOpen_closed (h : ¬ 0 < b.redis.ttl now (b.trippedKey key))
    (hmany : tooManyFailures b.settings (b.counted key now) ≠ .ok true) :
    b.isOpen key now = (tooManyFailures b.settings (b.counted key now), (b.recentEvents key now).2) := by
  unfold isOpen
  rw [if_neg h]
  simp only []
  split
  · next heq => exact absurd heq hmany
  · rfl

end IsOpen

end RedisCircuitBreakerBackend

/-! ## `CircuitBreaker` -/

/-- `CircuitBreaker.key_for`. -/
def keyFor (agentId toolName : String) : String := s!"{agentId}:{toolName}"

namespace InMemoryCircuitBreakerBackend

variable {T : Type} [LinearOrder T] [Sub T] (b : InMemoryCircuitBreakerBackend T) (agentId toolName : String) (now : T)

/-- `CircuitBreaker.check`: are calls allowed? -/
def check : Except Exc Bool × InMemoryCircuitBreakerBackend T :=
  (b.isOpen (keyFor agentId toolName) now).map (Except.map not) id

/-- `CircuitBreaker.record_result`. -/
def recordResult (success : Bool) : InMemoryCircuitBreakerBackend T :=
  if success then b.recordSuccess (keyFor agentId toolName) now else b.recordFailure (keyFor agentId toolName) now

lemma recordResult_eq (success : Bool) :
    b.recordResult agentId toolName now success = b.record (keyFor agentId toolName) now success := by
  cases success <;> rfl

end InMemoryCircuitBreakerBackend

end Aimw.Reliability
