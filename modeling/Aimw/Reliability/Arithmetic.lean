import Aimw.Reliability.Window

/-!
# The arithmetic of the breaker

`score` and `is_open` divide by the number of the recent outcomes.  `score` asks first whether there are any, and
`is_open` whether there are fewer than `min_samples`:

* `arithmetic_iff` — the configurations under which no call of either backend divides by zero.
-/

namespace Aimw.Reliability

open Lib

def divisionByZero : Exc := .exception "division by zero"

/-! ## What is divided -/

section Rates

variable {T : Type} {settings : Settings T} {outcomes : List Bool}

/-- A number of samples that is always there does not keep an empty list away from the division. -/
lemma tooManyFailures_nil_of_le (h : settings.minSamples ≤ 0) :
    tooManyFailures settings [] = .error divisionByZero := by
  rw [tooManyFailures, if_neg (by simpa using h), failureRate, if_pos rfl]
  rfl

lemma failureShare_nonneg : 0 ≤ failureShare outcomes := by
  unfold failureShare
  split_ifs
  · exact le_rfl
  · positivity

lemma failureShare_le_one : failureShare outcomes ≤ 1 := by
  unfold failureShare
  split_ifs with hnil
  · exact zero_le_one
  · have hlength : (0 : ℚ) < outcomes.length := by
      rw [Nat.cast_pos]
      exact List.length_pos_iff.2 hnil
    rw [div_le_one hlength, Nat.cast_le]
    exact List.count_le_length

lemma scoreOf_mem : ∃ rate, scoreOf outcomes = .ok rate ∧ 0 ≤ rate ∧ rate ≤ 1 :=
  ⟨_, scoreOf_eq outcomes, failureShare_nonneg, failureShare_le_one⟩

end Rates

/-! ## The in-memory backend -/

section InMemory

variable {T : Type} [LinearOrder T] [Sub T]

lemma InMemoryCircuitBreakerBackend.isOpen_returns {b : InMemoryCircuitBreakerBackend T}
    (hmin : 1 ≤ b.settings.minSamples) (key : String) (now : T) : ∃ answer, (b.isOpen key now).1 = .ok answer := by
  cases ht : b.trippedAt key with
  | some t =>
    by_cases hcool : now - t < b.settings.cooldownSeconds
    · rw [b.isOpen_cooling ht hcool]
      exact ⟨true, rfl⟩
    · rw [b.isOpen_cooled ht hcool]
      exact ⟨false, rfl⟩
  | none =>
    rw [isOpen_answer ht, tooManyFailures_eq hmin]
    exact ⟨_, rfl⟩

/-- After any calls on any keys, in the order of their times, `is_open` and `score` return, and the score is a share. -/
def InMemoryCircuitBreakerBackend.Computes (settings : Settings T) : Prop :=
  ∀ calls : List (KeyCall T), (calls.Pairwise fun c d => c.time ≤ d.time) → ∀ key now, (∀ c ∈ calls, c.time ≤ now) →
    (∃ answer, ((afterCalls settings calls).isOpen key now).1 = .ok answer) ∧
      ∃ rate, ((afterCalls settings calls).score key now).1 = .ok rate ∧ 0 ≤ rate ∧ rate ≤ 1

theorem InMemoryCircuitBreakerBackend.computes_iff [Nonempty T] {settings : Settings T} :
    Computes settings ↔ 1 ≤ settings.minSamples := by
  constructor
  · intro h
    by_contra hmin
    obtain ⟨now⟩ := ‹Nonempty T›
    -- the first call of a new backend
    obtain ⟨answer, hanswer⟩ := (h [] List.Pairwise.nil "k" now (by simp)).1
    have hnil : ((afterCalls settings []).isOpen "k" now).1 = tooManyFailures settings [] := isOpen_answer rfl
    rw [hnil, tooManyFailures_nil_of_le (by omega)] at hanswer
    cases hanswer
  · intro hmin calls _ key now _
    refine ⟨isOpen_returns ?_ key now, scoreOf_mem⟩
    rwa [show (afterCalls settings calls).settings = settings from settings_run calls]

end InMemory

/-! ## The Redis backend -/

/-- A call on a key of the Redis backend, with both readings of its clock. -/
structure RedisCall where
  key : String
  time : ℤ
  ns : ℤ
  call : Call

def RedisCircuitBreakerBackend.serve (b : RedisCircuitBreakerBackend) (c : RedisCall) :
    Reply × RedisCircuitBreakerBackend :=
  match c.call with
  | .recordSuccess => (.recorded, b.recordSuccess c.key c.time c.ns)
  | .recordFailure => (.recorded, b.recordFailure c.key c.time c.ns)
  | .score => (b.score c.key c.time).map .score id
  | .isOpen => (b.isOpen c.key c.time).map .isOpen id

namespace RedisCircuitBreakerBackend

variable {b : RedisCircuitBreakerBackend} {key : String} {now : ℤ}

lemma isOpen_refused (h : ¬ 0 < b.redis.ttl now (b.trippedKey key))
    (hmany : tooManyFailures b.settings (b.counted key now) = .ok true)
    (hset : (b.recentEvents key now).2.redis.setex now (b.trippedKey key) b.settings.cooldownSeconds "1" = none) :
    b.isOpen key now =
      (.error (.exception "invalid expire time in 'setex' command"), (b.recentEvents key now).2) := by
  unfold isOpen
  rw [if_neg h]
  simp only []
  split
  · split
    · next redis hset' => cases hset'.symm.trans hset
    · rfl
  · next hnot => exact absurd hmany hnot

variable (b key now) in
/-- What `is_open` answers: the circuit is open, or the test on the recent outcomes answers, or Redis refuses a cooldown
that is not positive. -/
lemma isOpen_cases : (b.isOpen key now).2.settings = b.settings ∧
    ((b.isOpen key now).1 = .ok true ∨
      (b.isOpen key now).1 = tooManyFailures b.settings (b.counted key now) ∨
      b.settings.cooldownSeconds ≤ 0 ∧
        (b.isOpen key now).1 = .error (.exception "invalid expire time in 'setex' command")) := by
  by_cases htripped : 0 < b.redis.ttl now (b.trippedKey key)
  · rw [isOpen_tripped htripped]
    exact ⟨rfl, Or.inl rfl⟩
  by_cases hmany : tooManyFailures b.settings (b.counted key now) = .ok true
  · cases hset : (b.recentEvents key now).2.redis.setex now (b.trippedKey key) b.settings.cooldownSeconds "1" with
    | some redis =>
      rw [isOpen_tripping htripped hmany hset]
      exact ⟨rfl, Or.inl rfl⟩
    | none =>
      rw [isOpen_refused htripped hmany hset]
      refine ⟨rfl, Or.inr (Or.inr ⟨?_, rfl⟩)⟩
      by_contra hpos
      obtain ⟨redis, hredis⟩ : ∃ redis, (b.recentEvents key now).2.redis.setex now (b.trippedKey key)
          b.settings.cooldownSeconds "1" = some redis := Redis.setex_of_pos "1" (not_le.1 hpos)
      cases hset.symm.trans hredis
  · rw [isOpen_closed htripped hmany]
    exact ⟨rfl, Or.inr (Or.inl rfl)⟩

lemma settings_serve (b : RedisCircuitBreakerBackend) (c : RedisCall) : (b.serve c).2.settings = b.settings := by
  unfold serve
  split
  · rfl
  · rfl
  · rfl
  · exact (isOpen_cases b c.key c.time).1

lemma settings_run (calls : List RedisCall) : (runFrom serve b calls).settings = b.settings := by
  refine runFrom_induction (I := fun b' : RedisCircuitBreakerBackend => b'.settings = b.settings)
    (P := fun _ => True) ?_ rfl (by simp)
  intro b' c _ h
  exact (settings_serve b' c).trans h

/-- With a sample at least asked for, only Redis can fail. -/
lemma isOpen_returns (hmin : 1 ≤ b.settings.minSamples) (key : String) (now : ℤ) :
    (b.isOpen key now).1 ≠ .error divisionByZero ∧
      (0 < b.settings.cooldownSeconds → ∃ answer, (b.isOpen key now).1 = .ok answer) := by
  rcases (isOpen_cases b key now).2 with htrue | htest | ⟨hcooldown, hrefused⟩
  · rw [htrue]
    exact ⟨nofun, fun _ => ⟨true, rfl⟩⟩
  · rw [htest, tooManyFailures_eq hmin]
    exact ⟨nofun, fun _ => ⟨_, rfl⟩⟩
  · rw [hrefused]
    refine ⟨?_, fun hpos => absurd hpos (not_lt.2 hcooldown)⟩
    simp [divisionByZero]

/-- The same of any Redis database and any calls on any keys: `is_open` does not divide by zero, and it returns if
Redis takes the cooldown; `score` returns a share. -/
def Computes (settings : Settings ℤ) : Prop :=
  ∀ (redis : Redis Member) (keyPrefix : String) (calls : List RedisCall),
    (calls.Pairwise fun c d => c.time ≤ d.time) → ∀ key now, (∀ c ∈ calls, c.time ≤ now) →
      (((runFrom serve { redis, settings, keyPrefix } calls).isOpen key now).1 ≠ .error divisionByZero ∧
        (0 < settings.cooldownSeconds →
          ∃ answer, ((runFrom serve { redis, settings, keyPrefix } calls).isOpen key now).1 = .ok answer)) ∧
      ∃ rate, ((runFrom serve { redis, settings, keyPrefix } calls).score key now).1 = .ok rate ∧
        0 ≤ rate ∧ rate ≤ 1

theorem computes_iff {settings : Settings ℤ} : Computes settings ↔ 1 ≤ settings.minSamples := by
  constructor
  · intro h
    by_contra hmin
    have hnil : tooManyFailures settings [] = .error divisionByZero := tooManyFailures_nil_of_le (by omega)
    have hclosed : ¬ 0 < (Redis.empty (M := Member)).ttl 0 "aimw:cb:tripped:k" := by decide
    -- the first call on an empty database
    have hanswer : ((RedisCircuitBreakerBackend.mk .empty settings "aimw:cb").isOpen "k" 0).1 =
        tooManyFailures settings [] :=
      congrArg Prod.fst (isOpen_closed hclosed fun htrue => by cases hnil.symm.trans htrue)
    exact (h .empty "aimw:cb" [] List.Pairwise.nil "k" 0 (by simp)).1.1 (hanswer.trans hnil)
  · intro hmin redis keyPrefix calls _ key now _
    have hsettings := settings_run (b := { redis, settings, keyPrefix }) calls
    have hreturns := isOpen_returns (b := runFrom serve { redis, settings, keyPrefix } calls)
      (by rwa [hsettings]) key now
    rw [hsettings] at hreturns
    exact ⟨hreturns, scoreOf_mem⟩

end RedisCircuitBreakerBackend

/-- **The arithmetic of the breaker never fails** exactly when at least one sample is asked for, whatever the other
settings are. -/
theorem arithmetic_iff {T : Type} [LinearOrder T] [Sub T] [Inhabited T] (settings : Settings T)
    (redisSettings : Settings ℤ) :
    (InMemoryCircuitBreakerBackend.Computes settings ↔ 1 ≤ settings.minSamples) ∧
      (RedisCircuitBreakerBackend.Computes redisSettings ↔ 1 ≤ redisSettings.minSamples) :=
  ⟨InMemoryCircuitBreakerBackend.computes_iff, RedisCircuitBreakerBackend.computes_iff⟩

/-- The defaults, but no sample is asked for. -/
def noSamples : Settings ℤ where
  windowSeconds := 60
  failureThreshold := 1 / 2
  minSamples := 0
  cooldownSeconds := 30

/-- The first question about any key divides by zero in both backends. -/
theorem noSamples_divides_by_zero :
    ((InMemoryCircuitBreakerBackend.mk noSamples (fun _ => []) fun _ => none).isOpen "k" 0).1 = .error divisionByZero ∧
      ((RedisCircuitBreakerBackend.mk .empty noSamples "aimw:cb").isOpen "k" 0).1 = .error divisionByZero ∧
      ¬ InMemoryCircuitBreakerBackend.Computes noSamples ∧ ¬ RedisCircuitBreakerBackend.Computes noSamples := by
  have hmemory : ((InMemoryCircuitBreakerBackend.mk noSamples (fun _ => []) fun _ => none).isOpen "k" 0).1 =
      .error divisionByZero := by decide
  have hredis : ((RedisCircuitBreakerBackend.mk .empty noSamples "aimw:cb").isOpen "k" 0).1 =
      .error divisionByZero := by decide
  refine ⟨hmemory, hredis, fun h => ?_, fun h => ?_⟩
  · obtain ⟨answer, hanswer⟩ := (h [] List.Pairwise.nil "k" 0 (by simp)).1
    cases hmemory.symm.trans hanswer
  · exact (h .empty "aimw:cb" [] List.Pairwise.nil "k" 0 (by simp)).1.1 hredis

end Aimw.Reliability
