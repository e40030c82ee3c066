import Aimw.Reliability.CircuitBreaker

/-!
# Two backends for one circuit breaker

The in-memory backend and the Redis backend answer alike as long as two of their differences do not show: an outcome
that is exactly a window old still counts in memory and no longer in Redis, and when a cooldown ends, the history is
cleared in memory and kept in Redis.  Times are whole seconds since the epoch.
-/

namespace Aimw.Reliability

open Lib

inductive Call where
  | recordSuccess
  | recordFailure
  | score
  | isOpen
  deriving DecidableEq

/-- What a caller gets back. -/
inductive Reply where
  | recorded
  | score (answer : Except Exc ℚ)
  | isOpen (answer : Except Exc Bool)
  deriving DecidableEq

def InMemoryCircuitBreakerBackend.call (b : InMemoryCircuitBreakerBackend ℤ) (key : String) (now : ℕ) :
    Call → Reply × InMemoryCircuitBreakerBackend ℤ
  | .recordSuccess => (.recorded, b.recordSuccess key now)
  | .recordFailure => (.recorded, b.recordFailure key now)
  | .score => (b.score key now).map .score id
  | .isOpen => (b.isOpen key now).map .isOpen id

def RedisCircuitBreakerBackend.call (b : RedisCircuitBreakerBackend) (key : String) (now : ℕ) :
    Call → Reply × RedisCircuitBreakerBackend
  | .recordSuccess => (.recorded, b.recordSuccess key now (now * 10 ^ 9))
  | .recordFailure => (.recorded, b.recordFailure key now (now * 10 ^ 9))
  | .score => (b.score key now).map .score id
  | .isOpen => (b.isOpen key now).map .isOpen id

/-- The answers to a sequence of calls, each with its time. -/
def replies {B : Type} (call : B → ℕ → Call → Reply × B) : B → List (ℕ × Call) → List Reply
  | _, [] => []
  | b, (now, c) :: rest => (call b now c).1 :: replies call (call b now c).2 rest

/-! ## Recent outcomes -/

/-- The outcomes less than a window old. -/
def recent (window now : ℤ) (events : List (ℤ × Bool)) : List (ℤ × Bool) :=
  events.filter fun e => now - window < e.1

section Recent

variable {window now later : ℤ} {events : List (ℤ × Bool)}

lemma recent_append (more : List (ℤ × Bool)) :
    recent window now (events ++ more) = recent window now events ++ recent window now more :=
  List.filter_append ..

lemma recent_eq_nil (h : ∀ e ∈ events, e.1 ≤ now - window) : recent window now events = [] :=
  List.filter_eq_nil_iff.2 fun e he => by simpa using h e he

/-- Nothing is lost for later by looking at what is recent now. -/
lemma recent_recent (h : now ≤ later) : recent window later (recent window now events) = recent window later events := by
  rw [recent, recent, recent, List.filter_filter]
  refine List.filter_congr fun e _ => ?_
  by_cases hlater : later - window < e.1
  · have hnow : now - window < e.1 := by omega
    simp [hlater, hnow]
  · simp [hlater]

/-- Nor by dropping what is more than a window old. -/
lemma recent_filter_le (h : now ≤ later) :
    recent window later (events.filter fun e => now - window ≤ e.1) = recent window later events := by
  rw [recent, recent, List.filter_filter]
  refine List.filter_congr fun e _ => ?_
  by_cases hlater : later - window < e.1
  · have hnow : now - window ≤ e.1 := by omega
    simp [hlater, hnow]
  · simp [hlater]

lemma filter_le_eq_recent (h : ∀ e ∈ events, e.1 ≠ now - window) :
    (events.filter fun e => now - window ≤ e.1) = recent window now events := by
  refine List.filter_congr fun e he => ?_
  have := h e he
  simp only [decide_eq_decide]
  omega

end Recent

/-- In a list ordered by time, the old ones come first. -/
lemma dropWhile_lt_eq_filter {T : Type} [LinearOrder T] (cutoff : T) :
    ∀ {events : List (T × Bool)}, (events.map Prod.fst).Pairwise (· ≤ ·) →
      (events.dropWhile fun e => e.1 < cutoff) = events.filter fun e => cutoff ≤ e.1
  | [], _ => rfl
  | e :: rest, h => by
    rw [List.map_cons, List.pairwise_cons] at h
    by_cases hold : e.1 < cutoff
    · have hnot : ¬ cutoff ≤ e.1 := not_le.2 hold
      rw [List.dropWhile_cons_of_pos (by simpa using hold), List.filter_cons_of_neg (by simpa using hold),
        dropWhile_lt_eq_filter cutoff h.2]
    · rw [List.dropWhile_cons_of_neg (by simpa using hold), eq_comm, List.filter_eq_self]
      have hkeep : cutoff ≤ e.1 := not_lt.1 hold
      intro x hx
      rcases List.mem_cons.1 hx with rfl | hx
      · simpa using hkeep
      · simpa using hkeep.trans (h.1 x.1 (List.mem_map_of_mem hx))

/-! ## The calls on which the backends agree -/

/-- No remembered outcome is exactly a window old. -/
def OffBoundary (b : InMemoryCircuitBreakerBackend ℤ) (key : String) (now : ℕ) : Prop :=
  ∀ e ∈ b.events key, e.1 ≠ now - b.settings.windowSeconds

/-- The circuit does not trip now, or for a time that Redis accepts. -/
def TripsForAWhile (b : InMemoryCircuitBreakerBackend ℤ) (key : String) (now : ℕ) : Prop :=
  tooManyFailures b.settings (b.outcomes key now) = .ok true → 0 < b.settings.cooldownSeconds

/-- The cooldown goes on, or nothing of the history is recent. -/
def NothingToClear (b : InMemoryCircuitBreakerBackend ℤ) (key : String) (now : ℕ) (trippedAt : ℤ) : Prop :=
  now - trippedAt < b.settings.cooldownSeconds ∨ ∀ e ∈ b.events key, e.1 ≤ now - b.settings.windowSeconds

/-- The differences of the backends do not show in a call. -/
def Undisputed (b : InMemoryCircuitBreakerBackend ℤ) (key : String) (now : ℕ) : Call → Prop
  | .recordSuccess | .recordFailure => True
  | .score => OffBoundary b key now
  | .isOpen => match b.trippedAt key with
    | some trippedAt => NothingToClear b key now trippedAt
    | none => OffBoundary b key now ∧ TripsForAWhile b key now

/-- Every call of a sequence is undisputed when it is made. -/
def AllUndisputed (key : String) : InMemoryCircuitBreakerBackend ℤ → List (ℕ × Call) → Prop
  | _, [] => True
  | b, (now, c) :: rest => Undisputed b key now c ∧ AllUndisputed key (b.call key now c).2 rest

instance (b : InMemoryCircuitBreakerBackend ℤ) (key : String) (now : ℕ) : Decidable (OffBoundary b key now) :=
  inferInstanceAs (Decidable (∀ e ∈ b.events key, _))

instance (b : InMemoryCircuitBreakerBackend ℤ) (key : String) (now : ℕ) : Decidable (TripsForAWhile b key now) :=
  inferInstanceAs (Decidable (_ → _))

instance (b : InMemoryCircuitBreakerBackend ℤ) (key : String) (now : ℕ) (trippedAt : ℤ) :
    Decidable (NothingToClear b key now trippedAt) :=
  inferInstanceAs (Decidable (_ ∨ ∀ e ∈ b.events key, _))

instance (b : InMemoryCircuitBreakerBackend ℤ) (key : String) (now : ℕ) : ∀ c, Decidable (Undisputed b key now c)
  | .recordSuccess | .recordFailure => inferInstanceAs (Decidable True)
  | .score => inferInstanceAs (Decidable (OffBoundary b key now))
  | .isOpen => match ht : b.trippedAt key with
    | some trippedAt =>
      decidable_of_iff (NothingToClear b key now trippedAt) (by simp only [Undisputed, ht])
    | none =>
      decidable_of_iff (OffBoundary b key now ∧ TripsForAWhile b key now) (by simp only [Undisputed, ht])

instance (key : String) : ∀ b calls, Decidable (AllUndisputed key b calls)
  | _, [] => inferInstanceAs (Decidable True)
  | b, (now, c) :: rest =>
    have : Decidable (AllUndisputed key (b.call key now c).2 rest) := instDecidableAllUndisputed key _ rest
    inferInstanceAs (Decidable (_ ∧ _))

/-! ## The states of the backends side by side -/

/-- The outcomes that Redis holds, with their times. -/
def RedisCircuitBreakerBackend.held (b : RedisCircuitBreakerBackend) (key : String) (now : ℤ) : List (ℤ × Bool) :=
  (b.redis.members now (b.eventsKey key)).map fun p => (p.2, p.1.2)

/-- From `last` on, both backends see the same recent outcomes and the same cooldown. -/
structure SameView (key : String) (mem : InMemoryCircuitBreakerBackend ℤ) (red : RedisCircuitBreakerBackend)
    (last : ℤ) : Prop where
  settings : red.settings = mem.settings
  recent : ∀ now, last < now →
    recent mem.settings.windowSeconds now (mem.events key) = recent mem.settings.windowSeconds now (red.held key now)
  tripped : ∀ now, last < now →
    (0 < red.redis.ttl now (red.trippedKey key) ↔ ∃ t ∈ mem.trippedAt key, now - t < mem.settings.cooldownSeconds)
  sorted : ((mem.events key).map Prod.fst).Pairwise (· ≤ ·)
  past : ∀ e ∈ mem.events key, e.1 ≤ last
  stamped : ∀ now, last < now → ∀ p ∈ red.redis.members now (red.eventsKey key), 0 ≤ p.2 ∧ p.1.1 ≤ last * 10 ^ 9

section Steps

variable {key : String} {mem : InMemoryCircuitBreakerBackend ℤ} {red : RedisCircuitBreakerBackend} {last now : ℤ}

lemma events_prune (h : ((mem.events key).map Prod.fst).Pairwise (· ≤ ·)) :
    (mem.prune key now).events key = (mem.events key).filter fun e => now - mem.settings.windowSeconds ≤ e.1 := by
  rw [InMemoryCircuitBreakerBackend.prune]
  simp only [Function.update_self]
  exact dropWhile_lt_eq_filter _ h

lemma held_recentEvents {later : ℤ} (h : now ≤ later) :
    (red.recentEvents key now).2.held key later = ((red.redis.members later (red.eventsKey key)).filter
      fun p => !decide (0 ≤ p.2 ∧ p.2 ≤ now - red.settings.windowSeconds)).map fun p => (p.2, p.1.2) := by
  rw [RedisCircuitBreakerBackend.held]
  exact congrArg _ (Redis.members_zremrangebyscore 0 _ h)

/-- What `ZREMRANGEBYSCORE` leaves is what is recent. -/
lemma map_filter_eq_recent {members : List (Member × ℤ)} (window : ℤ) (h : ∀ p ∈ members, 0 ≤ p.2) :
    (members.filter fun p => !decide (0 ≤ p.2 ∧ p.2 ≤ now - window)).map (fun p => (p.2, p.1.2)) =
      recent window now (members.map fun p => (p.2, p.1.2)) := by
  rw [recent, List.filter_map]
  refine congrArg _ (List.filter_congr fun p hp => ?_)
  have hpos := h p hp
  simp only [Function.comp_apply, ← decide_not, decide_eq_decide]
  omega

theorem SameView.prune_recentEvents (h : SameView key mem red last) (hnow : last < now) :
    SameView key (mem.prune key now) (red.recentEvents key now).2 now where
  settings := h.settings
  recent later hlater := by
    have hstamped : ∀ p ∈ red.redis.members later (red.eventsKey key), 0 ≤ p.2 := fun p hp =>
      (h.stamped later (hnow.trans hlater) p hp).1
    rw [events_prune h.sorted, held_recentEvents hlater.le, map_filter_eq_recent _ hstamped, h.settings]
    show Reliability.recent mem.settings.windowSeconds later _ = Reliability.recent mem.settings.windowSeconds later _
    rw [recent_filter_le hlater.le, recent_recent hlater.le]
    exact h.recent later (hnow.trans hlater)
  tripped later hlater := h.tripped later (hnow.trans hlater)
  sorted := by
    rw [events_prune h.sorted]
    exact h.sorted.sublist (List.filter_sublist.map _)
  past e he := by
    rw [events_prune h.sorted] at he
    exact (h.past e (List.mem_of_mem_filter he)).trans hnow.le
  stamped later hlater p hp := by
    have hp : p ∈ (red.redis.zremrangebyscore now (red.eventsKey key) 0
        (now - red.settings.windowSeconds)).members later (red.eventsKey key) := hp
    rw [Redis.members_zremrangebyscore 0 _ hlater.le] at hp
    obtain ⟨hscore, hns⟩ := h.stamped later (hnow.trans hlater) p (List.mem_of_mem_filter hp)
    exact ⟨hscore, by omega⟩

/-- Redis counts what is recent in memory. -/
theorem SameView.counted_eq (h : SameView key mem red last) (hnow : last < now) :
    red.counted key now = (Reliability.recent mem.settings.windowSeconds now (mem.events key)).map Prod.snd := by
  have hstamped : ∀ p ∈ red.redis.members now (red.eventsKey key), 0 ≤ p.2 := fun p hp =>
    (h.stamped now hnow p hp).1
  have hzrange : red.counted key now = ((red.recentEvents key now).2.held key now).map Prod.snd := by
    simp only [RedisCircuitBreakerBackend.counted, RedisCircuitBreakerBackend.recentEvents,
      RedisCircuitBreakerBackend.held, Redis.zrange, RedisCircuitBreakerBackend.eventsKey, List.map_map]
    rfl
  rw [hzrange, held_recentEvents le_rfl, map_filter_eq_recent _ hstamped, h.recent now hnow, h.settings]
  rfl

/-- Off the boundary, both count the same outcomes. -/
theorem SameView.outcomes_eq (h : SameView key mem red last) (hnow : last < now)
    (hoff : ∀ e ∈ mem.events key, e.1 ≠ now - mem.settings.windowSeconds) :
    red.counted key now = mem.outcomes key now := by
  rw [h.counted_eq hnow, InMemoryCircuitBreakerBackend.outcomes, events_prune h.sorted, filter_le_eq_recent hoff]

lemma withScore_of_new {M : Type} [DecidableEq M] {members : List (M × ℤ)} {member : M} (score : ℤ)
    (h : ∀ p ∈ members, p.1 ≠ member) : Redis.withScore members member score = members ++ [(member, score)] := by
  refine if_neg fun hmem => ?_
  obtain ⟨p, hp, rfl⟩ := List.mem_map.1 hmem
  exact h p hp rfl

/-- What the three commands of `_record` leave for later. -/
lemma members_record {later ns : ℤ} {success : Bool} (hlater : now ≤ later)
    (hnew : ∀ p ∈ red.redis.members now (red.eventsKey key), p.1 ≠ (ns, success)) :
    (red.record key now ns success).redis.members later (red.eventsKey key) =
      if later < now + red.settings.windowSeconds * 2 then
        (red.redis.members now (red.eventsKey key) ++ [((ns, success), now)]).filter
          fun p => !decide (0 ≤ p.2 ∧ p.2 ≤ now - red.settings.windowSeconds)
      else [] := by
  rw [RedisCircuitBreakerBackend.record]
  simp only []
  rw [Redis.members_expire _ hlater, Redis.members_zremrangebyscore _ _ le_rfl, Redis.members_zadd,
    withScore_of_new _ hnew]

theorem SameView.record (h : SameView key mem red last) (hnow : last < now) (hpos : 0 ≤ now) (success : Bool) :
    SameView key (mem.record key now success) (red.record key now (now * 10 ^ 9) success) now := by
  have hevents : (mem.record key now success).events key =
      ((mem.events key).filter fun e => now - mem.settings.windowSeconds ≤ e.1) ++ [(now, success)] := by
    rw [InMemoryCircuitBreakerBackend.record, ← events_prune h.sorted]
    simp only [Function.update_self]
  have hnew : ∀ p ∈ red.redis.members now (red.eventsKey key), p.1 ≠ (now * 10 ^ 9, success) := by
    intro p hp heq
    have hns := (h.stamped now hnow p hp).2
    rw [heq] at hns
    simp only [] at hns
    omega
  have hmembers : ∀ later, now ≤ later → _ := fun later hlater => members_record hlater hnew
  have hscores : ∀ p ∈ red.redis.members now (red.eventsKey key) ++ [((now * 10 ^ 9, success), now)],
      0 ≤ p.2 ∧ p.1.1 ≤ now * 10 ^ 9 := by
    intro p hp
    rcases List.mem_append.1 hp with hp | hp
    · obtain ⟨hscore, hns⟩ := h.stamped now hnow p hp
      exact ⟨hscore, by omega⟩
    · obtain rfl := List.mem_singleton.1 hp
      exact ⟨hpos, le_rfl⟩
  have hpast : ∀ e ∈ (mem.record key now success).events key, e.1 ≤ now := by
    intro e he
    rw [hevents] at he
    rcases List.mem_append.1 he with he | he
    · exact (h.past e (List.mem_of_mem_filter he)).trans hnow.le
    · exact (congrArg Prod.fst (List.mem_singleton.1 he)).le
  refine ⟨h.settings, fun later hlater => ?_, fun later hlater => h.tripped later (hnow.trans hlater), ?_, hpast,
    fun later hlater p hp => ?_⟩
  · show Reliability.recent mem.settings.windowSeconds later _ =
      Reliability.recent mem.settings.windowSeconds later ((_ : List (Member × ℤ)).map _)
    rw [show (red.record key now (now * 10 ^ 9) success).eventsKey key = red.eventsKey key from rfl,
      hmembers later hlater.le, h.settings]
    split_ifs with hexpired
    · rw [map_filter_eq_recent _ fun p hp => (hscores p hp).1, recent_recent hlater.le, hevents, List.map_append,
        recent_append, recent_append, recent_filter_le hlater.le, ← recent_recent hlater.le, h.recent now hnow,
        recent_recent hlater.le]
      rfl
    · refine recent_eq_nil fun e he => ?_
      have := hpast e he
      omega
  · rw [hevents, List.map_append, List.pairwise_append]
    refine ⟨h.sorted.sublist (List.filter_sublist.map _), by simp, fun t ht t' ht' => ?_⟩
    obtain ⟨e, he, rfl⟩ := List.mem_map.1 ht
    obtain rfl := List.mem_singleton.1 ht'
    exact (h.past e (List.mem_of_mem_filter he)).trans hnow.le
  · rw [show (red.record key now (now * 10 ^ 9) success).eventsKey key = red.eventsKey key from rfl,
      hmembers later hlater.le] at hp
    split_ifs at hp
    · exact hscores p (List.mem_of_mem_filter hp)
    · cases hp

theorem SameView.later (h : SameView key mem red last) (hnow : last < now) : SameView key mem red now where
  settings := h.settings
  recent later hlater := h.recent later (hnow.trans hlater)
  tripped later hlater := h.tripped later (hnow.trans hlater)
  sorted := h.sorted
  past e he := (h.past e he).trans hnow.le
  stamped later hlater p hp := by
    obtain ⟨hscore, hns⟩ := h.stamped later (hnow.trans hlater) p hp
    exact ⟨hscore, by omega⟩

theorem SameView.trip {redis : Redis Member} (h : SameView key mem red now)
    (hset : red.redis.setex now (red.trippedKey key) red.settings.cooldownSeconds "1" = some redis) :
    SameView key { mem with trippedAt := Function.update mem.trippedAt key (some now) } { red with redis } now where
  settings := h.settings
  recent later hlater := by
    rw [RedisCircuitBreakerBackend.held]
    simp only []
    rw [show redis.members later _ = _ from Redis.members_setex hset]
    exact h.recent later hlater
  tripped later _ := by
    show 0 < redis.ttl later (red.trippedKey key) ↔
      ∃ t ∈ Function.update mem.trippedAt key (some now) key, later - t < mem.settings.cooldownSeconds
    rw [Redis.ttl_setex hset, Function.update_self, h.settings]
    simp only [Option.mem_def, Option.some.injEq, exists_eq_left']
    omega
  sorted := h.sorted
  past := h.past
  stamped later hlater p hp := by
    have hp : p ∈ redis.members later (red.eventsKey key) := hp
    rw [Redis.members_setex hset] at hp
    exact h.stamped later hlater p hp

/-- With a history of which nothing is recent, there is nothing to clear. -/
theorem SameView.clear {t : ℤ} (h : SameView key mem red now) (ht : mem.trippedAt key = some t)
    (hover : ¬ now - t < mem.settings.cooldownSeconds)
    (hold : ∀ e ∈ mem.events key, e.1 ≤ now - mem.settings.windowSeconds) :
    SameView key { mem with
      trippedAt := Function.update mem.trippedAt key none
      events := Function.update mem.events key [] } red now where
  settings := h.settings
  recent later hlater := by
    have hgone : Reliability.recent mem.settings.windowSeconds later (mem.events key) = [] :=
      recent_eq_nil fun e he => by
        have := hold e he
        omega
    simp only [Function.update_self]
    rw [← h.recent later hlater, hgone]
    rfl
  tripped later hlater := by
    rw [h.tripped later hlater]
    simp only [Function.update_self, ht]
    constructor
    · rintro ⟨t', ht', hcool⟩
      obtain rfl := Option.some.inj ht'
      omega
    · rintro ⟨t', ht', -⟩
      cases ht'
  sorted := by
    simp only [Function.update_self]
    exact List.Pairwise.nil
  past e he := by
    simp only [Function.update_self] at he
    cases he
  stamped := h.stamped

end Steps

section Calls

variable {key : String} {mem : InMemoryCircuitBreakerBackend ℤ} {red : RedisCircuitBreakerBackend} {last : ℤ} {now : ℕ}

theorem SameView.score (h : SameView key mem red last) (hnow : last < now) (hoff : OffBoundary mem key now) :
    (mem.score key now).1 = (red.score key now).1 ∧ SameView key (mem.score key now).2 (red.score key now).2 now :=
  ⟨congrArg scoreOf (h.outcomes_eq hnow hoff).symm, h.prune_recentEvents hnow⟩

theorem SameView.isOpen_tripped {t : ℤ} (h : SameView key mem red last) (hmin : 1 ≤ mem.settings.minSamples)
    (hnow : last < now) (ht : mem.trippedAt key = some t) (hclear : NothingToClear mem key now t) :
    (mem.isOpen key now).1 = (red.isOpen key now).1 ∧
      SameView key (mem.isOpen key now).2 (red.isOpen key now).2 now := by
  have httl := h.tripped now hnow
  simp only [ht, Option.mem_def, Option.some.injEq, exists_eq_left'] at httl
  by_cases hcool : now - t < mem.settings.cooldownSeconds
  · rw [mem.isOpen_cooling ht hcool, red.isOpen_tripped (httl.2 hcool)]
    exact ⟨rfl, h.later hnow⟩
  · -- Redis has kept nothing either, so it finds too few outcomes
    have hold := hclear.resolve_left hcool
    have hcounted : red.counted key now = [] := by
      rw [h.counted_eq hnow, recent_eq_nil hold]
      rfl
    have hfew : tooManyFailures red.settings (red.counted key now) = .ok false := by
      rw [hcounted]
      exact tooManyFailures_nil (h.settings ▸ hmin)
    rw [mem.isOpen_cooled ht hcool, red.isOpen_closed (httl.not.2 hcool) (by rw [hfew]; simp), hfew]
    refine ⟨rfl, ?_⟩
    have hclear := (h.prune_recentEvents hnow).clear ht hcool fun e he => hold e (by
      rw [events_prune h.sorted] at he
      exact List.mem_of_mem_filter he)
    simpa only [InMemoryCircuitBreakerBackend.prune, Function.update_idem] using hclear

theorem SameView.isOpen_closed (h : SameView key mem red last) (hnow : last < now) (ht : mem.trippedAt key = none)
    (hoff : OffBoundary mem key now) (htrips : TripsForAWhile mem key now) :
    (mem.isOpen key now).1 = (red.isOpen key now).1 ∧
      SameView key (mem.isOpen key now).2 (red.isOpen key now).2 now := by
  have hclosed : ¬ 0 < red.redis.ttl now (red.trippedKey key) := by
    rw [h.tripped now hnow, ht]
    rintro ⟨t, hmem, -⟩
    cases hmem
  have hsame : tooManyFailures red.settings (red.counted key now) =
      tooManyFailures mem.settings (mem.outcomes key now) := by rw [h.outcomes_eq hnow hoff, h.settings]
  have hlook := h.prune_recentEvents hnow
  by_cases hmany : tooManyFailures mem.settings (mem.outcomes key now) = .ok true
  · have hcool : 0 < red.settings.cooldownSeconds := h.settings ▸ htrips hmany
    obtain ⟨redis, hset⟩ : ∃ redis, (red.recentEvents key now).2.redis.setex now (red.trippedKey key)
        red.settings.cooldownSeconds "1" = some redis := Redis.setex_of_pos "1" hcool
    rw [mem.isOpen_tripping ht hmany, red.isOpen_tripping hclosed (hsame.trans hmany) hset]
    exact ⟨rfl, hlook.trip hset⟩
  · rw [mem.isOpen_closed ht hmany, red.isOpen_closed hclosed (hsame ▸ hmany), hsame]
    exact ⟨rfl, hlook⟩

/-- One call: the same answer, and the same view afterwards. -/
theorem SameView.call (h : SameView key mem red last) (hmin : 1 ≤ mem.settings.minSamples) (hnow : last < now)
    {c : Call} (hc : Undisputed mem key now c) :
    (mem.call key now c).1 = (red.call key now c).1 ∧ SameView key (mem.call key now c).2 (red.call key now c).2 now := by
  cases c with
  | recordSuccess => exact ⟨rfl, h.record hnow (Int.natCast_nonneg now) true⟩
  | recordFailure => exact ⟨rfl, h.record hnow (Int.natCast_nonneg now) false⟩
  | score =>
    obtain ⟨hanswer, hview⟩ := h.score hnow hc
    exact ⟨congrArg Reply.score hanswer, hview⟩
  | isOpen =>
    have hstep : (mem.isOpen key now).1 = (red.isOpen key now).1 ∧
        SameView key (mem.isOpen key now).2 (red.isOpen key now).2 now := by
      cases ht : mem.trippedAt key with
      | none =>
        simp only [Undisputed, ht] at hc
        exact h.isOpen_closed hnow ht hc.1 hc.2
      | some t =>
        simp only [Undisputed, ht] at hc
        exact h.isOpen_tripped hmin hnow ht hc
    exact ⟨congrArg Reply.isOpen hstep.1, hstep.2⟩

end Calls

lemma settings_call (b : InMemoryCircuitBreakerBackend ℤ) (key : String) (now : ℕ) (c : Call) :
    (b.call key now c).2.settings = b.settings := by
  cases c with
  | recordSuccess | recordFailure | score => rfl
  | isOpen =>
    cases ht : b.trippedAt key with
    | some t =>
      by_cases hcool : now - t < b.settings.cooldownSeconds
      · exact congrArg (fun r => r.2.settings) (b.isOpen_cooling ht hcool)
      · exact congrArg (fun r => r.2.settings) (b.isOpen_cooled ht hcool)
    | none =>
      by_cases hmany : tooManyFailures b.settings (b.outcomes key now) = .ok true
      · exact congrArg (fun r => r.2.settings) (b.isOpen_tripping ht hmany)
      · exact congrArg (fun r => r.2.settings) (b.isOpen_closed ht hmany)

/-- A run: from states with the same view on. -/
theorem SameView.replies {key : String} {calls : List (ℕ × Call)} :
    ∀ {mem : InMemoryCircuitBreakerBackend ℤ} {red : RedisCircuitBreakerBackend} {last : ℤ},
      SameView key mem red last → 1 ≤ mem.settings.minSamples → (∀ c ∈ calls, last < c.1) →
      (calls.map Prod.fst).Pairwise (· < ·) → AllUndisputed key mem calls →
      replies (fun b now => b.call key now) mem calls = replies (fun b now => b.call key now) red calls := by
  induction calls with
  | nil =>
    intros
    rfl
  | cons call rest ih =>
    intro mem red last h hmin hlast hincreasing hundisputed
    rw [List.map_cons, List.pairwise_cons] at hincreasing
    obtain ⟨hreply, hview⟩ := h.call hmin (hlast call List.mem_cons_self) hundisputed.1
    have hrest : ∀ c ∈ rest, (call.1 : ℤ) < c.1 := fun c hc =>
      Int.ofNat_lt.2 (hincreasing.1 c.1 (List.mem_map_of_mem hc))
    rw [Reliability.replies, Reliability.replies, hreply,
      ih hview (by rw [settings_call]; exact hmin) hrest hincreasing.2 hundisputed.2]

lemma sameView_empty (settings : Settings ℤ) (key : String) :
    SameView key { settings } { redis := .empty, settings } (-1) where
  settings := rfl
  recent _ _ := rfl
  tripped now _ := by simp [Redis.ttl, Redis.empty]
  sorted := List.Pairwise.nil
  past e he := by cases he
  stamped now _ p hp := by simp [Redis.members, Redis.empty] at hp

/-- The answers to a sequence of calls on one key, from both backends with nothing recorded yet. -/
def inMemoryReplies (settings : Settings ℤ) (key : String) (calls : List (ℕ × Call)) : List Reply :=
  replies (fun (b : InMemoryCircuitBreakerBackend ℤ) now => b.call key now) { settings } calls

@[inherit_doc inMemoryReplies]
def redisReplies (settings : Settings ℤ) (key : String) (calls : List (ℕ × Call)) : List Reply :=
  replies (fun (b : RedisCircuitBreakerBackend) now => b.call key now) { redis := .empty, settings } calls

/-- **One contract**, on every sequence of calls on which the differences of the backends do not show. -/
theorem backends_agree {settings : Settings ℤ} (key : String) {calls : List (ℕ × Call)}
    (hmin : 1 ≤ settings.minSamples) (hincreasing : (calls.map Prod.fst).Pairwise (· < ·))
    (hundisputed : AllUndisputed key { settings } calls) :
    inMemoryReplies settings key calls = redisReplies settings key calls :=
  (sameView_empty settings key).replies hmin (fun c _ => by omega) hincreasing hundisputed

/-- The cooldown outlasts the window, so that nothing recent is left to clear. -/
def longCooldown : Settings ℤ :=
  { windowSeconds := 60, failureThreshold := 1 / 2, minSamples := 2, cooldownSeconds := 90 }

/-- One trip and its end. -/
def oneTrip : List (ℕ × Call) :=
  [(1, .recordFailure), (2, .recordFailure), (3, .isOpen), (5, .isOpen), (100, .isOpen), (101, .score)]

theorem backends_agree_oneTrip :
    inMemoryReplies longCooldown "agent-1:sql_tool" oneTrip = redisReplies longCooldown "agent-1:sql_tool" oneTrip :=
  backends_agree "agent-1:sql_tool" (by decide) (by decide) (by decide +kernel)

def shortCooldown : Settings ℤ :=
  { windowSeconds := 60, failureThreshold := 1 / 2, minSamples := 2, cooldownSeconds := 1 }

/-- Two failures, a trip, and a second look when the cooldown is over. -/
def secondLook : List (ℕ × Call) := [(1, .recordFailure), (2, .recordFailure), (3, .isOpen), (4, .isOpen)]

/-- At the end of the cooldown, the circuit is closed in memory and open in Redis. -/
theorem backends_disagree : 1 ≤ shortCooldown.minSamples ∧ (secondLook.map Prod.fst).Pairwise (· < ·) ∧
    inMemoryReplies shortCooldown "agent-1:sql_tool" secondLook =
      [.recorded, .recorded, .isOpen (.ok true), .isOpen (.ok false)] ∧
    redisReplies shortCooldown "agent-1:sql_tool" secondLook =
      [.recorded, .recorded, .isOpen (.ok true), .isOpen (.ok true)] := by
  refine ⟨by decide, by decide, ?_, ?_⟩
  · decide +kernel
  · decide +kernel

end Aimw.Reliability
