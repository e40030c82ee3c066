import Aimw.Lib.Linking
import Aimw.Reliability.Arithmetic
import Aimw.Reliability.Counting

/-!
# One circuit in several processes

`is_open` of the Redis backend, command by command, beside calls of `_record`: any number of calls on one key, whose
commands reach the database in any order.  `TTL` tells the exact number of whole seconds that are left.

* `isOpen_alone` — undisturbed, the commands do what `RedisCircuitBreakerBackend.isOpen` does;
* `tripped_entry` — what is stored of the circuit is its last trip;
* `shared_circuit` — which calls find the circuit open.
-/

namespace Aimw.Reliability

open Lib Coro

/-! ## The calls -/

/-- The commands of `is_open`, beside those of `_record`. -/
inductive BreakerCommand
  | command (q : Command)
  | zrange (key : String)
  | ttl (key : String)
  | setex (key : String) (seconds : ℤ) (value : String)

abbrev BreakerCommand.Answer : BreakerCommand → Type
  | command q => q.Answer
  | zrange _ => List Member
  | ttl _ => ℤ
  | setex _ _ _ => Except Exc Unit

abbrev BreakerEvent : Type := (q : BreakerCommand) × q.Answer

/-- The keys of a circuit: of its outcomes, and of its last trip. -/
structure CircuitKeys where
  events : String
  tripped : String

/-- What is done when the recent outcomes are counted. -/
def conclude (settings : Settings ℤ) (keys : CircuitKeys) :
    Except Exc Bool → Coro BreakerCommand BreakerCommand.Answer Exc Bool
  | .ok true => do
    await (.setex keys.tripped settings.cooldownSeconds "1") id
    return true
  | answer => ofExcept answer

/-- `is_open` where the circuit has not tripped. -/
def countCommands (settings : Settings ℤ) (keys : CircuitKeys) : Coro BreakerCommand BreakerCommand.Answer Exc Bool := do
  let now : ℤ ← perform (BreakerCommand.command .time)
  let _ : Unit ← perform (BreakerCommand.command (.zremrangebyscore keys.events 0 (now - settings.windowSeconds)))
  let members : List Member ← perform (BreakerCommand.zrange keys.events)
  conclude settings keys (tooManyFailures settings (members.map Prod.snd))

/-- `is_open`. -/
def isOpenCommands (settings : Settings ℤ) (keys : CircuitKeys) : Coro BreakerCommand BreakerCommand.Answer Exc Bool := do
  let ttl : ℤ ← perform (BreakerCommand.ttl keys.tripped)
  if 0 < ttl then return true else countCommands settings keys

/-- A call on the circuit; `_record` with its outcome. -/
inductive BreakerCall
  | isOpen
  | record (success : Bool)

/-- What a call does; the answer of `is_open` is its result. -/
def BreakerCall.program (settings : Settings ℤ) (keys : CircuitKeys) :
    BreakerCall → Coro BreakerCommand BreakerCommand.Answer Exc (Option Bool)
  | .isOpen => do
    let answer ← isOpenCommands settings keys
    return some answer
  | .record success => do
    (rename BreakerCommand.command (RecordCall.record ⟨settings, success⟩ keys.events)).lift
    return none

inductive Answered : SharedRedis → (q : BreakerCommand) → q.Answer → SharedRedis → Prop
  | command {w w' : SharedRedis} {q : Command} {a : q.Answer} : Served w q a w' → Answered w (.command q) a w'
  | zrange (w : SharedRedis) (key : String) : Answered w (.zrange key) (w.redis.zrange w.clock key) w
  | ttl (w : SharedRedis) (key : String) : Answered w (.ttl key) (w.redis.ttl w.clock key) w
  | setex {w : SharedRedis} {key value : String} {seconds : ℤ} {redis : Redis Member} :
      w.redis.setex w.clock key seconds value = some redis →
      Answered w (.setex key seconds value) (.ok ()) { w with redis }
  | refused {w : SharedRedis} {key value : String} {seconds : ℤ} : w.redis.setex w.clock key seconds value = none →
      Answered w (.setex key seconds value) (.error (.exception "invalid expire time in 'setex' command")) w

/-- Time passes, and others are at work on other keys. -/
structure Elsewhere (keys : CircuitKeys) (w w' : SharedRedis) : Prop where
  clock : w.clock ≤ w'.clock
  entry : w'.redis.strings keys.tripped = w.redis.strings keys.tripped

/-! ## The paths of `is_open` -/

variable {settings : Settings ℤ} {keys : CircuitKeys}

/-- The commands that count the recent outcomes. -/
abbrev counting (settings : Settings ℤ) (keys : CircuitKeys) (now : ℤ) (members : List Member) : List BreakerEvent :=
  [⟨.command .time, now⟩, ⟨.command (.zremrangebyscore keys.events 0 (now - settings.windowSeconds)), ()⟩,
    ⟨.zrange keys.events, members⟩]

variable (settings keys) in
inductive IsOpenPath : List BreakerEvent → Except Exc Bool → Prop
  | tripped (ttl : ℤ) : 0 < ttl → IsOpenPath [⟨.ttl keys.tripped, ttl⟩] (.ok true)
  | counted {answer : Except Exc Bool} (ttl now : ℤ) (members : List Member) : ¬ 0 < ttl →
      tooManyFailures settings (members.map Prod.snd) = answer → answer ≠ .ok true →
      IsOpenPath (⟨.ttl keys.tripped, ttl⟩ :: counting settings keys now members) answer
  | tripping (ttl now : ℤ) (members : List Member) (a : Except Exc Unit) : ¬ 0 < ttl →
      tooManyFailures settings (members.map Prod.snd) = .ok true →
      IsOpenPath (⟨.ttl keys.tripped, ttl⟩ :: (counting settings keys now members ++
        [⟨.setex keys.tripped settings.cooldownSeconds "1", a⟩])) (a.map fun _ => true)

theorem isOpenPath_of_runs {W : Type} {E : W → (q : BreakerCommand) → q.Answer → W → Prop} {w w' : W}
    {tr : List BreakerEvent} {r : Except Exc Bool} (h : Runs E w (isOpenCommands settings keys) tr r w') :
    IsOpenPath settings keys tr r := by
  obtain ⟨ttl, w₁, t, rfl, -, h⟩ := runs_call_iff.1 h
  replace h : Runs E w₁ (if 0 < ttl then return true else countCommands settings keys) t r w' := h
  by_cases httl : 0 < ttl
  · rw [if_pos httl] at h
    obtain ⟨rfl, rfl, -⟩ := runs_ret_iff.1 h
    exact .tripped ttl httl
  rw [if_neg httl] at h
  obtain ⟨now, _, _, rfl, -, h⟩ := runs_call_iff.1 h
  obtain ⟨_, _, _, rfl, -, h⟩ := runs_call_iff.1 h
  obtain ⟨members, w₂, t, rfl, -, h⟩ := runs_call_iff.1 h
  replace h : Runs E w₂ (conclude settings keys (tooManyFailures settings (members.map Prod.snd))) t r w' := h
  generalize hmany : tooManyFailures settings (members.map Prod.snd) = answer at h
  match answer, h with
  | .error e, h =>
    obtain ⟨rfl, rfl, -⟩ := runs_raise_iff.1 h
    exact .counted ttl now members httl hmany (by simp)
  | .ok false, h =>
    obtain ⟨rfl, rfl, -⟩ := runs_ret_iff.1 h
    exact .counted ttl now members httl hmany (by simp)
  | .ok true, h =>
    rcases runs_bind_iff.1 h with ⟨e, hset, rfl⟩ | ⟨_, _, t, t', rfl, hset, hret⟩
    · obtain ⟨a, rfl, -, ha⟩ := runs_await_iff.1 hset
      obtain rfl : Except.error e = a := ha
      exact .tripping ttl now members (.error e) httl hmany
    · obtain ⟨a, rfl, -, ha⟩ := runs_await_iff.1 hset
      obtain rfl : Except.ok () = a := ha
      obtain ⟨rfl, rfl, -⟩ := runs_ret_iff.1 hret
      exact .tripping ttl now members (.ok ()) httl hmany

/-- **Undisturbed, the commands do what `isOpen` does.** -/
theorem isOpen_alone {b : RedisCircuitBreakerBackend} {key : String} {w w' : SharedRedis} {tr : List BreakerEvent}
    {r : Except Exc Bool} (hredis : w.redis = b.redis)
    (h : Runs Answered w (isOpenCommands b.settings ⟨b.eventsKey key, b.trippedKey key⟩) tr r w') :
    r = (b.isOpen key w.clock).1 ∧ w'.redis = (b.isOpen key w.clock).2.redis := by
  obtain ⟨redis, settings, keyPrefix⟩ := b
  obtain ⟨redis', clock, ns⟩ := w
  obtain rfl : redis' = redis := hredis
  have htrail := h.trail
  cases isOpenPath_of_runs h with
  | tripped ttl httl =>
    obtain _ | ⟨⟨⟩, ⟨⟩⟩ := htrail
    rw [RedisCircuitBreakerBackend.isOpen_tripped httl]
    exact ⟨rfl, rfl⟩
  | counted ttl now members httl hmany hanswer =>
    obtain _ | ⟨⟨⟩, htrail⟩ := htrail
    obtain _ | ⟨⟨⟨⟩⟩, htrail⟩ := htrail
    obtain _ | ⟨⟨⟨⟩⟩, htrail⟩ := htrail
    obtain _ | ⟨⟨⟩, ⟨⟩⟩ := htrail
    rw [RedisCircuitBreakerBackend.isOpen_closed httl (hmany ▸ hanswer)]
    exact ⟨hmany.symm, rfl⟩
  | tripping ttl now members a httl hmany =>
    obtain _ | ⟨⟨⟩, htrail⟩ := htrail
    obtain _ | ⟨⟨⟨⟩⟩, htrail⟩ := htrail
    obtain _ | ⟨⟨⟨⟩⟩, htrail⟩ := htrail
    obtain _ | ⟨⟨⟩, htrail⟩ := htrail
    obtain _ | ⟨hanswered, ⟨⟩⟩ := htrail
    cases hanswered with
    | setex hset =>
      rw [RedisCircuitBreakerBackend.isOpen_tripping httl hmany hset]
      exact ⟨rfl, rfl⟩
    | refused hrefused =>
      rw [RedisCircuitBreakerBackend.isOpen_refused httl hmany hrefused]
      exact ⟨rfl, rfl⟩

/-! ## Any number of calls -/

instance : (q : BreakerCommand) → Nonempty q.Answer
  | .command .timeNs => ⟨(0 : ℤ)⟩
  | .command .time => ⟨(0 : ℤ)⟩
  | .command (.zadd _ _ _) => ⟨()⟩
  | .command (.zremrangebyscore _ _ _) => ⟨()⟩
  | .command (.expire _ _) => ⟨()⟩
  | .zrange _ => ⟨[]⟩
  | .ttl _ => ⟨(0 : ℤ)⟩
  | .setex _ _ _ => ⟨.ok ()⟩

/-- What a call can do. -/
theorem program_runs {W : Type} {E : W → (q : BreakerCommand) → q.Answer → W → Prop} {w w' : W} {call : BreakerCall}
    {tr : List BreakerEvent} {r : Except Exc (Option Bool)} (h : Runs E w (call.program settings keys) tr r w') :
    (call = .isOpen ∧ ∃ r', IsOpenPath settings keys tr r' ∧ r = r'.map some) ∨
      (r = .ok none ∧ ∀ e ∈ tr, ∃ q a, e = ⟨.command q, a⟩) := by
  cases call with
  | isOpen =>
    refine Or.inl ⟨rfl, ?_⟩
    rcases runs_bind_iff.1 h with ⟨e, hopen, rfl⟩ | ⟨opened, _, t₁, t₂, rfl, hopen, hret⟩
    · exact ⟨.error e, isOpenPath_of_runs hopen, rfl⟩
    · obtain ⟨rfl, rfl, -⟩ := runs_ret_iff.1 hret
      rw [List.append_nil]
      exact ⟨.ok opened, isOpenPath_of_runs hopen, rfl⟩
  | record success =>
    obtain ⟨_, _, t₁, t₂, rfl, hrecord, hret⟩ := runs_lift_bind_iff.1 h
    obtain ⟨rfl, rfl, -⟩ := runs_ret_iff.1 hret
    obtain ⟨t, rfl, -⟩ := runs_rename_iff.1 hrecord
    refine Or.inr ⟨rfl, fun e he => ?_⟩
    rw [List.append_nil] at he
    obtain ⟨⟨q, a⟩, -, rfl⟩ := List.mem_map.1 he
    exact ⟨q, a, rfl⟩

/-- The time of a trip, and how long it lasts. -/
def trip? {ι : Type} (keys : CircuitKeys) (m : Moment ι SharedRedis BreakerCommand BreakerCommand.Answer) :
    Option (ℤ × ℤ) :=
  match m.event with
  | ⟨.setex key seconds _, .ok _⟩ => if key = keys.tripped then some (m.before.clock, seconds) else none
  | _ => none

def trips {ι : Type} (keys : CircuitKeys) (past : List (Moment ι SharedRedis BreakerCommand BreakerCommand.Answer)) :
    List (ℤ × ℤ) :=
  past.filterMap (trip? keys)

lemma trips_append {ι : Type} (past past' : List (Moment ι SharedRedis BreakerCommand BreakerCommand.Answer)) :
    trips keys (past ++ past') = trips keys past ++ trips keys past' := List.filterMap_append

section Processes

variable {ι : Type} [DecidableEq ι] {calls : ι → BreakerCall} {world : SharedRedis}
  {s : Loop ι SharedRedis BreakerCommand BreakerCommand.Answer Exc (Option Bool)}

/-- The states of calls on one circuit, in any number of processes. -/
abbrev Processes (settings : Settings ℤ) (keys : CircuitKeys) (calls : ι → BreakerCall) (world : SharedRedis) :
    Loop ι SharedRedis BreakerCommand BreakerCommand.Answer Exc (Option Bool) → Prop :=
  Reached (fun _ => true) Answered (Elsewhere keys) (fun i => (calls i).program settings keys) world

variable (keys) in
omit [DecidableEq ι] in
/-- A command that is no trip leaves the circuit alone. -/
lemma Answered.kept {w w' : SharedRedis} {q : BreakerCommand} {a : q.Answer} (h : Answered w q a w') (i : ι) :
    w'.clock = w.clock ∧
      (trip? keys (⟨i, ⟨q, a⟩, w, w'⟩ : Moment ι SharedRedis BreakerCommand BreakerCommand.Answer) = none ∧
          w'.redis.strings keys.tripped = w.redis.strings keys.tripped ∨
        ∃ seconds value, q = .setex keys.tripped seconds value ∧
          trip? keys (⟨i, ⟨q, a⟩, w, w'⟩ : Moment ι SharedRedis BreakerCommand BreakerCommand.Answer) =
            some (w.clock, seconds) ∧
          w'.redis.strings keys.tripped = some ⟨value, some (w.clock + seconds)⟩) := by
  cases h with
  | command hserved => cases hserved <;> exact ⟨rfl, Or.inl ⟨rfl, rfl⟩⟩
  | zrange => exact ⟨rfl, Or.inl ⟨rfl, rfl⟩⟩
  | ttl => exact ⟨rfl, Or.inl ⟨rfl, rfl⟩⟩
  | refused => exact ⟨rfl, Or.inl ⟨rfl, rfl⟩⟩
  | @setex key value seconds redis hset =>
    refine ⟨rfl, ?_⟩
    unfold Redis.setex at hset
    split_ifs at hset
    obtain rfl := Option.some.inj hset
    by_cases hkey : key = keys.tripped
    · subst hkey
      exact Or.inr ⟨seconds, value, rfl, if_pos rfl, Function.update_self ..⟩
    · exact Or.inl ⟨if_neg hkey, Function.update_of_ne (Ne.symm hkey) ..⟩

/-- **What is stored of the circuit is its last trip.** -/
theorem tripped_entry (h : Processes settings keys calls world s) (hfresh : world.redis.strings keys.tripped = none) :
    (trips keys s.past).getLast? = none ∧ s.world.redis.strings keys.tripped = none ∨
      ∃ t seconds value, (trips keys s.past).getLast? = some (t, seconds) ∧
        s.world.redis.strings keys.tripped = some ⟨value, some (t + seconds)⟩ := by
  induction h with
  | init => exact Or.inl ⟨rfl, hfresh⟩
  | start _ _ _ _ ih => exact ih
  | moved _ hout ih => simpa only [hout.entry] using ih
  | @resume s i q k a w _ _ _ hE ih =>
    rw [trips_append]
    obtain ⟨-, ⟨hnone, hentry⟩ | ⟨seconds, value, -, htrip, hentry⟩⟩ := hE.kept keys i
    · have hlast : trips keys [⟨i, ⟨q, a⟩, s.world, w⟩] = [] := List.filterMap_cons_none hnone
      rw [hlast, List.append_nil]
      simpa only [hentry] using ih
    · have hlast : trips keys [⟨i, ⟨q, a⟩, s.world, w⟩] = [(s.world.clock, seconds)] := List.filterMap_cons_some htrip
      rw [hlast, List.getLast?_concat]
      exact Or.inr ⟨_, seconds, value, rfl, hentry⟩

/-- Trips come in the order of their times. -/
lemma trips_pairwise (h : Processes settings keys calls world s) :
    (trips keys s.past).Pairwise (fun p p' => p.1 ≤ p'.1) ∧ ∀ p ∈ trips keys s.past, p.1 ≤ s.world.clock := by
  induction h with
  | init => exact ⟨.nil, by simp [trips]⟩
  | start _ _ _ _ ih => exact ih
  | moved _ hout ih => exact ⟨ih.1, fun p hp => (ih.2 p hp).trans hout.clock⟩
  | @resume s i q k a w _ _ _ hE ih =>
    rw [trips_append]
    obtain ⟨hclock, ⟨hnone, -⟩ | ⟨seconds, -, -, htrip, -⟩⟩ := hE.kept keys i
    · have hlast : trips keys [⟨i, ⟨q, a⟩, s.world, w⟩] = [] := List.filterMap_cons_none hnone
      rw [hlast, List.append_nil]
      simpa only [hclock] using ih
    · have hlast : trips keys [⟨i, ⟨q, a⟩, s.world, w⟩] = [(s.world.clock, seconds)] := List.filterMap_cons_some htrip
      rw [hlast]
      refine ⟨List.pairwise_append.2 ⟨ih.1, List.pairwise_singleton _ _, fun p hp p' hp' => ?_⟩, fun p hp => ?_⟩
      · rw [List.mem_singleton.1 hp']
        exact ih.2 p hp
      · rw [show w.clock = s.world.clock from hclock]
        rcases List.mem_append.1 hp with hold | hnew
        · exact ih.2 p hold
        · rw [List.mem_singleton.1 hnew]

/-- The commands of a task, in a whole run of its call. -/
lemma run_of_event (h : Processes settings keys calls world s) {e : BreakerEvent} {i : ι} (he : e ∈ own i s.past) :
    ∃ tr r, e ∈ tr ∧ Runs Anything () ((calls i).program settings keys) tr r () := by
  obtain ⟨p, -, hadvances⟩ := h.advances_of_mem he
  obtain ⟨tr, r, hrest⟩ := Coro.exists_runs p
  exact ⟨_, r, List.mem_append_left tr he, hadvances.runs hrest⟩

lemma IsOpenPath.seconds {tr : List BreakerEvent} {r : Except Exc Bool} (h : IsOpenPath settings keys tr r)
    {key value : String} {seconds : ℤ} {a : Except Exc Unit} (hmem : ⟨.setex key seconds value, a⟩ ∈ tr) :
    seconds = settings.cooldownSeconds := by
  cases h with
  | tripped => simp at hmem
  | counted => simp at hmem
  | tripping =>
    simp only [List.mem_cons, List.mem_append, List.not_mem_nil, or_false, reduceCtorEq, Sigma.mk.injEq, false_and,
      false_or, BreakerCommand.setex.injEq] at hmem
    exact hmem.1.2.1

omit [DecidableEq ι] in
lemma of_trip {m : Moment ι SharedRedis BreakerCommand BreakerCommand.Answer} {t seconds : ℤ}
    (h : trip? keys m = some (t, seconds)) :
    ∃ value, m.event = ⟨.setex keys.tripped seconds value, .ok ()⟩ ∧ t = m.before.clock := by
  obtain ⟨task, ⟨q, a⟩, before, after⟩ := m
  cases q with
  | setex key seconds' value =>
    cases a with
    | error e => cases h
    | ok u =>
      by_cases hkey : key = keys.tripped
      · obtain ⟨rfl, rfl⟩ := Prod.mk.inj (Option.some.inj ((if_pos hkey).symm.trans h))
        subst hkey
        exact ⟨value, rfl, rfl⟩
      · cases (if_neg hkey).symm.trans h
  | _ => cases h

/-- Every trip lasts for the cooldown. -/
lemma trips_seconds (h : Processes settings keys calls world s) :
    ∀ p ∈ trips keys s.past, p.2 = settings.cooldownSeconds := by
  rintro ⟨t, seconds⟩ hp
  obtain ⟨m, hm, htrip⟩ := List.mem_filterMap.1 hp
  obtain ⟨value, hevent, -⟩ := of_trip htrip
  obtain ⟨tr, r, hmem, hruns⟩ := run_of_event h (mem_own.2 ⟨m, hm, rfl, hevent⟩)
  rcases program_runs hruns with ⟨-, r', hpath, -⟩ | ⟨-, hcommands⟩
  · exact hpath.seconds hmem
  · obtain ⟨q, a, heq⟩ := hcommands _ hmem
    cases heq

variable (settings keys) in
/-- Some trip is not a cooldown ago. -/
def Cooling (past : List (Moment ι SharedRedis BreakerCommand BreakerCommand.Answer)) (clock : ℤ) : Prop :=
  ∃ p ∈ trips keys past, clock < p.1 + settings.cooldownSeconds

/-- What the `TTL` of the circuit says. -/
theorem ttl_pos_iff_cooling (h : Processes settings keys calls world s)
    (hfresh : world.redis.strings keys.tripped = none) :
    0 < s.world.redis.ttl s.world.clock keys.tripped ↔ Cooling settings keys s.past s.world.clock := by
  rcases tripped_entry h hfresh with ⟨hnone, hentry⟩ | ⟨t, seconds, value, hlast, hentry⟩
  · have hnil := List.getLast?_eq_none_iff.1 hnone
    simp [Redis.ttl, Cooling, hentry, hnil]
  · have hmem : (t, seconds) ∈ trips keys s.past := List.mem_of_getLast? hlast
    obtain rfl : seconds = settings.cooldownSeconds := trips_seconds h _ hmem
    have hlatest : ∀ p ∈ trips keys s.past, p.1 ≤ t := by
      intro p hp
      rw [← List.dropLast_append_getLast? _ hlast] at hp
      have hpairwise := (trips_pairwise h).1
      rw [← List.dropLast_append_getLast? _ hlast] at hpairwise
      rcases List.mem_append.1 hp with hold | hsame
      · exact (List.pairwise_append.1 hpairwise).2.2 p hold _ (List.mem_singleton_self _)
      · rw [List.mem_singleton.1 hsame]
    have httl : 0 < s.world.redis.ttl s.world.clock keys.tripped ↔ s.world.clock < t + settings.cooldownSeconds := by
      rw [Redis.ttl, hentry, Redis.live_with_expiry]
      split_ifs with hlive <;> simp [hlive]
    rw [httl]
    constructor
    · intro hclock
      exact ⟨_, hmem, hclock⟩
    · rintro ⟨p, hp, hclock⟩
      have hle := hlatest p hp
      omega

/-- A call of `is_open` that was answered has asked first, and was told whether the circuit was cooling down. -/
lemma asked_first (h : Processes settings keys calls world s) (hfresh : world.redis.strings keys.tripped = none) {ttl : ℤ}
    {rest : List BreakerEvent} (hown : own i s.past = ⟨.ttl keys.tripped, ttl⟩ :: rest) :
    ∃ earlier m later, s.past = earlier ++ m :: later ∧ m.task = i ∧ m.event = ⟨.ttl keys.tripped, ttl⟩ ∧
      own i later = rest ∧ (0 < ttl ↔ Cooling settings keys earlier m.before.clock) := by
  obtain ⟨earlier, m, later, hpast, -, htask, hevent, hlater⟩ := own_eq_cons hown
  refine ⟨earlier, m, later, hpast, htask, hevent, hlater, ?_⟩
  obtain ⟨tasks, hbefore⟩ := h.before hpast
  have hanswer := h.answered m (by simp [hpast])
  rw [hevent] at hanswer
  generalize m.after = after at hanswer
  cases hanswer with
  | ttl => exact ttl_pos_iff_cooling hbefore hfresh

/-- A task that trips the circuit has set the key. -/
lemma setex_of_trip {past : List (Moment ι SharedRedis BreakerCommand BreakerCommand.Answer)}
    {m : Moment ι SharedRedis BreakerCommand BreakerCommand.Answer} (hm : m ∈ past) (htask : m.task = i)
    (htrip : (trip? keys m).isSome = true) :
    ∃ seconds value, ⟨.setex keys.tripped seconds value, .ok ()⟩ ∈ own i past := by
  obtain ⟨⟨t, seconds⟩, htrip⟩ := Option.isSome_iff_exists.1 htrip
  obtain ⟨value, hevent, -⟩ := of_trip htrip
  exact ⟨seconds, value, mem_own.2 ⟨m, hm, htask, hevent⟩⟩

/-- **Which calls find the circuit open**, at any number of processes: those that ask while some trip is not a cooldown
ago, and these do no more than ask; and those that trip it themselves. -/
theorem shared_circuit (h : Processes settings keys calls world s) (hfresh : world.redis.strings keys.tripped = none)
    (i : ι) (opened : Bool) (hresult : (s.tasks i).bind result? = some (.ok (some opened))) :
    ∃ earlier m later, s.past = earlier ++ m :: later ∧ m.task = i ∧ (∃ ttl, m.event = ⟨.ttl keys.tripped, ttl⟩) ∧
      (opened = true ↔
        Cooling settings keys earlier m.before.clock ∨ ∃ m' ∈ later, m'.task = i ∧ (trip? keys m').isSome = true) ∧
      (Cooling settings keys earlier m.before.clock → own i later = []) := by
  obtain ⟨p, hp, hended⟩ := Option.bind_eq_some_iff.1 hresult
  rcases program_runs ((h.advances hp).runs_of_result hended) with ⟨-, r, hpath, hr⟩ | ⟨hr, -⟩
  swap
  · cases hr
  obtain rfl : r = .ok opened := by
    cases r with
    | error e => cases hr
    | ok b => rw [Option.some.inj (Except.ok.inj hr)]
  generalize hown : own i s.past = tr at hpath
  generalize hanswer : (Except.ok opened : Except Exc Bool) = answer at hpath
  cases hpath with
  | tripped ttl httl =>
    obtain rfl := Except.ok.inj hanswer
    obtain ⟨earlier, m, later, hpast, htask, hevent, hlater, hcooling⟩ := asked_first h hfresh hown
    exact ⟨earlier, m, later, hpast, htask, ⟨ttl, hevent⟩, iff_of_true rfl (Or.inl (hcooling.1 httl)), fun _ => hlater⟩
  | counted ttl now members httl _ hclosed =>
    obtain ⟨earlier, m, later, hpast, htask, hevent, hlater, hcooling⟩ := asked_first h hfresh hown
    have hnot : ¬ Cooling settings keys earlier m.before.clock := fun hcool => httl (hcooling.2 hcool)
    refine ⟨earlier, m, later, hpast, htask, ⟨ttl, hevent⟩, iff_of_false ?_ ?_, fun hcool => absurd hcool hnot⟩
    · rintro rfl
      exact hclosed hanswer.symm
    · rintro (hcool | ⟨m', hm', htask', htrip⟩)
      · exact hnot hcool
      · obtain ⟨seconds, value, hmem⟩ := setex_of_trip hm' htask' htrip
        rw [hlater] at hmem
        simp at hmem
  | tripping ttl now members a httl hmany =>
    obtain ⟨earlier, m, later, hpast, htask, hevent, hlater, hcooling⟩ := asked_first h hfresh hown
    have hnot : ¬ Cooling settings keys earlier m.before.clock := fun hcool => httl (hcooling.2 hcool)
    obtain ⟨rfl, rfl⟩ : a = .ok () ∧ opened = true := by
      cases a with
      | error e => cases hanswer
      | ok u => exact ⟨rfl, Except.ok.inj hanswer⟩
    have hmem : ⟨.setex keys.tripped settings.cooldownSeconds "1", .ok ()⟩ ∈ own i later := by
      rw [hlater]
      simp
    obtain ⟨m', hm', htask', hevent'⟩ := mem_own.1 hmem
    have htrip : (trip? keys m').isSome = true := by
      rw [trip?, hevent']
      simp
    exact ⟨earlier, m, later, hpast, htask, ⟨ttl, hevent⟩, iff_of_true rfl (Or.inr ⟨m', hm', htask', htrip⟩),
      fun hcool => absurd hcool hnot⟩

end Processes

/-! ### Two processes, one after the other -/

section Sample

/-- The database as it answers. -/
def serveCommand : (q : BreakerCommand) → SharedRedis → q.Answer × SharedRedis
  | .command .timeNs, w => (w.ns, w)
  | .command .time, w => (w.clock, w)
  | .command (.zadd key member score), w => ((), { w with redis := w.redis.zadd w.clock key member score })
  | .command (.zremrangebyscore key min max), w => ((), { w with redis := w.redis.zremrangebyscore w.clock key min max })
  | .command (.expire key seconds), w => ((), { w with redis := w.redis.expire w.clock key seconds })
  | .zrange key, w => (w.redis.zrange w.clock key, w)
  | .ttl key, w => (w.redis.ttl w.clock key, w)
  | .setex key seconds value, w =>
    match w.redis.setex w.clock key seconds value with
    | some redis => (.ok (), { w with redis })
    | none => (.error (.exception "invalid expire time in 'setex' command"), w)

lemma serveCommand_answers (q : BreakerCommand) (w : SharedRedis) :
    Answered w q (serveCommand q w).1 (serveCommand q w).2 := by
  cases q with
  | command q => cases q <;> exact .command (by constructor)
  | zrange => exact .zrange ..
  | ttl => exact .ttl ..
  | setex key seconds value =>
    simp only [serveCommand]
    split
    · next redis hset => exact .setex hset
    · next hrefused => exact .refused hrefused

/-- One call has failed. -/
def failedBackend : RedisCircuitBreakerBackend where
  redis := Redis.empty.zadd 100 "aimw:cb:events:a1:t" (1, false) 100
  settings := { windowSeconds := 60, failureThreshold := 1 / 2, minSamples := 1, cooldownSeconds := 30 }

def failedKeys : CircuitKeys := ⟨failedBackend.eventsKey "a1:t", failedBackend.trippedKey "a1:t"⟩

lemma clock_of_runs {w w' : SharedRedis} {p : Coro BreakerCommand BreakerCommand.Answer Exc Bool} {tr : List BreakerEvent}
    {r : Except Exc Bool} (h : Runs Answered w p tr r w') : w'.clock = w.clock := by
  induction h with
  | ret => rfl
  | raise => rfl
  | call hE _ ih => exact ih.trans (hE.kept failedKeys ()).1

lemma isOpen_run {b : RedisCircuitBreakerBackend} {w : SharedRedis} (key : String) (hredis : w.redis = b.redis)
    (h : (b.isOpen key w.clock).1 = .ok true) :
    ∃ tr w', Runs Answered w (BreakerCall.isOpen.program b.settings ⟨b.eventsKey key, b.trippedKey key⟩) tr
      (.ok (some true)) w' ∧ w'.redis = (b.isOpen key w.clock).2.redis ∧ w'.clock = w.clock := by
  have hruns := runs_run serveCommand_answers (isOpenCommands b.settings ⟨b.eventsKey key, b.trippedKey key⟩) w
  obtain ⟨hr, hredis'⟩ := isOpen_alone hredis hruns
  rw [hr, h] at hruns
  exact ⟨_, _, runs_bind_iff.2 (Or.inr ⟨true, _, _, _, rfl, hruns, .ret ..⟩), hredis', clock_of_runs hruns⟩

theorem shared_circuit_cooling : ∃ s : Loop Bool SharedRedis BreakerCommand BreakerCommand.Answer Exc (Option Bool),
    Processes failedBackend.settings failedKeys (fun _ => .isOpen) ⟨failedBackend.redis, 100, 1⟩ s ∧
      (s.tasks false).bind result? = some (.ok (some true)) ∧ ∃ earlier m later, s.past = earlier ++ m :: later ∧
        m.task = false ∧ (Cooling failedBackend.settings failedKeys earlier m.before.clock ∨
          ∃ m' ∈ later, m'.task = false ∧ (trip? failedKeys m').isSome = true) := by
  have hmany : tooManyFailures failedBackend.settings (failedBackend.counted "a1:t" 100) = .ok true :=
    tooManyFailures_of_failed (by decide) (by decide +kernel) (by decide) (by decide)
  obtain ⟨redis, hset⟩ : ∃ redis, (failedBackend.recentEvents "a1:t" 100).2.redis.setex 100
      (failedBackend.trippedKey "a1:t") failedBackend.settings.cooldownSeconds "1" = some redis :=
    Redis.setex_of_pos "1" (by decide)
  have htripping : failedBackend.isOpen "a1:t" 100 = (.ok true, { failedBackend with redis }) :=
    RedisCircuitBreakerBackend.isOpen_tripping (by decide) hmany hset
  -- the first process trips the circuit
  obtain ⟨tr, w, hfirst, hw, hclock⟩ := isOpen_run (w := ⟨failedBackend.redis, 100, 1⟩) "a1:t" rfl (by rw [htripping])
  have hinit : Processes failedBackend.settings failedKeys (fun _ : Bool => .isOpen) ⟨failedBackend.redis, 100, 1⟩
      ⟨⟨failedBackend.redis, 100, 1⟩, fun _ => none, []⟩ := .init
  obtain ⟨p, past, hp, -, -, htripped⟩ := hinit.run_through (i := true) rfl (fun _ _ h => by cases h) hfirst
  rw [htripping] at hw
  -- ten seconds later the second one asks
  have hlater := htripped.moved (w := { w with clock := 110 }) ⟨hclock.trans_le (by norm_num), rfl⟩
  have hcooling : 0 < redis.ttl 110 (failedBackend.trippedKey "a1:t") := (Redis.ttl_setex hset).2 (by decide)
  obtain ⟨tr', w', hsecond, -⟩ := isOpen_run (b := { failedBackend with redis }) (w := { w with clock := 110 }) "a1:t" hw
    (congrArg Prod.fst (RedisCircuitBreakerBackend.isOpen_tripped hcooling))
  have hrest : ∀ p : Coro BreakerCommand BreakerCommand.Answer Exc (Option Bool), AtRest (fun _ => true) p := by
    intro p
    cases p <;> trivial
  obtain ⟨p', past', hp', -, -, hreached⟩ := hlater.run_through (i := false) rfl (fun _ p _ => hrest p) hsecond
  have hended : (Function.update (Function.update (fun _ : Bool => none) true (some p)) false (some p') false).bind
      result? = some (.ok (some true)) := by
    rw [Function.update_self]
    exact hp'
  obtain ⟨earlier, m, later, hpast, htask, -, hiff, -⟩ := shared_circuit hreached rfl false true hended
  exact ⟨_, hreached, hended, earlier, m, later, hpast, htask, hiff.1 rfl⟩

end Sample

end Aimw.Reliability
