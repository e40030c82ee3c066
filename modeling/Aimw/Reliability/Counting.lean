import Aimw.Lib.EventLoop
import Aimw.Reliability.Window

/-!
# What Redis counts

`_record` of the Redis backend, command by command: calls of any number of processes on one key, whose commands reach
the database in any order.  Each call adds a member to the sorted set of the key, which is named after a reading of
the clock and the outcome.  The unit of the clock is any in which the settings are whole numbers.

* `Kept` — inside one window, the set has exactly the members that were added;
* `every_outcome_counted_iff` — every call counts if no two calls have the same name.
-/

namespace Aimw.Reliability

open Lib Coro

/-! ## The calls -/

inductive Command
  | timeNs
  | time
  | zadd (key : String) (member : Member) (score : ℤ)
  | zremrangebyscore (key : String) (min max : ℤ)
  | expire (key : String) (seconds : ℤ)

abbrev Command.Answer : Command → Type
  | .timeNs | .time => ℤ
  | _ => Unit

/-- A call of `record_success` or `record_failure` of an instance with these settings. -/
structure RecordCall where
  settings : Settings ℤ
  success : Bool

/-- `_record`, where `eventsKey` is the key of the sorted set. -/
def RecordCall.record (c : RecordCall) (eventsKey : String) : Coro Command Command.Answer Empty Unit := do
  let ns ← perform .timeNs
  let now ← perform .time
  perform (Command.zadd eventsKey (ns, c.success) now)
  let now ← perform .time
  perform (Command.zremrangebyscore eventsKey 0 (now - c.settings.windowSeconds))
  perform (Command.expire eventsKey (c.settings.windowSeconds * 2))

/-- The database, and what `time.time()` and `time.time_ns()` read in all the processes. -/
structure SharedRedis where
  redis : Redis Member
  clock : ℤ
  ns : ℤ

inductive Served : SharedRedis → (q : Command) → q.Answer → SharedRedis → Prop
  | timeNs (w : SharedRedis) : Served w .timeNs w.ns w
  | time (w : SharedRedis) : Served w .time w.clock w
  | zadd (w : SharedRedis) (key : String) (member : Member) (score : ℤ) :
      Served w (.zadd key member score) () { w with redis := w.redis.zadd w.clock key member score }
  | zremrangebyscore (w : SharedRedis) (key : String) (min max : ℤ) :
      Served w (.zremrangebyscore key min max) () { w with redis := w.redis.zremrangebyscore w.clock key min max }
  | expire (w : SharedRedis) (key : String) (seconds : ℤ) :
      Served w (.expire key seconds) () { w with redis := w.redis.expire w.clock key seconds }

/-- Time passes, but not beyond the horizon, and others are at work on other keys. -/
structure Meanwhile (eventsKey : String) (horizon : ℤ) (w w' : SharedRedis) : Prop where
  clock : w.clock ≤ w'.clock
  clock_lt : w'.clock < horizon
  ns : w.ns ≤ w'.ns
  set : w'.redis.zsets eventsKey = w.redis.zsets eventsKey

/-- The commands of a call that reads these times. -/
def commandsOf (eventsKey : String) (c : RecordCall) (ns added removed : ℤ) : List ((q : Command) × q.Answer) :=
  [⟨.timeNs, ns⟩, ⟨.time, added⟩, ⟨.zadd eventsKey (ns, c.success) added, ()⟩, ⟨.time, removed⟩,
    ⟨.zremrangebyscore eventsKey 0 (removed - c.settings.windowSeconds), ()⟩,
    ⟨.expire eventsKey (c.settings.windowSeconds * 2), ()⟩]

lemma commands_of_runs {W : Type} {E : W → (q : Command) → q.Answer → W → Prop} {w w' : W} {c : RecordCall}
    {eventsKey : String} {tr : List ((q : Command) × q.Answer)} {r : Except Empty Unit}
    (h : Runs E w (c.record eventsKey) tr r w') : ∃ ns added removed, tr = commandsOf eventsKey c ns added removed := by
  obtain ⟨ns, _, _, rfl, -, h⟩ := runs_call_iff.1 h
  obtain ⟨added, _, _, rfl, -, h⟩ := runs_call_iff.1 h
  obtain ⟨_, _, _, rfl, -, h⟩ := runs_call_iff.1 h
  obtain ⟨removed, _, _, rfl, -, h⟩ := runs_call_iff.1 h
  obtain ⟨_, _, _, rfl, -, h⟩ := runs_call_iff.1 h
  obtain ⟨_, _, _, rfl, -, h⟩ := runs_call_iff.1 h
  obtain ⟨rfl, -, -⟩ := runs_ret_iff.1 h
  exact ⟨ns, added, removed, rfl⟩

/-! ## One window -/

/-- Between `start` and the horizon, the set has the members `names`, each once, and neither they nor the set expire. -/
structure Kept (eventsKey : String) (start horizon : ℤ) (names : List Member) (w : SharedRedis) : Prop where
  started : start ≤ w.clock
  clock_lt : w.clock < horizon
  lasting : ∀ e, live (w.redis.zsets eventsKey) w.clock = some e → ∀ t ∈ e.expiresAt, horizon ≤ t
  recent : ∀ p ∈ w.redis.members w.clock eventsKey, start ≤ p.2
  nodup : ((w.redis.members w.clock eventsKey).map Prod.fst).Nodup
  mem : ∀ m, m ∈ (w.redis.members w.clock eventsKey).map Prod.fst ↔ m ∈ names

section Kept

variable {eventsKey : String} {start horizon : ℤ} {names : List Member} {w w' : SharedRedis}

lemma kept_nil (hnew : live (w.redis.zsets eventsKey) w.clock = none) (hclock : w.clock < horizon) :
    Kept eventsKey w.clock horizon [] w where
  started := le_rfl
  clock_lt := hclock
  lasting e he := by cases hnew.symm.trans he
  recent p hp := by simp [Redis.members_of_gone hnew] at hp
  nodup := by simp [Redis.members_of_gone hnew]
  mem m := by simp [Redis.members_of_gone hnew]

/-- Another state that shows the same members. -/
lemma Kept.congr (h : Kept eventsKey start horizon names w) (hstarted : start ≤ w'.clock) (hclock : w'.clock < horizon)
    (hmembers : w'.redis.members w'.clock eventsKey = w.redis.members w.clock eventsKey)
    (hlasting : ∀ e, live (w'.redis.zsets eventsKey) w'.clock = some e → ∀ t ∈ e.expiresAt, horizon ≤ t) :
    Kept eventsKey start horizon names w' where
  started := hstarted
  clock_lt := hclock
  lasting := hlasting
  recent := by simpa only [hmembers] using h.recent
  nodup := by simpa only [hmembers] using h.nodup
  mem := by simpa only [hmembers] using h.mem

lemma Kept.zadd (h : Kept eventsKey start horizon names w) (member : Member) {score : ℤ} (hscore : start ≤ score) :
    Kept eventsKey start horizon (names ++ [member])
      { w with redis := w.redis.zadd w.clock eventsKey member score } := by
  have hkeys := Redis.map_fst_withScore (w.redis.members w.clock eventsKey) member score
  rw [← Redis.members_zadd] at hkeys
  refine ⟨h.started, h.clock_lt, fun e he t ht => ?_, fun p hp => ?_, ?_, fun m => ?_⟩
  · -- the set keeps its expiry
    have hentry := (Redis.live_eq_some_iff.1 he).1
    simp only [Redis.zadd, Redis.setMembers, Function.update_self] at hentry
    obtain rfl := Option.some.inj hentry
    obtain ⟨e', he', ht⟩ := Option.bind_eq_some_iff.1 ht
    exact h.lasting e' he' t ht
  · rw [Redis.members_zadd] at hp
    rcases Redis.mem_withScore hp with hp | rfl
    · exact h.recent p hp
    · exact hscore
  · rw [hkeys]
    split_ifs with hmem
    · exact h.nodup
    · exact List.nodup_append.2 ⟨h.nodup, List.nodup_singleton _, by
        rintro a ha b hb rfl
        exact hmem (List.mem_singleton.1 hb ▸ ha)⟩
  · rw [hkeys, List.mem_append, List.mem_singleton, ← h.mem]
    split_ifs with hmem
    · constructor
      · exact Or.inl
      · rintro (hm | rfl)
        · exact hm
        · exact hmem
    · rw [List.mem_append, List.mem_singleton]

/-- Nothing is old enough to be removed. -/
lemma Kept.zremrangebyscore (h : Kept eventsKey start horizon names w) (min : ℤ) {max : ℤ} (hmax : max < start) :
    Kept eventsKey start horizon names
      { w with redis := w.redis.zremrangebyscore w.clock eventsKey min max } := by
  have hmembers : (w.redis.zremrangebyscore w.clock eventsKey min max).members w.clock eventsKey =
      w.redis.members w.clock eventsKey := by
    rw [Redis.members_zremrangebyscore _ _ le_rfl, List.filter_eq_self]
    intro p hp
    have hrecent := h.recent p hp
    simp only [Bool.not_eq_true', decide_eq_false_iff_not]
    omega
  refine h.congr h.started h.clock_lt hmembers fun e he t ht => ?_
  have hentry := (Redis.live_eq_some_iff.1 he).1
  simp only [Redis.zremrangebyscore, Redis.setMembers, Function.update_self] at hentry
  split_ifs at hentry
  obtain ⟨e', he', rfl⟩ := Option.map_eq_some_iff.1 hentry
  exact h.lasting e' he' t ht

lemma Kept.expire (h : Kept eventsKey start horizon names w) {seconds : ℤ} (hseconds : horizon ≤ start + seconds) :
    Kept eventsKey start horizon names { w with redis := w.redis.expire w.clock eventsKey seconds } := by
  have hstarted := h.started
  have hclock := h.clock_lt
  have hmembers : (w.redis.expire w.clock eventsKey seconds).members w.clock eventsKey =
      w.redis.members w.clock eventsKey := by
    rw [Redis.members_expire _ le_rfl, if_pos (by omega)]
  refine h.congr h.started h.clock_lt hmembers fun e he t ht => ?_
  have hentry := (Redis.live_eq_some_iff.1 he).1
  simp only [Redis.expire, Redis.setMembers, Function.update_self] at hentry
  split_ifs at hentry
  obtain ⟨e', -, rfl⟩ := Option.map_eq_some_iff.1 hentry
  obtain rfl := Option.some.inj ht
  omega

lemma Kept.meanwhile (h : Kept eventsKey start horizon names w) (hw : Meanwhile eventsKey horizon w w') :
    Kept eventsKey start horizon names w' := by
  have hlive : live (w'.redis.zsets eventsKey) w'.clock = live (w.redis.zsets eventsKey) w.clock := by
    rw [hw.set]
    cases he : live (w.redis.zsets eventsKey) w.clock with
    | none => exact Redis.live_mono hw.clock he
    | some e =>
      refine Redis.live_eq_some_iff.2 ⟨(Redis.live_eq_some_iff.1 he).1, fun t ht => ?_⟩
      exact hw.clock_lt.trans_le (h.lasting e he t ht)
  have hmembers : w'.redis.members w'.clock eventsKey = w.redis.members w.clock eventsKey := by
    rw [Redis.members, Redis.members, hlive]
  refine h.congr (h.started.trans hw.clock) hw.clock_lt hmembers ?_
  simpa only [hlive] using h.lasting

end Kept

/-! ## All the calls -/

/-- The member that a command adds. -/
def added? : ((q : Command) × q.Answer) → Option Member
  | ⟨.zadd _ member _, _⟩ => some member
  | _ => none

/-- The members that were added, one after the other. -/
def addedIn {ι : Type} (past : List (Moment ι SharedRedis Command Command.Answer)) : List Member :=
  past.filterMap fun m => added? m.event

section Added

variable {ι : Type} {past : List (Moment ι SharedRedis Command Command.Answer)}
  {m : Moment ι SharedRedis Command Command.Answer}

lemma addedIn_concat_none (h : added? m.event = none) : addedIn (past ++ [m]) = addedIn past := by
  simp [addedIn, h]

lemma addedIn_concat_some {member : Member} (h : added? m.event = some member) :
    addedIn (past ++ [m]) = addedIn past ++ [member] := by
  simp [addedIn, h]

end Added

/-- A reading of the clock inside the window. -/
def Reads (start horizon : ℤ) : (q : Command) → q.Answer → Prop
  | .time => fun now : ℤ => start ≤ now ∧ now < horizon
  | _ => fun _ => True

/-- A command on the set that loses nothing of it. -/
def Harmless (eventsKey : String) (start horizon : ℤ) : Command → Prop
  | .zadd key _ score => key = eventsKey ∧ start ≤ score
  | .zremrangebyscore key _ max => key = eventsKey ∧ max < start
  | .expire key seconds => key = eventsKey ∧ horizon ≤ start + seconds
  | _ => True

lemma record_guarantees {c : RecordCall} {start horizon : ℤ} (eventsKey : String) (hstart : start < horizon)
    (hwindow : horizon ≤ start + c.settings.windowSeconds) :
    (c.record eventsKey).Guarantees (Reads start horizon) (Harmless eventsKey start horizon) := by
  refine ⟨trivial, fun ns _ => ⟨trivial, fun now hnow => ⟨⟨rfl, hnow.1⟩, fun _ _ => ⟨trivial, fun (now : ℤ) hnow => ?_⟩⟩⟩⟩
  have hlt : now < horizon := hnow.2
  refine ⟨⟨rfl, ?_⟩, fun _ _ => ⟨⟨rfl, ?_⟩, fun _ _ => trivial⟩⟩
  · omega
  · omega

section Run

variable {ι : Type} [DecidableEq ι] {calls : ι → RecordCall} {eventsKey : String} {horizon : ℤ} {world : SharedRedis}
  {s : Loop ι SharedRedis Command Command.Answer Empty Unit}

theorem kept_of_reached (h : Reached (fun _ => true) Served (Meanwhile eventsKey horizon)
      (fun i => (calls i).record eventsKey) world s)
    (hnew : live (world.redis.zsets eventsKey) world.clock = none) (hclock : world.clock < horizon)
    (hwindow : ∀ i, horizon ≤ world.clock + (calls i).settings.windowSeconds) :
    Kept eventsKey world.clock horizon (addedIn s.past) s.world := by
  refine (h.invariant (R := Reads world.clock horizon) (P := Harmless eventsKey world.clock horizon)
    (I := fun past w => Kept eventsKey world.clock horizon (addedIn past) w)
    (fun i => record_guarantees eventsKey hclock (hwindow i)) (kept_nil hnew hclock) ?_
    fun past w w' hI hw => hI.meanwhile hw).1
  intro past i w q a w' hI hq hE
  cases hE with
  | timeNs => exact ⟨trivial, by rwa [addedIn_concat_none (by rfl)]⟩
  | time => exact ⟨⟨hI.started, hI.clock_lt⟩, by rwa [addedIn_concat_none (by rfl)]⟩
  | zadd key member score =>
    obtain ⟨rfl, hscore⟩ := hq
    rw [addedIn_concat_some (by rfl)]
    exact ⟨trivial, hI.zadd member hscore⟩
  | zremrangebyscore key min max =>
    obtain ⟨rfl, hmax⟩ := hq
    rw [addedIn_concat_none (by rfl)]
    exact ⟨trivial, hI.zremrangebyscore min hmax⟩
  | expire key seconds =>
    obtain ⟨rfl, hseconds⟩ := hq
    rw [addedIn_concat_none (by rfl)]
    exact ⟨trivial, hI.expire hseconds⟩

/-- What the calls have read and done when they have all ended. -/
lemma exists_times {outside : SharedRedis → SharedRedis → Prop}
    (h : Reached (fun _ => true) Served outside (fun i => (calls i).record eventsKey) world s)
    (hended : ∀ i, s.tasks i = some (.ret ())) :
    ∃ ns : ι → ℤ, ∀ i, ∃ added removed, own i s.past = commandsOf eventsKey (calls i) (ns i) added removed := by
  choose ns added removed hown using fun i => commands_of_runs ((h.advances (hended i)).runs_of_result rfl)
  exact ⟨ns, fun i => ⟨added i, removed i, hown i⟩⟩

variable {ns : ι → ℤ}

lemma read_iff (hown : ∀ i, ∃ added removed, own i s.past = commandsOf eventsKey (calls i) (ns i) added removed)
    (i : ι) (n : ℤ) : (⟨.timeNs, n⟩ : (q : Command) × q.Answer) ∈ own i s.past ↔ n = ns i := by
  obtain ⟨added, removed, hown⟩ := hown i
  rw [hown]
  simp [commandsOf]

lemma mem_added_iff
    (hown : ∀ i, ∃ added removed, own i s.past = commandsOf eventsKey (calls i) (ns i) added removed) (m : Member) :
    m ∈ addedIn s.past ↔ ∃ i, (ns i, (calls i).success) = m := by
  have hof : ∀ i, (∃ e ∈ own i s.past, added? e = some m) ↔ (ns i, (calls i).success) = m := by
    intro i
    obtain ⟨added, removed, hown⟩ := hown i
    rw [hown]
    simp [commandsOf, added?]
  simp only [← hof, mem_own, addedIn, List.mem_filterMap]
  constructor
  · rintro ⟨moment, hmoment, hm⟩
    exact ⟨moment.task, moment.event, ⟨moment, hmoment, rfl, rfl⟩, hm⟩
  · rintro ⟨i, e, ⟨moment, hmoment, -, rfl⟩, hm⟩
    exact ⟨moment, hmoment, hm⟩

end Run

/-! ## The counts -/

def failures {ι : Type} [Fintype ι] (calls : ι → RecordCall) : ℕ :=
  (Finset.univ.filter fun i => (calls i).success = false).card

/-- What `score` and `is_open` read is as many events as there were calls, and the score is the share of the
failures. -/
structure CountsEvery {ι : Type} [Fintype ι] (calls : ι → RecordCall) (b : RedisCircuitBreakerBackend) (key : String)
    (now : ℤ) : Prop where
  number : (b.counted key now).length = Fintype.card ι
  score : (b.score key now).1 = .ok ((failures calls : ℚ) / Fintype.card ι)

/-- Calls that have read the same time have different outcomes. -/
def NamesDiffer {ι : Type} [DecidableEq ι] (calls : ι → RecordCall)
    (past : List (Moment ι SharedRedis Command Command.Answer)) : Prop :=
  ∀ i j (ns : ℤ), (⟨.timeNs, ns⟩ : (q : Command) × q.Answer) ∈ own i past →
    (⟨.timeNs, ns⟩ : (q : Command) × q.Answer) ∈ own j past → (calls i).success = (calls j).success → i = j

section Counts

variable {ι : Type} [Fintype ι] {calls : ι → RecordCall} {b : RedisCircuitBreakerBackend} {key : String} {horizon : ℤ}
  {w : SharedRedis} {ns : ι → ℤ} {names : List Member}

/-- The events that are read are the names of the calls, each once. -/
lemma Kept.events {start : ℤ} (h : Kept (b.eventsKey key) start horizon names w) (hredis : b.redis = w.redis)
    (hwindow : horizon ≤ start + b.settings.windowSeconds) :
    (b.recentEvents key w.clock).1.Nodup ∧ ∀ m, m ∈ (b.recentEvents key w.clock).1 ↔ m ∈ names := by
  have hclock := h.clock_lt
  have hread := h.zremrangebyscore 0 (by omega : w.clock - b.settings.windowSeconds < start)
  have hevents : (b.recentEvents key w.clock).1 = ((w.redis.zremrangebyscore w.clock (b.eventsKey key) 0
      (w.clock - b.settings.windowSeconds)).members w.clock (b.eventsKey key)).map Prod.fst := by
    rw [← hredis]
    rfl
  rw [hevents]
  exact ⟨hread.nodup, hread.mem⟩

/-- Events with these names count every call if the names differ. -/
lemma countsEvery_iff {now : ℤ} (hnodup : (b.recentEvents key now).1.Nodup)
    (hmem : ∀ m, m ∈ (b.recentEvents key now).1 ↔ ∃ i, (ns i, (calls i).success) = m) :
    CountsEvery calls b key now ↔ Function.Injective fun i => (ns i, (calls i).success) := by
  have hset : (b.recentEvents key now).1.toFinset = Finset.univ.image fun i => (ns i, (calls i).success) := by
    ext m
    rw [List.mem_toFinset, hmem, Finset.mem_image]
    simp
  have hlength : (b.counted key now).length = (Finset.univ.image fun i => (ns i, (calls i).success)).card := by
    rw [← hset, List.toFinset_card_of_nodup hnodup, RedisCircuitBreakerBackend.counted, List.length_map]
  constructor
  · intro h
    rw [← Set.injOn_univ, ← Finset.coe_univ, ← Finset.card_image_iff, ← hlength, h.number, Finset.card_univ]
  · intro hinj
    have hnumber : (b.counted key now).length = Fintype.card ι := by
      rw [hlength, Finset.card_image_of_injective _ hinj, Finset.card_univ]
    have hfailures : (b.counted key now).count false = failures calls := by
      calc (b.counted key now).count false
          = ((b.recentEvents key now).1.filter fun m => m.2 == false).length := by
            rw [RedisCircuitBreakerBackend.counted, List.count, List.countP_map, List.countP_eq_length_filter]
            rfl
        _ = ((Finset.univ.image fun i => (ns i, (calls i).success)).filter fun m => m.2 = false).card := by
            rw [← hset, ← List.toFinset_card_of_nodup (hnodup.filter _), List.toFinset_filter]
            simp
        _ = failures calls := by
            rw [Finset.filter_image, Finset.card_image_of_injective _ hinj]
            rfl
    refine ⟨hnumber, ?_⟩
    have hscore : (b.score key now).1 = scoreOf (b.counted key now) := rfl
    rw [hscore, scoreOf_eq, failureShare, hfailures, hnumber]
    split_ifs with hnil
    · rw [← hnumber, hnil]
      simp
    · rfl

end Counts

/-- **Every outcome counts** if no two calls with the same outcome have read the same time, and only then: for any
calls of any number of instances on one key that nothing was recorded for, in any order of their commands, inside one
window of each of them. -/
theorem every_outcome_counted_iff {ι : Type} [Fintype ι] [DecidableEq ι] {calls : ι → RecordCall}
    (b : RedisCircuitBreakerBackend) (key : String) {horizon : ℤ} {world : SharedRedis}
    {s : Loop ι SharedRedis Command Command.Answer Empty Unit}
    (h : Reached (fun _ => true) Served (Meanwhile (b.eventsKey key) horizon)
      (fun i => (calls i).record (b.eventsKey key)) world s)
    (hended : ∀ i, s.tasks i = some (.ret ())) (hredis : b.redis = s.world.redis)
    (hnew : live (world.redis.zsets (b.eventsKey key)) world.clock = none) (hclock : world.clock < horizon)
    (hwindow : ∀ i, horizon ≤ world.clock + (calls i).settings.windowSeconds)
    (hreader : horizon ≤ world.clock + b.settings.windowSeconds) :
    CountsEvery calls b key s.world.clock ↔ NamesDiffer calls s.past := by
  obtain ⟨ns, hown⟩ := exists_times h hended
  obtain ⟨hnodup, hmem⟩ := (kept_of_reached h hnew hclock hwindow).events hredis hreader
  rw [countsEvery_iff hnodup fun m => (hmem m).trans (mem_added_iff hown m)]
  constructor
  · intro hinj i j n hi hj hsame
    rw [read_iff hown] at hi hj
    exact hinj (Prod.ext (hi.symm.trans hj) hsame)
  · intro hdiffer i j hij
    obtain ⟨hns, hsame⟩ := Prod.mk.inj hij
    exact hdiffer i j (ns i) ((read_iff hown i _).2 rfl) ((read_iff hown j _).2 hns) hsame

/-! ### Two calls at one instant -/

/-- What a call leaves when no time passes. -/
def recorded (eventsKey : String) (c : RecordCall) (w : SharedRedis) : SharedRedis where
  redis := ((w.redis.zadd w.clock eventsKey (w.ns, c.success) w.clock).zremrangebyscore w.clock eventsKey 0
    (w.clock - c.settings.windowSeconds)).expire w.clock eventsKey (c.settings.windowSeconds * 2)
  clock := w.clock
  ns := w.ns

lemma record_runs (eventsKey : String) (c : RecordCall) (w : SharedRedis) :
    Runs Served w (c.record eventsKey) (commandsOf eventsKey c w.ns w.clock w.clock) (.ok ()) (recorded eventsKey c w) :=
  .call (.timeNs _) <| .call (.time _) <| .call (.zadd _ _ _ _) <| .call (.time _) <|
    .call (.zremrangebyscore _ _ _ _) <| .call (.expire _ _ _) (.ret _ _)

lemma atRest_anywhere {α : Type} (p : Coro Command Command.Answer Empty α) : AtRest (fun _ => true) p := by
  cases p <;> trivial

/-- Two calls, one after the other. -/
lemma two_calls_reached (calls : Bool → RecordCall) (eventsKey : String) (horizon : ℤ) (world : SharedRedis) :
    ∃ s : Loop Bool SharedRedis Command Command.Answer Empty Unit,
      Reached (fun _ => true) Served (Meanwhile eventsKey horizon) (fun i => (calls i).record eventsKey) world s ∧
        (∀ i, s.tasks i = some (.ret ())) ∧
        (∀ i, own i s.past = commandsOf eventsKey (calls i) world.ns world.clock world.clock) ∧
        s.world = recorded eventsKey (calls true) (recorded eventsKey (calls false) world) := by
  have hrest : ∀ (s : Loop Bool SharedRedis Command Command.Answer Empty Unit) j p, s.tasks j = some p →
      AtRest (fun _ => true) p := fun _ _ p _ => atRest_anywhere p
  have hinit : Reached (fun _ => true) Served (Meanwhile eventsKey horizon) (fun i => (calls i).record eventsKey) world
      ⟨world, fun _ => none, []⟩ := .init
  obtain ⟨p, past, hp, hown, hothers, hfirst⟩ := hinit.run_through (i := false) rfl (hrest _) (record_runs ..)
  obtain ⟨p', past', hp', hown', hothers', hsecond⟩ := hfirst.run_through (i := true) rfl (hrest _) (record_runs ..)
  refine ⟨_, hsecond, fun i => ?_, fun i => ?_, rfl⟩
  · rw [eq_ret_of_result hp, eq_ret_of_result hp']
    cases i <;> rfl
  · simp only [List.nil_append, own_append]
    cases i with
    | false => rw [hown, hothers' false (by decide), List.append_nil]
    | true =>
      rw [hown', hothers true (by decide)]
      rfl

/-- An empty database, at some time. -/
def noEvents : SharedRedis where
  redis := .empty
  clock := 100
  ns := 100000000000

def twoSamples : Settings ℤ where
  windowSeconds := 60
  failureThreshold := 1 / 2
  minSamples := 2
  cooldownSeconds := 30

/-- Two calls with these outcomes. -/
def outcomes (first second : Bool) (i : Bool) : RecordCall where
  settings := twoSamples
  success := if i then second else first

/-- A success and a failure at one instant both count. -/
theorem every_outcome_counted_iff_mixed : ∃ redis : Redis Member,
    CountsEvery (outcomes false true) ⟨redis, twoSamples, "aimw:cb"⟩ "k" noEvents.clock := by
  obtain ⟨s, hreached, hended, hown, hworld⟩ := two_calls_reached (outcomes false true) "aimw:cb:events:k" 160 noEvents
  have hclock : s.world.clock = noEvents.clock := by
    rw [hworld]
    rfl
  have hdiffer : NamesDiffer (outcomes false true) s.past := by
    intro i j ns _ _ hsame
    cases i <;> cases j <;> first | rfl | cases hsame
  have hcounts : CountsEvery (outcomes false true) ⟨s.world.redis, twoSamples, "aimw:cb"⟩ "k" s.world.clock :=
    (every_outcome_counted_iff ⟨s.world.redis, twoSamples, "aimw:cb"⟩ "k" hreached hended rfl rfl (by decide) (by decide)
      (show (160 : ℤ) ≤ 100 + 60 by decide)).2 hdiffer
  exact ⟨s.world.redis, hclock ▸ hcounts⟩

/-- Two failures at one instant count as one, and the circuit does not trip. -/
theorem one_instant_counts_once : ∃ s : Loop Bool SharedRedis Command Command.Answer Empty Unit,
    Reached (fun _ => true) Served (Meanwhile "aimw:cb:events:k" 160)
        (fun i => (outcomes false false i).record "aimw:cb:events:k") noEvents s ∧
      (∀ i, s.tasks i = some (.ret ())) ∧ s.world.clock = 100 ∧
      RedisCircuitBreakerBackend.counted ⟨s.world.redis, twoSamples, "aimw:cb"⟩ "k" 100 = [false] ∧
      (RedisCircuitBreakerBackend.isOpen ⟨s.world.redis, twoSamples, "aimw:cb"⟩ "k" 100).1 = .ok false ∧
      ¬ CountsEvery (outcomes false false) ⟨s.world.redis, twoSamples, "aimw:cb"⟩ "k" 100 := by
  obtain ⟨s, hreached, hended, -, hworld⟩ := two_calls_reached (outcomes false false) "aimw:cb:events:k" 160 noEvents
  have hcounted : RedisCircuitBreakerBackend.counted ⟨s.world.redis, twoSamples, "aimw:cb"⟩ "k" 100 = [false] := by
    rw [hworld]
    decide +kernel
  refine ⟨s, hreached, hended, ?_, hcounted, ?_, fun h => ?_⟩
  · rw [hworld]
    rfl
  · rw [hworld]
    decide +kernel
  · have hnumber := h.number
    rw [hcounted] at hnumber
    revert hnumber
    decide

end Aimw.Reliability
