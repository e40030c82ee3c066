import Mathlib.Tactic

/-!
# Redis

The commands of a Redis database that keep sorted sets and texts with an expiry, on a clock of whole seconds.  A key
that has expired is as good as absent: `live` is what a command at time `now` sees.
-/

namespace Aimw.Lib

/-- A value, and the time from which it is gone. -/
structure Expiring (α : Type) where
  value : α
  expiresAt : Option ℤ := none

/-- What is stored under a key, as a command at time `now` sees it. -/
def live {α : Type} (entry : Option (Expiring α)) (now : ℤ) : Option (Expiring α) :=
  entry.filter fun e => e.expiresAt.all fun t => now < t

/-- Sorted sets with members in `M`, and texts; no key holds both. -/
structure Redis (M : Type) where
  zsets : String → Option (Expiring (List (M × ℤ)))
  strings : String → Option (Expiring String)

namespace Redis

variable {M : Type}

def empty : Redis M := ⟨fun _ => none, fun _ => none⟩

variable (db : Redis M) (now : ℤ) (key : String)

/-- The members of a sorted set with their scores. -/
def members : List (M × ℤ) := (live (db.zsets key) now).elim [] Expiring.value

def setMembers (entry : Option (Expiring (List (M × ℤ)))) : Redis M :=
  { db with zsets := Function.update db.zsets key entry }

/-- A member that is there gets the new score. -/
def withScore [DecidableEq M] (ms : List (M × ℤ)) (member : M) (score : ℤ) : List (M × ℤ) :=
  if member ∈ ms.map Prod.fst then ms.map fun p => if p.1 = member then (member, score) else p
  else ms ++ [(member, score)]

lemma map_fst_withScore [DecidableEq M] (ms : List (M × ℤ)) (member : M) (score : ℤ) :
    (withScore ms member score).map Prod.fst =
      if member ∈ ms.map Prod.fst then ms.map Prod.fst else ms.map Prod.fst ++ [member] := by
  unfold withScore
  split_ifs with hmem
  · rw [List.map_map]
    refine List.map_congr_left fun p _ => ?_
    by_cases hp : p.1 = member
    · simp [hp]
    · simp [hp]
  · simp

lemma mem_withScore [DecidableEq M] {ms : List (M × ℤ)} {member : M} {score : ℤ} {p : M × ℤ}
    (hp : p ∈ withScore ms member score) : p ∈ ms ∨ p = (member, score) := by
  unfold withScore at hp
  split_ifs at hp
  · obtain ⟨p', hp', rfl⟩ := List.mem_map.1 hp
    split_ifs
    · exact Or.inr rfl
    · exact Or.inl hp'
  · simpa using hp

/-- `ZADD key score member`. -/
def zadd [DecidableEq M] (member : M) (score : ℤ) : Redis M :=
  db.setMembers key (some {
    value := withScore (db.members now key) member score
    expiresAt := (live (db.zsets key) now).bind Expiring.expiresAt })

/-- `ZREMRANGEBYSCORE key min max`.  A set without members is removed. -/
def zremrangebyscore (min max : ℤ) : Redis M :=
  let kept := (db.members now key).filter fun p => !decide (min ≤ p.2 ∧ p.2 ≤ max)
  db.setMembers key (if kept = [] then none else (live (db.zsets key) now).map fun e => { e with value := kept })

/-- `ZRANGE key 0 -1`; the order of the members is left out. -/
def zrange : List M := (db.members now key).map Prod.fst

/-- `EXPIRE key seconds`, for a sorted set.  A time that is not in the future removes it. -/
def expire (seconds : ℤ) : Redis M :=
  db.setMembers key (if seconds ≤ 0 then none
    else (live (db.zsets key) now).map fun e => { e with expiresAt := some (now + seconds) })

/-- `SETEX key seconds value`; `none` is an error reply, as the expiry has to be positive. -/
def setex (seconds : ℤ) (value : String) : Option (Redis M) :=
  if seconds ≤ 0 then none
  else some { db with
    strings := Function.update db.strings key (some { value, expiresAt := some (now + seconds) }) }

/-- `TTL key`, for a text.  It is exact: times are whole seconds here, where a server that keeps milliseconds rounds to the
nearest second. -/
def ttl : ℤ :=
  match live (db.strings key) now with
  | none => -2
  | some e => e.expiresAt.elim (-1) fun t => t - now

/-! ## What later commands see -/

section Later

variable {db now key} {later : ℤ}

@[simp] lemma live_none {α : Type} : live (none : Option (Expiring α)) now = none := rfl

lemma live_eq_some_iff {α : Type} {entry : Option (Expiring α)} {e : Expiring α} :
    live entry now = some e ↔ entry = some e ∧ ∀ t ∈ e.expiresAt, now < t := by
  rw [live, Option.filter_eq_some_iff, and_congr_right_iff]
  rintro -
  cases e.expiresAt <;> simp

/-- What is gone stays gone. -/
lemma live_mono {α : Type} {entry : Option (Expiring α)} (h : now ≤ later) (hgone : live entry now = none) :
    live entry later = none := by
  cases hlater : live entry later with
  | none => rfl
  | some e =>
    obtain ⟨rfl, ht⟩ := live_eq_some_iff.1 hlater
    rw [live_eq_some_iff.2 ⟨rfl, fun t hmem => h.trans_lt (ht t hmem)⟩] at hgone
    cases hgone

/-- With another value under the key, the same is seen of it. -/
lemma live_with_value {α : Type} {e : Expiring α} (value : α) :
    live (some { e with value }) now = (live (some e) now).map fun e => { e with value } := by
  by_cases ht : e.expiresAt.all (fun t => decide (now < t)) = true
  · simp [live, Option.filter_some, ht]
  · simp [live, Option.filter_some, ht]

lemma live_with_expiry {α : Type} (value : α) (t : ℤ) :
    live (some ⟨value, some t⟩) now = if now < t then some ⟨value, some t⟩ else none := by
  simp [live, Option.filter_some]

lemma members_of_gone (h : live (db.zsets key) now = none) : db.members now key = [] := by rw [members, h]; rfl

lemma members_of_live {e : Expiring (List (M × ℤ))} (h : live (db.zsets key) now = some e) :
    db.members now key = e.value := by rw [members, h]; rfl

lemma members_setMembers (entry : Option (Expiring (List (M × ℤ)))) :
    (db.setMembers key entry).members later key = (live entry later).elim [] Expiring.value := by
  simp [members, setMembers]

lemma members_zadd [DecidableEq M] (member : M) (score : ℤ) :
    (db.zadd now key member score).members now key = withScore (db.members now key) member score := by
  have hlive : live (some {
      value := withScore (db.members now key) member score
      expiresAt := (live (db.zsets key) now).bind Expiring.expiresAt }) now = some {
      value := withScore (db.members now key) member score
      expiresAt := (live (db.zsets key) now).bind Expiring.expiresAt } := by
    refine live_eq_some_iff.2 ⟨rfl, fun t ht => ?_⟩
    obtain ⟨e, he, ht⟩ := Option.bind_eq_some_iff.1 ht
    exact (live_eq_some_iff.1 he).2 t ht
  rw [zadd, members_setMembers, hlive]
  rfl

theorem members_zremrangebyscore (min max : ℤ) (h : now ≤ later) :
    (db.zremrangebyscore now key min max).members later key =
      (db.members later key).filter fun p => !decide (min ≤ p.2 ∧ p.2 ≤ max) := by
  rw [zremrangebyscore, members_setMembers]
  cases hnow : live (db.zsets key) now with
  | none =>
    rw [members_of_gone hnow, members_of_gone (live_mono h hnow)]
    rfl
  | some e =>
    obtain ⟨hentry, -⟩ := live_eq_some_iff.1 hnow
    have hlater : db.members later key = (live (some e) later).elim [] Expiring.value := by rw [members, hentry]
    rw [members_of_live hnow, Option.map_some, hlater]
    have hkept : ∀ e' ∈ live (some e) later, e' = e := fun e' he' =>
      (Option.some.inj (live_eq_some_iff.1 he').1).symm
    split_ifs with hnil
    · cases hstays : live (some e) later with
      | none => rfl
      | some e' =>
        obtain rfl := hkept e' hstays
        exact hnil.symm
    · rw [live_with_value]
      cases hstays : live (some e) later with
      | none => rfl
      | some e' =>
        obtain rfl := hkept e' hstays
        rfl

theorem members_expire (seconds : ℤ) (h : now ≤ later) :
    (db.expire now key seconds).members later key =
      if later < now + seconds then db.members now key else [] := by
  rw [expire, members_setMembers]
  by_cases hseconds : seconds ≤ 0
  · rw [if_pos hseconds, if_neg (by omega)]
    rfl
  rw [if_neg hseconds]
  cases hnow : live (db.zsets key) now with
  | none =>
    rw [members_of_gone hnow, ite_self]
    rfl
  | some e =>
    rw [members_of_live hnow, Option.map_some, live_with_expiry]
    split_ifs <;> rfl

theorem ttl_setex {db' : Redis M} {seconds : ℤ} {value : String} (h : db.setex now key seconds value = some db') :
    0 < db'.ttl later key ↔ later < now + seconds := by
  unfold setex at h
  split_ifs at h
  obtain rfl := Option.some.inj h
  have hlive : live (Function.update db.strings key (some ⟨value, some (now + seconds)⟩) key) later =
      if later < now + seconds then some ⟨value, some (now + seconds)⟩ else none := by
    rw [Function.update_self]
    exact live_with_expiry value (now + seconds)
  rw [ttl, hlive]
  split_ifs with hlater
  · simp [hlater]
  · simpa using hlater

/-- Sorted sets and texts do not disturb each other. -/
lemma members_setex {db' : Redis M} {setKey : String} {seconds : ℤ} {value : String}
    (h : db.setex now key seconds value = some db') : db'.members later setKey = db.members later setKey := by
  unfold setex at h
  split_ifs at h
  obtain rfl := Option.some.inj h
  rfl

lemma setex_of_pos {seconds : ℤ} (value : String) (h : 0 < seconds) :
    ∃ db', db.setex now key seconds value = some db' := ⟨_, if_neg (by omega)⟩

end Later

end Redis

end Aimw.Lib
