import Aimw.Lib.Unwinding
import Aimw.Reliability.Agreement
import Mathlib.Data.List.TakeWhile

/-!
# What the in-memory breaker remembers

Calls of the in-memory backend on any keys, in the order of their times.  A key does not see the calls on other keys
(`serve_unwinds`), and what is kept of its outcomes is all that matters of them: those recorded since the key was last
reset, as far back as the window goes (`Keeps`).

* `window_exact` — `score` and `is_open` count exactly these outcomes;
* `open_period` — how long a circuit that trips stays open, and what counts afterwards.
-/

namespace Aimw.Reliability

open Lib

/-- A call on a key, at a time. -/
structure KeyCall (T : Type) where
  key : String
  time : T
  call : Call

section Keys

variable {T : Type} [LinearOrder T] [Sub T]

def InMemoryCircuitBreakerBackend.serve (b : InMemoryCircuitBreakerBackend T) (c : KeyCall T) :
    Reply × InMemoryCircuitBreakerBackend T :=
  match c.call with
  | .recordSuccess => (.recorded, b.recordSuccess c.key c.time)
  | .recordFailure => (.recorded, b.recordFailure c.key c.time)
  | .score => (b.score c.key c.time).map .score id
  | .isOpen => (b.isOpen c.key c.time).map .isOpen id

/-! ## One key among others -/

/-- The backends have the same settings and hold the same of the key. -/
structure SameAt (key : String) (b b' : InMemoryCircuitBreakerBackend T) : Prop where
  settings : b.settings = b'.settings
  events : b.events key = b'.events key
  trippedAt : b.trippedAt key = b'.trippedAt key

variable {key : String} {b b' b'' : InMemoryCircuitBreakerBackend T} {c : KeyCall T} {now : T}

omit [LinearOrder T] [Sub T] in
lemma SameAt.symm (h : SameAt key b b') : SameAt key b' b := ⟨h.settings.symm, h.events.symm, h.trippedAt.symm⟩

omit [LinearOrder T] [Sub T] in
lemma SameAt.trans (h : SameAt key b b') (h' : SameAt key b' b'') : SameAt key b b'' :=
  ⟨h.settings.trans h'.settings, h.events.trans h'.events, h.trippedAt.trans h'.trippedAt⟩

/-- A call on another key. -/
theorem serve_frame (hne : key ≠ c.key) : SameAt key (b.serve c).2 b := by
  unfold InMemoryCircuitBreakerBackend.serve
  split
  · exact ⟨rfl, (Function.update_of_ne hne ..).trans (Function.update_of_ne hne ..), rfl⟩
  · exact ⟨rfl, (Function.update_of_ne hne ..).trans (Function.update_of_ne hne ..), rfl⟩
  · exact ⟨rfl, Function.update_of_ne hne .., rfl⟩
  · obtain ⟨hsettings, hevents, htripped⟩ := b.isOpen_frame c.time hne
    exact ⟨hsettings, hevents, htripped⟩

lemma SameAt.prune (h : SameAt key b b') : SameAt key (b.prune key now) (b'.prune key now) := by
  refine ⟨h.settings, ?_, h.trippedAt⟩
  simp only [InMemoryCircuitBreakerBackend.prune, Function.update_self, h.settings, h.events]

lemma SameAt.outcomes (h : SameAt key b b') : b.outcomes key now = b'.outcomes key now := by
  rw [InMemoryCircuitBreakerBackend.outcomes, InMemoryCircuitBreakerBackend.outcomes, h.prune.events]

lemma SameAt.record (h : SameAt key b b') (success : Bool) :
    SameAt key (b.record key now success) (b'.record key now success) := by
  refine ⟨h.settings, ?_, h.trippedAt⟩
  simp only [InMemoryCircuitBreakerBackend.record, Function.update_self]
  rw [h.prune.events]

lemma SameAt.isOpen (h : SameAt key b b') : (b.isOpen key now).1 = (b'.isOpen key now).1 ∧
    SameAt key (b.isOpen key now).2 (b'.isOpen key now).2 := by
  cases ht : b.trippedAt key with
  | some t =>
    have ht' : b'.trippedAt key = some t := by rw [← h.trippedAt, ht]
    by_cases hcool : now - t < b.settings.cooldownSeconds
    · rw [b.isOpen_cooling ht hcool, b'.isOpen_cooling ht' (h.settings ▸ hcool)]
      exact ⟨rfl, h⟩
    · rw [b.isOpen_cooled ht hcool, b'.isOpen_cooled ht' (h.settings ▸ hcool)]
      refine ⟨rfl, h.settings, ?_, ?_⟩
      · simp only [Function.update_self]
      · simp only [Function.update_self]
  | none =>
    have ht' : b'.trippedAt key = none := by rw [← h.trippedAt, ht]
    have heq : tooManyFailures b'.settings (b'.outcomes key now) = tooManyFailures b.settings (b.outcomes key now) := by
      rw [h.settings, h.outcomes]
    by_cases hmany : tooManyFailures b.settings (b.outcomes key now) = .ok true
    · rw [b.isOpen_tripping ht hmany, b'.isOpen_tripping ht' (heq.trans hmany)]
      refine ⟨rfl, h.settings, h.prune.events, ?_⟩
      simp only [Function.update_self]
    · rw [b.isOpen_closed ht hmany, b'.isOpen_closed ht' (heq ▸ hmany), heq]
      exact ⟨rfl, h.prune⟩

/-- A call on the key itself. -/
theorem SameAt.serve (h : SameAt c.key b b') :
    (b.serve c).1 = (b'.serve c).1 ∧ SameAt c.key (b.serve c).2 (b'.serve c).2 := by
  unfold InMemoryCircuitBreakerBackend.serve
  split
  · exact ⟨rfl, h.record true⟩
  · exact ⟨rfl, h.record false⟩
  · refine ⟨?_, h.prune⟩
    exact congrArg (fun outcomes => Reply.score (scoreOf outcomes)) h.outcomes
  · exact ⟨congrArg Reply.isOpen h.isOpen.1, h.isOpen.2⟩

/-- Any call, on two backends that agree on a key. -/
theorem SameAt.serve_any (h : SameAt key b b') : SameAt key (b.serve c).2 (b'.serve c).2 := by
  by_cases hkey : key = c.key
  · subst hkey
    exact h.serve.2
  · exact (serve_frame hkey).trans (h.trans (serve_frame hkey).symm)

variable (key) in
/-- A key does not see the calls on other keys. -/
theorem serve_unwinds : Unwinds (InMemoryCircuitBreakerBackend.serve (T := T)) (fun c => c.key = key)
    (fun c => c.key ≠ key) (SameAt key) where
  hidden b b' c hother h := by
    have hne : key ≠ c.key := Ne.symm (by simpa using hother)
    exact (serve_frame hne).trans h
  kept b b' c _ h := h.serve_any
  answer b b' c hkey h := by
    have hkey : c.key = key := by simpa using hkey
    subst hkey
    exact h.serve.1
  disjoint c hkey := by simpa using hkey

end Keys

/-! ## What is remembered of a key -/

section Window

variable {T : Type} [LinearOrder T] [Sub T] {key : String} {b : InMemoryCircuitBreakerBackend T} {c : KeyCall T}
  {history : List (T × Bool)} {last now t : T}

/-- An `is_open` call on the key finds its cooldown over. -/
def Resets (b : InMemoryCircuitBreakerBackend T) (key : String) (now : T) : Prop :=
  ∃ t ∈ b.trippedAt key, ¬ now - t < b.settings.cooldownSeconds

instance (b : InMemoryCircuitBreakerBackend T) (key : String) (now : T) : Decidable (Resets b key now) :=
  inferInstanceAs (Decidable (∃ t ∈ b.trippedAt key, _))

/-- The outcomes of the key since its last reset, after one more call. -/
def recordedBy (key : String) (b : InMemoryCircuitBreakerBackend T) (c : KeyCall T) (history : List (T × Bool)) :
    List (T × Bool) :=
  if c.key ≠ key then history
  else match c.call with
  | .recordSuccess => history ++ [(c.time, true)]
  | .recordFailure => history ++ [(c.time, false)]
  | .score => history
  | .isOpen => if Resets b key c.time then [] else history

/-- The outcomes recorded for the key since its last reset in a run, after the `history` before it. -/
def sinceReset (key : String) : InMemoryCircuitBreakerBackend T → List (T × Bool) → List (KeyCall T) → List (T × Bool)
  | _, history, [] => history
  | b, history, c :: calls => sinceReset key (b.serve c).2 (recordedBy key b c history) calls

lemma sinceReset_concat (calls : List (KeyCall T)) (c : KeyCall T) (history : List (T × Bool)) :
    sinceReset key b history (calls ++ [c]) =
      recordedBy key (runFrom InMemoryCircuitBreakerBackend.serve b calls) c (sinceReset key b history calls) := by
  induction calls generalizing b history with
  | nil => rfl
  | cons d calls ih => exact ih _

/-- What the backend holds of the key is what was recorded, but for some that are older than the window at `last`. -/
structure Keeps (key : String) (b : InMemoryCircuitBreakerBackend T) (history : List (T × Bool)) (last : T) : Prop where
  kept : ∃ dropped, history = dropped ++ b.events key ∧ ∀ e ∈ dropped, e.1 < last - b.settings.windowSeconds
  sorted : (history.map Prod.fst).Pairwise (· ≤ ·)
  past : ∀ e ∈ history, e.1 ≤ last

lemma Keeps.congr {b' : InMemoryCircuitBreakerBackend T} (h : Keeps key b history last) (hsame : SameAt key b' b) :
    Keeps key b' history last := by
  refine ⟨?_, h.sorted, h.past⟩
  rw [hsame.events, hsame.settings]
  exact h.kept

lemma keeps_nil (h : b.events key = []) (now : T) : Keeps key b [] now :=
  ⟨⟨[], by simp [h], by simp⟩, by simp, by simp⟩

lemma settings_serve : (b.serve c).2.settings = b.settings := by
  have hother : c.key ++ "'" ≠ c.key := by simp
  exact (serve_frame hother).settings

lemma settings_run (calls : List (KeyCall T)) :
    (runFrom InMemoryCircuitBreakerBackend.serve b calls).settings = b.settings := by
  refine runFrom_induction (I := fun b' : InMemoryCircuitBreakerBackend T => b'.settings = b.settings)
    (P := fun _ => True) ?_ rfl (by simp)
  intro b' c _ h
  exact settings_serve.trans h

lemma isOpen_answer (ht : b.trippedAt key = none) :
    (b.isOpen key now).1 = tooManyFailures b.settings (b.outcomes key now) := by
  by_cases hmany : tooManyFailures b.settings (b.outcomes key now) = .ok true
  · rw [b.isOpen_tripping ht hmany, hmany]
  · rw [b.isOpen_closed ht hmany]

/-- The backend after some calls on a new one. -/
abbrev afterCalls (settings : Settings T) (calls : List (KeyCall T)) : InMemoryCircuitBreakerBackend T :=
  runFrom InMemoryCircuitBreakerBackend.serve { settings } calls

/-! ## Open circuits -/

/-- The call does not find the cooldown over that began at `t`. -/
def WithinCooldown (settings : Settings T) (key : String) (t : T) (c : KeyCall T) : Prop :=
  c.key = key → c.call = .isOpen → c.time - t < settings.cooldownSeconds

/-- A circuit stays open as long as no call finds its cooldown over. -/
lemma trippedAt_serve (ht : b.trippedAt key = some t) (hcall : WithinCooldown b.settings key t c) :
    (b.serve c).2.trippedAt key = some t := by
  by_cases hkey : key = c.key
  swap
  · rw [(serve_frame hkey).trippedAt, ht]
  subst hkey
  unfold InMemoryCircuitBreakerBackend.serve
  cases hc : c.call with
  | recordSuccess => exact ht
  | recordFailure => exact ht
  | score => exact ht
  | isOpen =>
    simp only [Prod.map_snd, id]
    rw [b.isOpen_cooling ht (hcall rfl hc)]
    exact ht

lemma trippedAt_run {calls : List (KeyCall T)} (ht : b.trippedAt key = some t)
    (hcalls : ∀ c ∈ calls, WithinCooldown b.settings key t c) :
    (runFrom InMemoryCircuitBreakerBackend.serve b calls).trippedAt key = some t := by
  refine (runFrom_induction (P := WithinCooldown b.settings key t)
    (I := fun b' : InMemoryCircuitBreakerBackend T => b'.settings = b.settings ∧ b'.trippedAt key = some t) ?_ ⟨rfl, ht⟩ hcalls).2
  rintro b' c hcall ⟨hsettings, ht'⟩
  exact ⟨settings_serve.trans hsettings, trippedAt_serve ht' (hsettings.symm ▸ hcall)⟩

lemma trippedAt_of_trips (ht : b.trippedAt key = none) (htrips : (b.isOpen key t).1 = .ok true) :
    (b.isOpen key t).2.trippedAt key = some t ∧ (b.isOpen key t).2.settings = b.settings := by
  have hmany : tooManyFailures b.settings (b.outcomes key t) = .ok true := by rw [← isOpen_answer ht, htrips]
  rw [b.isOpen_tripping ht hmany]
  refine ⟨?_, rfl⟩
  simp only [Function.update_self]

/-- The answers to the calls on the key. -/
def answersOn (key : String) (b : InMemoryCircuitBreakerBackend T) (calls : List (KeyCall T)) : List (KeyCall T × Reply) :=
  observations InMemoryCircuitBreakerBackend.serve (fun c => c.key = key) b calls

/-- A circuit is open for the cooldown after it has tripped. -/
lemma isOpen_of_trippedAt {calls : List (KeyCall T)} (ht : b.trippedAt key = some t)
    (hcalls : ∀ c ∈ calls, WithinCooldown b.settings key t c) (hcool : now - t < b.settings.cooldownSeconds) :
    ((runFrom InMemoryCircuitBreakerBackend.serve b calls).isOpen key now).1 = .ok true := by
  rw [InMemoryCircuitBreakerBackend.isOpen_cooling (trippedAt_run ht hcalls) (by rwa [settings_run])]

/-- The call that finds the cooldown over closes the circuit and leaves nothing of the key behind. -/
lemma isOpen_of_cooled {calls : List (KeyCall T)} (ht : b.trippedAt key = some t)
    (hcalls : ∀ c ∈ calls, WithinCooldown b.settings key t c) (hcool : ¬ now - t < b.settings.cooldownSeconds) :
    ((runFrom InMemoryCircuitBreakerBackend.serve b calls).isOpen key now).1 = .ok false ∧
      SameAt key ((runFrom InMemoryCircuitBreakerBackend.serve b calls).isOpen key now).2 { settings := b.settings } := by
  rw [InMemoryCircuitBreakerBackend.isOpen_cooled (trippedAt_run ht hcalls) (by rwa [settings_run])]
  refine ⟨rfl, settings_run calls, ?_, ?_⟩
  · simp only [Function.update_self]
  · simp only [Function.update_self]

end Window

section Window

variable {T : Type} [AddCommGroup T] [LinearOrder T] [IsOrderedAddMonoid T] {key : String}
  {b : InMemoryCircuitBreakerBackend T} {c : KeyCall T} {history : List (T × Bool)} {last now : T}

theorem Keeps.later (h : Keeps key b history last) (hnow : last ≤ now) : Keeps key b history now := by
  obtain ⟨dropped, heq, hold⟩ := h.kept
  refine ⟨⟨dropped, heq, ?_⟩, h.sorted, ?_⟩
  · intro e he
    exact (hold e he).trans_le (sub_le_sub_right hnow _)
  · intro e he
    exact (h.past e he).trans hnow

/-- **The window is exact.**  After `_prune`, the backend holds what was recorded in the window. -/
theorem Keeps.events_prune (h : Keeps key b history last) (hnow : last ≤ now) :
    (b.prune key now).events key = history.filter fun e => now - b.settings.windowSeconds ≤ e.1 := by
  obtain ⟨dropped, heq, hold⟩ := (h.later hnow).kept
  have hsorted : ((b.events key).map Prod.fst).Pairwise (· ≤ ·) := by
    have hall := h.sorted
    rw [heq, List.map_append] at hall
    exact (List.pairwise_append.1 hall).2.1
  have hdropped : (dropped.filter fun e => now - b.settings.windowSeconds ≤ e.1) = [] := by
    refine List.filter_eq_nil_iff.2 fun e he => ?_
    simpa only [decide_eq_true_eq, not_le] using hold e he
  rw [heq, List.filter_append, hdropped, List.nil_append, ← dropWhile_lt_eq_filter _ hsorted]
  simp only [InMemoryCircuitBreakerBackend.prune, Function.update_self]

theorem Keeps.prune (h : Keeps key b history last) (hnow : last ≤ now) : Keeps key (b.prune key now) history now := by
  refine ⟨?_, h.sorted, (h.later hnow).past⟩
  refine ⟨history.takeWhile fun e => e.1 < now - b.settings.windowSeconds, ?_, ?_⟩
  · rw [h.events_prune hnow, ← dropWhile_lt_eq_filter _ h.sorted, List.takeWhile_append_dropWhile]
  · intro e he
    have hlt := List.mem_takeWhile_imp he
    exact of_decide_eq_true hlt

theorem Keeps.record (h : Keeps key b history last) (hnow : last ≤ now) (success : Bool) :
    Keeps key (b.record key now success) (history ++ [(now, success)]) now := by
  obtain ⟨dropped, heq, hold⟩ := (h.prune hnow).kept
  have hpast := (h.later hnow).past
  refine ⟨⟨dropped, ?_, hold⟩, ?_, ?_⟩
  · simp only [InMemoryCircuitBreakerBackend.record, Function.update_self]
    rw [heq, List.append_assoc]
  · rw [List.map_append, List.pairwise_append]
    refine ⟨h.sorted, by simp, ?_⟩
    intro t ht t' ht'
    obtain ⟨e, he, rfl⟩ := List.mem_map.1 ht
    obtain rfl : t' = now := by simpa using ht'
    exact hpast e he
  · intro e he
    rcases List.mem_append.1 he with he | he
    · exact hpast e he
    · obtain rfl := List.mem_singleton.1 he
      exact le_rfl

theorem Keeps.isOpen (h : Keeps key b history last) (hnow : last ≤ now) :
    Keeps key (b.isOpen key now).2 (if Resets b key now then [] else history) now := by
  cases ht : b.trippedAt key with
  | some t =>
    by_cases hcool : now - t < b.settings.cooldownSeconds
    · have hreset : ¬ Resets b key now := by simpa [Resets, ht] using hcool
      rw [b.isOpen_cooling ht hcool, if_neg hreset]
      exact h.later hnow
    · have hreset : Resets b key now := by simpa [Resets, ht] using hcool
      rw [b.isOpen_cooled ht hcool, if_pos hreset]
      apply keeps_nil
      simp only [Function.update_self]
  | none =>
    have hreset : ¬ Resets b key now := by simp [Resets, ht]
    rw [if_neg hreset]
    have hkeeps := h.prune hnow
    by_cases hmany : tooManyFailures b.settings (b.outcomes key now) = .ok true
    · rw [b.isOpen_tripping ht hmany]
      exact ⟨hkeeps.kept, hkeeps.sorted, hkeeps.past⟩
    · rw [b.isOpen_closed ht hmany]
      exact hkeeps

/-- What one call keeps. -/
theorem Keeps.serve (h : Keeps key b history last) (hnow : last ≤ c.time) :
    Keeps key (b.serve c).2 (recordedBy key b c history) c.time := by
  by_cases hkey : c.key = key
  swap
  · rw [recordedBy, if_pos hkey]
    exact (h.later hnow).congr (serve_frame (Ne.symm hkey))
  subst hkey
  rw [recordedBy, if_neg (not_not.2 rfl)]
  unfold InMemoryCircuitBreakerBackend.serve
  cases c.call with
  | recordSuccess => exact h.record hnow true
  | recordFailure => exact h.record hnow false
  | score => exact h.prune hnow
  | isOpen => exact h.isOpen hnow

/-- What a run keeps. -/
theorem keeps_run (settings : Settings T) {calls : List (KeyCall T)} (hsorted : calls.Pairwise fun c d => c.time ≤ d.time)
    (hnow : ∀ c ∈ calls, c.time ≤ now) :
    Keeps key (runFrom InMemoryCircuitBreakerBackend.serve { settings } calls) (sinceReset key { settings } [] calls) now := by
  induction calls using List.reverseRecOn generalizing now with
  | nil => exact keeps_nil rfl now
  | append_singleton calls c ih =>
    obtain ⟨hbefore, -, hle⟩ := List.pairwise_append.1 hsorted
    have hkeeps : Keeps key (runFrom InMemoryCircuitBreakerBackend.serve { settings } calls)
        (sinceReset key { settings } [] calls) c.time :=
      ih hbefore fun d hd => hle d hd c (List.mem_singleton_self c)
    rw [runFrom_concat, sinceReset_concat]
    exact (hkeeps.serve le_rfl).later (hnow c (by simp))

/-- The share of failures, 0 where there are no outcomes. -/
def failureShare (outcomes : List Bool) : ℚ :=
  if outcomes = [] then 0 else (outcomes.count false : ℚ) / outcomes.length

lemma scoreOf_eq (outcomes : List Bool) : scoreOf outcomes = .ok (failureShare outcomes) := by
  unfold scoreOf failureShare
  by_cases hnil : outcomes = []
  · rw [if_pos hnil, if_pos hnil]
  · rw [if_neg hnil, if_neg hnil, failureRate, if_neg hnil]

lemma tooManyFailures_eq {T : Type} {settings : Settings T} (hmin : 1 ≤ settings.minSamples) (outcomes : List Bool) :
    tooManyFailures settings outcomes =
      .ok (decide (settings.minSamples ≤ outcomes.length ∧ settings.failureThreshold ≤ failureShare outcomes)) := by
  unfold tooManyFailures
  by_cases hfew : (outcomes.length : ℤ) < settings.minSamples
  · have hnot : ¬ (settings.minSamples ≤ outcomes.length ∧ settings.failureThreshold ≤ failureShare outcomes) := by
      rintro ⟨hmany, -⟩
      omega
    rw [if_pos hfew, decide_eq_false hnot]
  · have hne : outcomes ≠ [] := by
      rintro rfl
      simp only [List.length_nil, Nat.cast_zero] at hfew
      omega
    have hmany : settings.minSamples ≤ outcomes.length := by omega
    rw [if_neg hfew, failureRate, if_neg hne, failureShare, if_neg hne]
    simp only [Except.map, hmany, true_and]

/-- The outcomes of a run that were recorded for the key since its last reset, as far back as the window goes. -/
def inWindow (settings : Settings T) (key : String) (calls : List (KeyCall T)) (now : T) : List Bool :=
  ((sinceReset key { settings } [] calls).filter fun e => now - settings.windowSeconds ≤ e.1).map Prod.snd

/-- **The sliding window is exact**, after any calls on any keys. -/
theorem window_exact (settings : Settings T) (hmin : 1 ≤ settings.minSamples) (calls : List (KeyCall T))
    (hsorted : calls.Pairwise fun c d => c.time ≤ d.time) (key : String) (now : T) (hnow : ∀ c ∈ calls, c.time ≤ now) :
    ((runFrom InMemoryCircuitBreakerBackend.serve { settings } calls).score key now).1 =
        .ok (failureShare (inWindow settings key calls now)) ∧
      ((runFrom InMemoryCircuitBreakerBackend.serve { settings } calls).trippedAt key = none →
        ((runFrom InMemoryCircuitBreakerBackend.serve { settings } calls).isOpen key now).1 =
          .ok (decide (settings.minSamples ≤ (inWindow settings key calls now).length ∧
            settings.failureThreshold ≤ failureShare (inWindow settings key calls now)))) := by
  set b := runFrom InMemoryCircuitBreakerBackend.serve { settings } calls with hb
  have hsettings : b.settings = settings := settings_run calls
  have houtcomes : b.outcomes key now = inWindow settings key calls now := by
    rw [InMemoryCircuitBreakerBackend.outcomes, (keeps_run settings hsorted hnow).events_prune le_rfl, ← hb, hsettings]
    rfl
  constructor
  · rw [← houtcomes, ← scoreOf_eq]
    rfl
  · intro ht
    rw [isOpen_answer ht, houtcomes, hsettings, tooManyFailures_eq hmin]

/-- One failure is enough to trip, for half a minute. -/
def touchySettings : Settings ℤ where
  windowSeconds := 60
  failureThreshold := 1 / 2
  minSamples := 1
  cooldownSeconds := 30

/-- A failure that is too old does not count, and neither does one of another key. -/
theorem window_exact_oldFailure :
    ((afterCalls touchySettings [⟨"k", 0, .recordFailure⟩, ⟨"j", 1, .recordFailure⟩, ⟨"k", 50, .recordSuccess⟩]).score
      "k" 61).1 = .ok 0 := by
  have hscore := (window_exact touchySettings (by decide)
    [⟨"k", 0, .recordFailure⟩, ⟨"j", 1, .recordFailure⟩, ⟨"k", 50, .recordSuccess⟩] (by simp) "k" 61 (by simp)).1
  have hwindow : inWindow touchySettings "k"
      [⟨"k", 0, .recordFailure⟩, ⟨"j", 1, .recordFailure⟩, ⟨"k", 50, .recordSuccess⟩] 61 = [true] := by decide
  rw [hwindow] at hscore
  simpa [failureShare] using hscore

/-- **The open period.**  A circuit that trips at `t` is open for the cooldown; the first `is_open` after it closes the
circuit, and from then on the key is answered as by a new backend that has seen nothing but the later calls on it. -/
theorem open_period (settings : Settings T) (before between : List (KeyCall T)) (key : String) (t now : T)
    (hclosed : (afterCalls settings before).trippedAt key = none)
    (htrips : ((afterCalls settings before).isOpen key t).1 = .ok true) (hnow : ∀ c ∈ between, c.time ≤ now) :
    (now - t < settings.cooldownSeconds →
        ((afterCalls settings (before ++ ⟨key, t, .isOpen⟩ :: between)).isOpen key now).1 = .ok true) ∧
      (¬ now - t < settings.cooldownSeconds → (∀ c ∈ between, WithinCooldown settings key t c) →
        ((afterCalls settings (before ++ ⟨key, t, .isOpen⟩ :: between)).isOpen key now).1 = .ok false ∧
        ∀ later, answersOn key (afterCalls settings (before ++ ⟨key, t, .isOpen⟩ :: between ++ [⟨key, now, .isOpen⟩])) later =
          answersOn key { settings } (later.filter fun c => c.key = key)) := by
  have hrun : afterCalls settings (before ++ ⟨key, t, .isOpen⟩ :: between) =
      runFrom InMemoryCircuitBreakerBackend.serve ((afterCalls settings before).isOpen key t).2 between :=
    runFrom_append ..
  obtain ⟨ht, hsettings⟩ := trippedAt_of_trips hclosed htrips
  have hsettings : ((afterCalls settings before).isOpen key t).2.settings = settings :=
    hsettings.trans (settings_run before)
  constructor
  · intro hcool
    have hbetween : ∀ c ∈ between, WithinCooldown settings key t c := by
      intro c hc _ _
      exact (sub_le_sub_right (hnow c hc) t).trans_lt hcool
    rw [hrun]
    exact isOpen_of_trippedAt ht (by rwa [hsettings]) (by rwa [hsettings])
  · intro hcool hbetween
    obtain ⟨hanswer, hsame⟩ := isOpen_of_cooled ht (by rwa [hsettings]) (by rwa [hsettings])
    rw [hsettings, ← hrun] at hsame
    rw [← hrun] at hanswer
    refine ⟨hanswer, fun later => ?_⟩
    have hclosing : afterCalls settings (before ++ ⟨key, t, .isOpen⟩ :: between ++ [⟨key, now, .isOpen⟩]) =
        ((afterCalls settings (before ++ ⟨key, t, .isOpen⟩ :: between)).isOpen key now).2 := runFrom_concat ..
    have hobservations := (serve_unwinds key).observations hsame later
    rw [hclosing]
    simpa [answersOn] using hobservations

/-- A circuit that trips at 1 is still open at 30, and at 31 it is closed. -/
theorem open_period_halfMinute :
    ((afterCalls touchySettings [⟨"k", 0, .recordFailure⟩, ⟨"k", 1, .isOpen⟩, ⟨"k", 2, .recordFailure⟩]).isOpen
        "k" 30).1 = .ok true ∧
      ((afterCalls touchySettings [⟨"k", 0, .recordFailure⟩, ⟨"k", 1, .isOpen⟩, ⟨"k", 2, .recordFailure⟩]).isOpen
        "k" 31).1 = .ok false := by
  have houtcomes : (afterCalls touchySettings [⟨"k", 0, .recordFailure⟩]).outcomes "k" 1 = [false] := by decide
  have htrips : ((afterCalls touchySettings [⟨"k", 0, .recordFailure⟩]).isOpen "k" 1).1 = .ok true := by
    rw [isOpen_answer rfl, settings_run, houtcomes]
    exact tooManyFailures_of_failed (by decide) (by norm_num [touchySettings]) (by simp) (by decide)
  have hperiod := fun now => open_period touchySettings [⟨"k", 0, .recordFailure⟩] [⟨"k", 2, .recordFailure⟩] "k" 1 now
    rfl htrips
  constructor
  · exact (hperiod 30 (by simp)).1 (by decide)
  · exact ((hperiod 31 (by simp)).2 (by decide) (by simp [WithinCooldown])).1

end Window

end Aimw.Reliability
