import Aimw.Lib.Coroutine
import Mathlib.Logic.Function.Basic

/-!
# Tasks on an event loop

Coroutines that share a world and take turns.  A task goes on until it performs a call at which it can be suspended;
only then can another one start or go on.  Between any two calls the outside can move the world as well.

* `Advances p tr p'` — the program `p`, answered along `tr`, has come to `p'` (`Advances.runs`, `Advances.of_call`);
* `Loop`, `Reached` — the tasks, what they have done so far, and the states of the loop;
* `Reached.advances` — what a task has done is a run of its own program;
* `Reached.since` — what held after a moment still holds;
* `Guarantees`, `Reached.invariant` — what the tasks keep, each relying on the answers that it gets;
* `Reached.finish` — a task that goes on to its end.
-/

namespace Aimw.Lib.Coro

variable {Q : Type} {A : Q → Type} {ε α ι W : Type}

/-! ## Programs on their way -/

/-- What a program that has ended came to. -/
def result? : Coro Q A ε α → Option (Except ε α)
  | ret a => some (.ok a)
  | raise e => some (.error e)
  | call _ _ => none

lemma eq_ret_of_result {p : Coro Q A ε α} {a : α} (h : p.result? = some (.ok a)) : p = .ret a := by
  cases p with
  | ret b => rw [Except.ok.inj (Option.some.inj h)]
  | raise e => cases Option.some.inj h
  | call q k => cases h

inductive Advances (p : Coro Q A ε α) : List ((q : Q) × A q) → Coro Q A ε α → Prop
  | nil : Advances p [] p
  | snoc {tr : List ((q : Q) × A q)} {q : Q} {k : A q → Coro Q A ε α} (a : A q) :
      Advances p tr (.call q k) → Advances p (tr ++ [⟨q, a⟩]) (k a)

/-- An environment in which anything can be answered. -/
def Anything : Unit → (q : Q) → A q → Unit → Prop := fun _ _ _ _ => True

theorem exists_runs [∀ q, Nonempty (A q)] (p : Coro Q A ε α) : ∃ tr r, Runs Anything () p tr r () :=
  ⟨_, _, runs_run (f := fun q w => (Classical.arbitrary (A q), w)) (fun _ _ => trivial) p ()⟩

variable {p p' : Coro Q A ε α} {tr tr' : List ((q : Q) × A q)} {r : Except ε α}

theorem Advances.runs (h : Advances p tr p') (hrest : Runs Anything () p' tr' r ()) :
    Runs Anything () p (tr ++ tr') r () := by
  induction h generalizing tr' with
  | nil => exact hrest
  | snoc a _ ih =>
    rw [List.append_assoc]
    exact ih (.call trivial hrest)

/-- A program that has ended has done a run. -/
theorem Advances.runs_of_result (h : Advances p tr p') (hr : p'.result? = some r) : Runs Anything () p tr r () := by
  rw [← List.append_nil tr]
  apply h.runs
  cases p' with
  | ret a =>
    obtain rfl := Option.some.inj hr
    exact .ret () a
  | raise e =>
    obtain rfl := Option.some.inj hr
    exact .raise () e
  | call => cases hr

/-- A program that starts with a call waits for it, or goes on with what came back. -/
theorem Advances.of_call {q : Q} {k : A q → Coro Q A ε α} (h : Advances (.call q k) tr p') :
    (tr = [] ∧ p' = .call q k) ∨ ∃ a tr', tr = ⟨q, a⟩ :: tr' ∧ Advances (k a) tr' p' := by
  induction h with
  | nil => exact Or.inl ⟨rfl, rfl⟩
  | snoc a _ ih =>
    rcases ih with ⟨rfl, heq⟩ | ⟨b, tr', rfl, hrest⟩
    · cases heq
      exact Or.inr ⟨a, [], rfl, .nil⟩
    · exact Or.inr ⟨b, _, rfl, .snoc a hrest⟩

/-- A program that has raised does nothing more. -/
lemma Advances.of_raise {e : ε} (h : Advances (.raise e : Coro Q A ε α) tr p') : tr = [] ∧ p' = .raise e := by
  induction h with
  | nil => exact ⟨rfl, rfl⟩
  | snoc a _ ih => cases ih.2

/-- Whatever comes back from its next call, a program can end. -/
theorem Advances.exists_runs [∀ q, Nonempty (A q)] {q : Q} {k : A q → Coro Q A ε α} (h : Advances p tr (.call q k))
    (a : A q) : ∃ tr' r, Runs Anything () p (tr ++ ⟨q, a⟩ :: tr') r () := by
  obtain ⟨tr', r, hrest⟩ := Coro.exists_runs (k a)
  exact ⟨tr', r, h.runs (.call trivial hrest)⟩

/-! ## The loop -/

/-- A call of a task that has come back, with the world before and after. -/
structure Moment (ι W Q : Type) (A : Q → Type) where
  task : ι
  event : (q : Q) × A q
  before : W
  after : W

/-- The world, what is left of the program of each task that has been started, and what has happened so far. -/
structure Loop (ι W Q : Type) (A : Q → Type) (ε α : Type) where
  world : W
  tasks : ι → Option (Coro Q A ε α) := fun _ => none
  past : List (Moment ι W Q A) := []

/-- The task is suspended or has ended. -/
def AtRest (suspends : Q → Bool) : Coro Q A ε α → Prop
  | call q _ => suspends q = true
  | _ => True

variable [DecidableEq ι]

/-- What the task `i` has done. -/
def own (i : ι) (past : List (Moment ι W Q A)) : List ((q : Q) × A q) :=
  past.filterMap fun m => if m.task = i then some m.event else none

/-- The states of a loop that starts in `world`, with the programs `prog`, an environment `E`, and an outside that
moves the world. -/
inductive Reached (suspends : Q → Bool) (E : W → (q : Q) → A q → W → Prop) (outside : W → W → Prop)
    (prog : ι → Coro Q A ε α) (world : W) : Loop ι W Q A ε α → Prop
  | init : Reached suspends E outside prog world { world }
  | start {s : Loop ι W Q A ε α} (i : ι) : Reached suspends E outside prog world s → s.tasks i = none →
      (∀ j p, s.tasks j = some p → AtRest suspends p) →
      Reached suspends E outside prog world { s with tasks := Function.update s.tasks i (some (prog i)) }
  | resume {s : Loop ι W Q A ε α} {i : ι} {q : Q} {k : A q → Coro Q A ε α} {a : A q} {w : W} :
      Reached suspends E outside prog world s → s.tasks i = some (.call q k) →
      (∀ j p, j ≠ i → s.tasks j = some p → AtRest suspends p) → E s.world q a w →
      Reached suspends E outside prog world {
        world := w
        tasks := Function.update s.tasks i (some (k a))
        past := s.past ++ [⟨i, ⟨q, a⟩, s.world, w⟩] }
  | moved {s : Loop ι W Q A ε α} {w : W} : Reached suspends E outside prog world s → outside s.world w →
      Reached suspends E outside prog world { s with world := w }

variable {suspends : Q → Bool} {E : W → (q : Q) → A q → W → Prop} {outside : W → W → Prop} {prog : ι → Coro Q A ε α}
  {world : W} {s : Loop ι W Q A ε α} {i j : ι}

@[simp] lemma own_append (past past' : List (Moment ι W Q A)) : own i (past ++ past') = own i past ++ own i past' :=
  List.filterMap_append

lemma own_cons (m : Moment ι W Q A) (past : List (Moment ι W Q A)) :
    own i (m :: past) = (if m.task = i then [m.event] else []) ++ own i past := by
  rw [own, List.filterMap_cons]
  split_ifs <;> rfl

lemma own_self (e : (q : Q) × A q) (w w' : W) : own i [⟨i, e, w, w'⟩] = [e] := by simp [own]

lemma own_of_ne (h : j ≠ i) (e : (q : Q) × A q) (w w' : W) : own i [⟨j, e, w, w'⟩] = [] := by simp [own, h]

/-- The last thing that happened is the last that its task has done. -/
lemma getLast?_own {past : List (Moment ι W Q A)} {m : Moment ι W Q A} (h : past.getLast? = some m) :
    (own m.task past).getLast? = some m.event := by
  rw [← List.dropLast_append_getLast? m h, own_append, own_cons, if_pos rfl]
  simp [own]

lemma mem_own {past : List (Moment ι W Q A)} {e : (q : Q) × A q} : e ∈ own i past ↔ ∃ m ∈ past, m.task = i ∧ m.event = e := by
  simp [own, List.mem_filterMap]

/-- What is seen of the past, with the tasks that did it. -/
def seen {β : Type} (f : (q : Q) × A q → Option β) (past : List (Moment ι W Q A)) : List (ι × β) :=
  past.filterMap fun m => (f m.event).map fun b => (m.task, b)

omit [DecidableEq ι] in
lemma seen_append {β : Type} (f : (q : Q) × A q → Option β) (past past' : List (Moment ι W Q A)) :
    seen f (past ++ past') = seen f past ++ seen f past' := List.filterMap_append

/-- What is seen of a task is seen in what it has done. -/
lemma seen_own {β : Type} (f : (q : Q) × A q → Option β) (i : ι) (past : List (Moment ι W Q A)) :
    (seen f past).filter (fun x => x.1 = i) = ((own i past).filterMap f).map fun b => (i, b) := by
  induction past with
  | nil => rfl
  | cons m past ih =>
    rw [← List.singleton_append, seen_append, List.filter_append, ih, own_append, List.filterMap_append, List.map_append]
    congr 1
    by_cases hm : m.task = i
    · cases hf : f m.event <;> simp [seen, own, hm, hf]
    · cases hf : f m.event <;> simp [seen, own, hm, hf]

/-- The past, split where what a task has done is split. -/
lemma own_eq_append {past : List (Moment ι W Q A)} {es es' : List ((q : Q) × A q)} (h : own i past = es ++ es') :
    ∃ earlier later, past = earlier ++ later ∧ own i earlier = es ∧ own i later = es' := List.filterMap_eq_append_iff.1 h

/-- The first thing that a task has done, among all that happened. -/
lemma own_eq_cons {past : List (Moment ι W Q A)} {e : (q : Q) × A q} {es : List ((q : Q) × A q)}
    (h : own i past = e :: es) : ∃ earlier m later, past = earlier ++ m :: later ∧ own i earlier = [] ∧ m.task = i ∧
      m.event = e ∧ own i later = es := by
  obtain ⟨earlier, m, later, hpast, hearlier, hm, hlater⟩ := List.filterMap_eq_cons_iff.1 h
  split_ifs at hm with htask
  exact ⟨earlier, m, later, hpast, List.filterMap_eq_nil_iff.2 hearlier, htask, Option.some.inj hm, hlater⟩

omit [DecidableEq ι] in
/-- Beside the only task there is none. -/
lemma atRest_alone [Subsingleton ι] (tasks : ι → Option (Coro Q A ε α)) :
    ∀ j p, j ≠ i → tasks j = some p → AtRest suspends p :=
  fun j _ hj => absurd (Subsingleton.elim j i) hj

/-- A task has done a part of its own program, or nothing. -/
theorem Reached.own_advances (h : Reached suspends E outside prog world s) :
    (∀ p, s.tasks i = some p → Advances (prog i) (own i s.past) p) ∧ (s.tasks i = none → own i s.past = []) := by
  induction h with
  | init =>
    refine ⟨fun p hp => ?_, fun _ => rfl⟩
    cases hp
  | @start s j _ hnew _ ih =>
    by_cases hij : i = j
    · subst hij
      simp only [Function.update_self]
      refine ⟨fun p hp => ?_, fun hnone => by cases hnone⟩
      obtain rfl := Option.some.inj hp
      rw [ih.2 hnew]
      exact .nil
    · simpa only [Function.update_of_ne hij] using ih
  | @resume s j q k a w _ hj _ _ ih =>
    by_cases hij : j = i
    · subst hij
      simp only [Function.update_self, own_append, own_self]
      refine ⟨fun p hp => ?_, fun hnone => by cases hnone⟩
      obtain rfl := Option.some.inj hp
      exact .snoc a (ih.1 _ hj)
    · simpa only [Function.update_of_ne (Ne.symm hij), own_append, own_of_ne hij, List.append_nil] using ih
  | moved _ _ ih => exact ih

theorem Reached.advances (h : Reached suspends E outside prog world s) (hp : s.tasks i = some p) :
    Advances (prog i) (own i s.past) p := h.own_advances.1 p hp

/-- A task that has done something is on its way. -/
lemma Reached.advances_of_mem (h : Reached suspends E outside prog world s) {e : (q : Q) × A q} (he : e ∈ own i s.past) :
    ∃ p, s.tasks i = some p ∧ Advances (prog i) (own i s.past) p := by
  cases hp : s.tasks i with
  | none =>
    rw [h.own_advances.2 hp] at he
    cases he
  | some p => exact ⟨p, rfl, h.advances hp⟩

/-- What happened was what the environment gives. -/
theorem Reached.answered (h : Reached suspends E outside prog world s) :
    ∀ m ∈ s.past, E m.before m.event.1 m.event.2 m.after := by
  induction h with
  | init => simp
  | start _ _ _ _ ih => exact ih
  | resume _ _ _ hE ih => exact List.forall_mem_append.2 ⟨ih, by simpa using hE⟩
  | moved _ _ ih => exact ih

/-- What no answer and nothing outside ends has always held. -/
theorem Reached.always {I : W → Prop} (h : Reached suspends E outside prog world s) (hworld : I world)
    (hE : ∀ w q a w', I w → E w q a w' → I w') (houtside : ∀ w w', I w → outside w w' → I w') :
    I s.world ∧ ∀ m ∈ s.past, I m.before := by
  induction h with
  | init => exact ⟨hworld, by simp⟩
  | start _ _ _ _ ih => exact ih
  | resume _ _ _ hcall ih =>
    refine ⟨hE _ _ _ _ ih.1 hcall, List.forall_mem_append.2 ⟨ih.2, ?_⟩⟩
    simpa using ih.1
  | moved _ hout ih => exact ⟨houtside _ _ ih.1 hout, ih.2⟩

/-- What holds after something that happened still holds, if nothing that happened later, and nothing outside, ends
it. -/
theorem Reached.since {I : W → Prop} (h : Reached suspends E outside prog world s)
    (houtside : ∀ w w', outside w w' → I w → I w') {earlier later : List (Moment ι W Q A)} {m : Moment ι W Q A}
    (hpast : s.past = earlier ++ m :: later) (hm : I m.after) (hlater : ∀ m' ∈ later, I m'.before → I m'.after) :
    I s.world := by
  induction h generalizing later with
  | init => simp at hpast
  | start _ _ _ _ ih => exact ih hpast hlater
  | @resume s j q k a w _ _ _ _ ih =>
    rcases List.eq_nil_or_concat later with rfl | ⟨later', last, rfl⟩
    · obtain ⟨-, hlast⟩ := List.append_inj' hpast rfl
      rwa [← List.singleton_inj.1 hlast] at hm
    · rw [List.concat_eq_append, ← List.cons_append, ← List.append_assoc] at hpast
      obtain ⟨hbefore, hlast⟩ := List.append_inj' hpast rfl
      rw [List.concat_eq_append] at hlater
      have hkept := hlater last (by simp)
      rw [← List.singleton_inj.1 hlast] at hkept
      exact hkept (ih hbefore fun m' hm' => hlater m' (List.mem_append_left _ hm'))
  | moved _ hout ih => exact houtside _ _ hout (ih hpast hlater)

/-- When something happened, the loop was in a state of its own. -/
theorem Reached.before (h : Reached suspends E outside prog world s) {earlier later : List (Moment ι W Q A)}
    {m : Moment ι W Q A} (hpast : s.past = earlier ++ m :: later) :
    ∃ tasks, Reached suspends E outside prog world ⟨m.before, tasks, earlier⟩ := by
  induction h generalizing later with
  | init => simp at hpast
  | start _ _ _ _ ih => exact ih hpast
  | @resume s j q k a w hs _ _ _ ih =>
    rcases List.eq_nil_or_concat later with rfl | ⟨later', last, rfl⟩
    · obtain ⟨rfl, hlast⟩ := List.append_inj' hpast rfl
      rw [← List.singleton_inj.1 hlast]
      exact ⟨s.tasks, hs⟩
    · rw [List.concat_eq_append, ← List.cons_append, ← List.append_assoc] at hpast
      exact ih (List.append_inj' hpast rfl).1
  | moved _ _ ih => exact ih hpast

/-! ## What the tasks keep -/

/-- Every call of the program has `P`, as long as it gets answers that have `R`. -/
def Guarantees (R : (q : Q) → A q → Prop) (P : Q → Prop) : Coro Q A ε α → Prop
  | call q k => P q ∧ ∀ a, R q a → (k a).Guarantees R P
  | _ => True

/-- An invariant of the past and the world, which every call that has `P` keeps, and gets an answer that has `R`. -/
theorem Reached.invariant {R : (q : Q) → A q → Prop} {P : Q → Prop} {I : List (Moment ι W Q A) → W → Prop}
    (h : Reached suspends E outside prog world s) (hprog : ∀ i, (prog i).Guarantees R P) (hinit : I [] world)
    (hcall : ∀ past i w q a w', I past w → P q → E w q a w' → R q a ∧ I (past ++ [⟨i, ⟨q, a⟩, w, w'⟩]) w')
    (houtside : ∀ past w w', I past w → outside w w' → I past w') :
    I s.past s.world ∧ ∀ i p, s.tasks i = some p → p.Guarantees R P := by
  induction h with
  | init =>
    refine ⟨hinit, fun i p hp => ?_⟩
    cases hp
  | @start s j _ _ _ ih =>
    refine ⟨ih.1, fun i p hp => ?_⟩
    by_cases hij : i = j
    · subst hij
      simp only [Function.update_self] at hp
      obtain rfl := Option.some.inj hp
      exact hprog i
    · simp only [Function.update_of_ne hij] at hp
      exact ih.2 i p hp
  | @resume s j q k a w _ hj _ hE ih =>
    obtain ⟨hP, hnext⟩ := ih.2 j _ hj
    obtain ⟨hR, hI⟩ := hcall s.past j s.world q a w ih.1 hP hE
    refine ⟨hI, fun i p hp => ?_⟩
    by_cases hij : i = j
    · subst hij
      simp only [Function.update_self] at hp
      obtain rfl := Option.some.inj hp
      exact hnext a hR
    · simp only [Function.update_of_ne hij] at hp
      exact ih.2 i p hp
  | moved _ hout ih => exact ⟨houtside _ _ _ ih.1 hout, ih.2⟩

/-- While the other tasks are at rest, a task can do any run of what is left of its program. -/
theorem Reached.finish {p : Coro Q A ε α} {w' : W} {tr : List ((q : Q) × A q)} {r : Except ε α}
    (h : Reached suspends E outside prog world s) (hp : s.tasks i = some p)
    (hrest : ∀ j p, j ≠ i → s.tasks j = some p → AtRest suspends p) (hruns : Runs E s.world p tr r w') :
    ∃ p' past, p'.result? = some r ∧ own i past = tr ∧ (∀ j, j ≠ i → own j past = []) ∧
      Reached suspends E outside prog world ⟨w', Function.update s.tasks i (some p'), s.past ++ past⟩ := by
  generalize hw : s.world = w at hruns
  induction hruns generalizing s with
  | ret w a =>
    refine ⟨.ret a, [], rfl, rfl, fun _ _ => rfl, ?_⟩
    rwa [← hp, Function.update_eq_self, List.append_nil, ← hw]
  | raise w e =>
    refine ⟨.raise e, [], rfl, rfl, fun _ _ => rfl, ?_⟩
    rwa [← hp, Function.update_eq_self, List.append_nil, ← hw]
  | @call w w₁ w' q k a tr r hE _ ih =>
    subst hw
    obtain ⟨p', past, hr, hown, hothers, hreached⟩ := ih (h.resume hp hrest hE) (Function.update_self ..)
      (fun j p hj hp => hrest j p hj ((Function.update_of_ne hj ..).symm.trans hp)) rfl
    refine ⟨p', ⟨i, ⟨q, a⟩, s.world, w₁⟩ :: past, hr, ?_, fun j hj => ?_, ?_⟩
    · rw [own_cons, if_pos rfl, hown]
      rfl
    · rw [own_cons, if_neg hj.symm, hothers j hj]
      rfl
    · simpa only [Function.update_idem, List.append_assoc, List.singleton_append] using hreached

/-- While the tasks are at rest, a new one can start and do any run of its program. -/
theorem Reached.run_through {w' : W} {tr : List ((q : Q) × A q)} {r : Except ε α}
    (h : Reached suspends E outside prog world s) (hnew : s.tasks i = none)
    (hrest : ∀ j p, s.tasks j = some p → AtRest suspends p) (hruns : Runs E s.world (prog i) tr r w') :
    ∃ p' past, p'.result? = some r ∧ own i past = tr ∧ (∀ j, j ≠ i → own j past = []) ∧
      Reached suspends E outside prog world ⟨w', Function.update s.tasks i (some p'), s.past ++ past⟩ := by
  obtain ⟨p', past, hr, hown, hothers, hreached⟩ := (h.start i hnew hrest).finish (Function.update_self ..)
    (fun j p hj hp => hrest j p ((Function.update_of_ne hj ..).symm.trans hp)) hruns
  rw [Function.update_idem] at hreached
  exact ⟨p', past, hr, hown, hothers, hreached⟩

end Aimw.Lib.Coro
