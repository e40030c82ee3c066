import Mathlib.Data.List.Basic
import Mathlib.Tactic

/-!
# What one party sees of the others

A system answers one action after the other.  `Unwinds` gathers what has to be checked of single actions so that what is
observed of a run does not change when the actions of others are taken out of it (`Unwinds.observations`).
-/

namespace Aimw.Lib

variable {S A O : Type}

/-- The actions of a run with their answers. -/
def transcript (step : S → A → O × S) : S → List A → List (A × O)
  | _, [] => []
  | s, a :: as => (a, (step s a).1) :: transcript step (step s a).2 as

/-- The state after a run. -/
def runFrom (step : S → A → O × S) (s : S) (as : List A) : S := as.foldl (fun s a => (step s a).2) s

section Runs

variable {step : S → A → O × S}

@[simp] lemma runFrom_nil (s : S) : runFrom step s [] = s := rfl

@[simp] lemma runFrom_cons (s : S) (a : A) (as : List A) : runFrom step s (a :: as) = runFrom step (step s a).2 as := rfl

lemma runFrom_append (s : S) (as bs : List A) : runFrom step s (as ++ bs) = runFrom step (runFrom step s as) bs :=
  List.foldl_append

lemma runFrom_concat (s : S) (as : List A) (a : A) :
    runFrom step s (as ++ [a]) = (step (runFrom step s as) a).2 := by
  rw [runFrom_append, runFrom_cons, runFrom_nil]

lemma transcript_append (s : S) (as bs : List A) :
    transcript step s (as ++ bs) = transcript step s as ++ transcript step (runFrom step s as) bs := by
  induction as generalizing s with
  | nil => rfl
  | cons a as ih => exact congrArg ((a, (step s a).1) :: ·) (ih (step s a).2)

lemma length_transcript (s : S) (as : List A) : (transcript step s as).length = as.length := by
  induction as generalizing s with
  | nil => rfl
  | cons a as ih => exact congrArg (· + 1) (ih (step s a).2)

/-- What an action is answered depends on the actions before it. -/
theorem transcript_getElem? (s : S) (before after : List A) (a : A) :
    (transcript step s (before ++ a :: after))[before.length]? = some (a, (step (runFrom step s before) a).1) := by
  rw [transcript_append, List.getElem?_append_right (length_transcript s before).le, length_transcript, Nat.sub_self]
  rfl

theorem mem_transcript_iff {s : S} {as : List A} {a : A} {o : O} :
    (a, o) ∈ transcript step s as ↔
      ∃ before after, as = before ++ a :: after ∧ o = (step (runFrom step s before) a).1 := by
  constructor
  · intro hmem
    induction as generalizing s with
    | nil => cases hmem
    | cons b as ih =>
      rcases List.mem_cons.1 hmem with heq | hmem
      · cases heq
        exact ⟨[], as, rfl, rfl⟩
      · obtain ⟨before, after, rfl, ho⟩ := ih hmem
        exact ⟨b :: before, after, rfl, ho⟩
  · rintro ⟨before, after, rfl, rfl⟩
    exact List.mem_of_getElem? (transcript_getElem? s before after a)

/-- What every action keeps holds after the run. -/
theorem runFrom_induction {I : S → Prop} {P : A → Prop} (hstep : ∀ s a, P a → I s → I (step s a).2) {as : List A} {s : S}
    (hs : I s) (has : ∀ a ∈ as, P a) : I (runFrom step s as) := by
  induction as generalizing s with
  | nil => exact hs
  | cons a as ih =>
    obtain ⟨ha, has⟩ := List.forall_mem_cons.1 has
    exact ih (hstep s a ha hs) has

end Runs

/-- What is observed: the answers to the observed actions. -/
def observations (step : S → A → O × S) (observed : A → Bool) (s : S) (as : List A) : List (A × O) :=
  (transcript step s as).filter fun p => observed p.1

section Observations

variable {step : S → A → O × S} {observed : A → Bool} {s : S} {a : A} {as : List A}

lemma observations_cons_pos (h : observed a = true) :
    observations step observed s (a :: as) = (a, (step s a).1) :: observations step observed (step s a).2 as :=
  List.filter_cons_of_pos h

lemma observations_cons_neg (h : ¬ observed a = true) :
    observations step observed s (a :: as) = observations step observed (step s a).2 as :=
  List.filter_cons_of_neg h

end Observations

/-- Related states look alike to the observer; the actions that are removed do not show, and all others act alike. -/
structure Unwinds (step : S → A → O × S) (observed removed : A → Bool) (R : S → S → Prop) : Prop where
  hidden : ∀ s t a, removed a = true → R s t → R (step s a).2 t
  kept : ∀ s t a, removed a = false → R s t → R (step s a).2 (step t a).2
  answer : ∀ s t a, observed a = true → R s t → (step s a).1 = (step t a).1
  disjoint : ∀ a, observed a = true → removed a = false

/-- **What is observed does not change when the actions of others are removed.** -/
theorem Unwinds.observations {step : S → A → O × S} {observed removed : A → Bool} {R : S → S → Prop}
    (h : Unwinds step observed removed R) {s t : S} (hR : R s t) (as : List A) :
    observations step observed s as = observations step observed t (as.filter fun a => !removed a) := by
  induction as generalizing s t with
  | nil => rfl
  | cons a as ih =>
    by_cases hremoved : removed a = true
    · have hobserved : ¬ observed a = true := by
        intro hobserved
        rw [h.disjoint a hobserved] at hremoved
        cases hremoved
      rw [observations_cons_neg hobserved, List.filter_cons_of_neg (by simpa using hremoved)]
      exact ih (h.hidden s t a hremoved hR)
    · rw [Bool.not_eq_true] at hremoved
      have hrest := ih (h.kept s t a hremoved hR)
      rw [List.filter_cons_of_pos (by simpa using hremoved)]
      by_cases hobserved : observed a = true
      · rw [observations_cons_pos hobserved, observations_cons_pos hobserved, h.answer s t a hobserved hR, hrest]
      · rw [observations_cons_neg hobserved, observations_cons_neg hobserved, hrest]

end Aimw.Lib
