import Mathlib.Tactic

/-!
# Coroutines

A program that calls out and waits for the answer: `Coro Q A ε α` performs operations `q : Q`, goes on with the
answer in `A q`, and ends with a value or an exception.

* `Runs E w p tr r w'` — `p`, started in the world `w`, ends with `r` in `w'` after the calls `tr`, when the
  environment `E` answers them;
* `runs_run` — a program ends, however its calls are answered;
* `runs_bind_iff`, `runs_tryExcept_iff`, `runs_tryFinally_iff` — the runs of a compound program;
* `Trail E w tr w'` — the world along the calls `tr` alone (`Runs.trail`);
* `Ensures P R` — what the calls and the result of a program have in every run (`Ensures.of_runs`);
* `Block ν` — statements over local variables `ν`, which keep what was assigned when an exception passes.
-/

namespace Aimw.Lib

inductive Coro (Q : Type) (A : Q → Type) (ε α : Type) : Type
  | ret (a : α)
  | raise (e : ε)
  | call (q : Q) (k : A q → Coro Q A ε α)

namespace Coro

variable {Q : Type} {A : Q → Type} {ε α β ν ρ W : Type}

/-! ## Programs -/

def bind : Coro Q A ε α → (α → Coro Q A ε β) → Coro Q A ε β
  | ret a, f => f a
  | raise e, _ => raise e
  | call q k, f => call q fun a => (k a).bind f

instance : Monad (Coro Q A ε) where
  pure := ret
  bind := bind

def perform (q : Q) : Coro Q A ε (A q) := call q ret

def ofExcept : Except ε α → Coro Q A ε α
  | .ok a => ret a
  | .error e => raise e

/-- Perform `q` and return, or raise, what `f` makes of the answer. -/
def await (q : Q) (f : A q → Except ε α) : Coro Q A ε α := call q fun a => ofExcept (f a)

/-- The outcome of a program as a value; nothing is raised any more. -/
def attempt : Coro Q A ε α → Coro Q A Empty (Except ε α)
  | ret a => ret (.ok a)
  | raise e => ret (.error e)
  | call q k => call q fun a => (k a).attempt

/-- A program that raises nothing, where exceptions are allowed. -/
def lift : Coro Q A Empty α → Coro Q A ε α
  | ret a => ret a
  | raise e => nomatch e
  | call q k => call q fun a => (k a).lift

/-- `try: x  except e: h(e)`. -/
def tryExcept (x : Coro Q A ε α) (h : ε → Coro Q A ε α) : Coro Q A ε α :=
  x.attempt.lift.bind fun
    | .ok a => ret a
    | .error e => h e

/-! ## Statements -/

/-- A statement over the locals `ν`: it ends with the locals as they then stand, normally or with an exception. -/
abbrev Block (Q : Type) (A : Q → Type) (ε ν : Type) : Type := ν → Coro Q A Empty (ν × Except ε Unit)

/-- `x = rhs`; nothing is assigned when `rhs` raises. -/
def assign (rhs : ν → Coro Q A ε α) (set : ν → α → ν) : Block Q A ε ν := fun v =>
  (rhs v).attempt.bind fun
    | .ok a => ret (set v a, .ok ())
    | .error e => ret (v, .error e)

/-- `b; c`. -/
def seq (b c : Block Q A ε ν) : Block Q A ε ν := fun v =>
  (b v).bind fun
    | (v, .ok ()) => c v
    | (v, .error e) => ret (v, .error e)

/-- `if cond: b`. -/
def whenever (cond : ν → Bool) (b : Block Q A ε ν) : Block Q A ε ν := fun v =>
  if cond v then b v else ret (v, .ok ())

/-- `try: body  finally: r = fin`, then `return r`. -/
def tryFinally (body : Block Q A ε ν) (fin : ν → Coro Q A ε ρ) (v : ν) : Coro Q A ε ρ :=
  (body v).lift.bind fun
    | (v, .ok ()) => fin v
    | (v, .error e) => (fin v).bind fun _ => raise e

/-! ## Runs -/

/-- The program, run from `w` in an environment that answers `q` with `a` and moves from `w` to `w'` when
`E w q a w'`. -/
inductive Runs (E : W → (q : Q) → A q → W → Prop) :
    W → Coro Q A ε α → List ((q : Q) × A q) → Except ε α → W → Prop
  | ret (w : W) (a : α) : Runs E w (.ret a) [] (.ok a) w
  | raise (w : W) (e : ε) : Runs E w (.raise e) [] (.error e) w
  | call {w w₁ w' : W} {q : Q} {k : A q → Coro Q A ε α} {a : A q} {tr : List ((q : Q) × A q)} {r : Except ε α} :
      E w q a w₁ → Runs E w₁ (k a) tr r w' → Runs E w (.call q k) (⟨q, a⟩ :: tr) r w'

variable {E : W → (q : Q) → A q → W → Prop} {w w' : W} {tr : List ((q : Q) × A q)}

theorem runs_ret_iff {a : α} {r : Except ε α} : Runs E w (ret a) tr r w' ↔ tr = [] ∧ r = .ok a ∧ w' = w := by
  constructor
  · rintro ⟨⟩
    exact ⟨rfl, rfl, rfl⟩
  · rintro ⟨rfl, rfl, rfl⟩
    exact .ret _ _

theorem runs_raise_iff {e : ε} {r : Except ε α} : Runs E w (raise e) tr r w' ↔ tr = [] ∧ r = .error e ∧ w' = w := by
  constructor
  · rintro ⟨⟩
    exact ⟨rfl, rfl, rfl⟩
  · rintro ⟨rfl, rfl, rfl⟩
    exact .raise _ _

theorem runs_call_iff {q : Q} {k : A q → Coro Q A ε α} {r : Except ε α} :
    Runs E w (call q k) tr r w' ↔ ∃ a w₁ t, tr = ⟨q, a⟩ :: t ∧ E w q a w₁ ∧ Runs E w₁ (k a) t r w' := by
  constructor
  · rintro (_ | _ | ⟨hE, h⟩)
    exact ⟨_, _, _, rfl, hE, h⟩
  · rintro ⟨a, w₁, t, rfl, hE, h⟩
    exact .call hE h

theorem runs_ofExcept_iff {x r : Except ε α} : Runs E w (ofExcept x) tr r w' ↔ tr = [] ∧ r = x ∧ w' = w := by
  cases x with
  | ok a => exact runs_ret_iff
  | error e => exact runs_raise_iff

theorem runs_await_iff {q : Q} {f : A q → Except ε α} {r : Except ε α} :
    Runs E w (await q f) tr r w' ↔ ∃ a, tr = [⟨q, a⟩] ∧ E w q a w' ∧ r = f a := by
  simp only [await, runs_call_iff, runs_ofExcept_iff]
  constructor
  · rintro ⟨a, w₁, t, rfl, hE, rfl, rfl, rfl⟩
    exact ⟨a, rfl, hE, rfl⟩
  · rintro ⟨a, rfl, hE, rfl⟩
    exact ⟨a, w', [], rfl, hE, rfl, rfl, rfl⟩

theorem runs_bind_iff {x : Coro Q A ε α} {f : α → Coro Q A ε β} {r : Except ε β} :
    Runs E w (x.bind f) tr r w' ↔
      (∃ e, Runs E w x tr (.error e) w' ∧ r = .error e) ∨
        ∃ a w₁ t₁ t₂, tr = t₁ ++ t₂ ∧ Runs E w x t₁ (.ok a) w₁ ∧ Runs E w₁ (f a) t₂ r w' := by
  induction x generalizing w tr with
  | ret a =>
    constructor
    · intro h
      exact Or.inr ⟨a, w, [], tr, rfl, .ret _ _, h⟩
    · rintro (⟨e, h, -⟩ | ⟨b, w₁, t₁, t₂, rfl, h₁, h₂⟩)
      · cases h
      · obtain ⟨rfl, hb, rfl⟩ := runs_ret_iff.1 h₁
        obtain rfl := Except.ok.inj hb
        exact h₂
  | raise e =>
    constructor
    · intro h
      obtain ⟨rfl, rfl, rfl⟩ := runs_raise_iff.1 h
      exact Or.inl ⟨e, .raise _ _, rfl⟩
    · rintro (⟨e', h, rfl⟩ | ⟨b, w₁, t₁, t₂, rfl, h₁, -⟩)
      · obtain ⟨rfl, he, rfl⟩ := runs_raise_iff.1 h
        obtain rfl := Except.error.inj he
        exact .raise _ _
      · cases h₁
  | call q k ih =>
    simp only [bind, runs_call_iff, ih]
    constructor
    · rintro ⟨a, w₁, t, rfl, hE, ⟨e, h, rfl⟩ | ⟨b, w₂, t₁, t₂, rfl, h₁, h₂⟩⟩
      · exact Or.inl ⟨e, ⟨a, w₁, t, rfl, hE, h⟩, rfl⟩
      · exact Or.inr ⟨b, w₂, _, t₂, rfl, ⟨a, w₁, t₁, rfl, hE, h₁⟩, h₂⟩
    · rintro (⟨e, ⟨a, w₁, t, rfl, hE, h⟩, rfl⟩ | ⟨b, w₂, _, t₂, rfl, ⟨a, w₁, t₁, rfl, hE, h₁⟩, h₂⟩)
      · exact ⟨a, w₁, t, rfl, hE, Or.inl ⟨e, h, rfl⟩⟩
      · exact ⟨a, w₁, t₁ ++ t₂, rfl, hE, Or.inr ⟨b, w₂, t₁, t₂, rfl, h₁, h₂⟩⟩

/-- A program that raises nothing, followed by another. -/
theorem runs_bind_total_iff {x : Coro Q A Empty α} {f : α → Coro Q A Empty β} {r : Except Empty β} :
    Runs E w (x.bind f) tr r w' ↔
      ∃ a w₁ t₁ t₂, tr = t₁ ++ t₂ ∧ Runs E w x t₁ (.ok a) w₁ ∧ Runs E w₁ (f a) t₂ r w' := by
  rw [runs_bind_iff]
  constructor
  · rintro (⟨⟨⟩, -, -⟩ | h)
    exact h
  · exact Or.inr

theorem runs_attempt_iff {x : Coro Q A ε α} {o : Except ε α} :
    Runs E w x.attempt tr (.ok o) w' ↔ Runs E w x tr o w' := by
  induction x generalizing w tr with
  | ret a => simp only [attempt, runs_ret_iff, Except.ok.injEq]
  | raise e => simp only [attempt, runs_ret_iff, runs_raise_iff, Except.ok.injEq]
  | call q k ih => simp only [attempt, runs_call_iff, ih]

theorem runs_lift_iff {x : Coro Q A Empty α} {r : Except ε α} :
    Runs E w x.lift tr r w' ↔ ∃ a, r = .ok a ∧ Runs E w x tr (.ok a) w' := by
  induction x generalizing w tr with
  | ret a => simp only [lift, runs_ret_iff, Except.ok.injEq]; aesop
  | raise e => exact nomatch e
  | call q k ih =>
    simp only [lift, runs_call_iff, ih]
    constructor
    · rintro ⟨a, w₁, t, rfl, hE, b, rfl, h⟩
      exact ⟨b, rfl, a, w₁, t, rfl, hE, h⟩
    · rintro ⟨b, rfl, a, w₁, t, rfl, hE, h⟩
      exact ⟨a, w₁, t, rfl, hE, b, rfl, h⟩

theorem runs_lift_bind_iff {x : Coro Q A Empty α} {f : α → Coro Q A ε β} {r : Except ε β} :
    Runs E w (x.lift.bind f) tr r w' ↔
      ∃ a w₁ t₁ t₂, tr = t₁ ++ t₂ ∧ Runs E w x t₁ (.ok a) w₁ ∧ Runs E w₁ (f a) t₂ r w' := by
  simp only [runs_bind_iff, runs_lift_iff]
  constructor
  · rintro (⟨e, ⟨a, ⟨⟩, -⟩, -⟩ | ⟨a, w₁, t₁, t₂, htr, ⟨b, hb, h₁⟩, h₂⟩)
    obtain rfl := Except.ok.inj hb
    exact ⟨a, w₁, t₁, t₂, htr, h₁, h₂⟩
  · rintro ⟨a, w₁, t₁, t₂, htr, h₁, h₂⟩
    exact Or.inr ⟨a, w₁, t₁, t₂, htr, ⟨a, rfl, h₁⟩, h₂⟩

/-- The handler runs after an exception, and only then. -/
theorem runs_tryExcept_iff {x : Coro Q A ε α} {h : ε → Coro Q A ε α} {r : Except ε α} :
    Runs E w (tryExcept x h) tr r w' ↔
      (∃ a, Runs E w x tr (.ok a) w' ∧ r = .ok a) ∨
        ∃ e w₁ t₁ t₂, tr = t₁ ++ t₂ ∧ Runs E w x t₁ (.error e) w₁ ∧ Runs E w₁ (h e) t₂ r w' := by
  simp only [tryExcept, runs_lift_bind_iff, runs_attempt_iff]
  constructor
  · rintro ⟨o, w₁, t₁, t₂, rfl, h₁, h₂⟩
    cases o with
    | ok a =>
      obtain ⟨rfl, rfl, rfl⟩ := runs_ret_iff.1 h₂
      exact Or.inl ⟨a, by simpa using h₁, rfl⟩
    | error e => exact Or.inr ⟨e, w₁, t₁, t₂, rfl, h₁, h₂⟩
  · rintro (⟨a, h₁, rfl⟩ | ⟨e, w₁, t₁, t₂, rfl, h₁, h₂⟩)
    · exact ⟨.ok a, w', tr, [], by simp, h₁, .ret _ _⟩
    · exact ⟨.error e, w₁, t₁, t₂, rfl, h₁, h₂⟩

/-- Every answer in a run is one that the environment can give. -/
theorem Runs.mem {x : Coro Q A ε α} {r : Except ε α} (h : Runs E w x tr r w') {q : Q} {a : A q}
    (hmem : (⟨q, a⟩ : (q : Q) × A q) ∈ tr) : ∃ w₁ w₂, E w₁ q a w₂ := by
  induction h with
  | ret => cases hmem
  | raise => cases hmem
  | call hE _ ih =>
    rcases List.mem_cons.1 hmem with heq | hmem
    · cases heq
      exact ⟨_, _, hE⟩
    · exact ih hmem

/-- The world along a trace: the environment gives the answers one after the other. -/
inductive Trail (E : W → (q : Q) → A q → W → Prop) : W → List ((q : Q) × A q) → W → Prop
  | nil (w : W) : Trail E w [] w
  | cons {w w₁ w' : W} {q : Q} {a : A q} {tr : List ((q : Q) × A q)} :
      E w q a w₁ → Trail E w₁ tr w' → Trail E w (⟨q, a⟩ :: tr) w'

theorem Runs.trail {x : Coro Q A ε α} {r : Except ε α} (h : Runs E w x tr r w') : Trail E w tr w' := by
  induction h with
  | ret w a => exact .nil w
  | raise w e => exact .nil w
  | call hE _ ih => exact .cons hE ih

theorem trail_append_iff {t₁ t₂ : List ((q : Q) × A q)} :
    Trail E w (t₁ ++ t₂) w' ↔ ∃ w₁, Trail E w t₁ w₁ ∧ Trail E w₁ t₂ w' := by
  induction t₁ generalizing w with
  | nil =>
    constructor
    · intro h
      exact ⟨w, .nil w, h⟩
    · rintro ⟨_, ⟨⟩, h⟩
      exact h
  | cons event t₁ ih =>
    constructor
    · rintro (_ | ⟨hE, h⟩)
      obtain ⟨w₁, h₁, h₂⟩ := ih.1 h
      exact ⟨w₁, .cons hE h₁, h₂⟩
    · rintro ⟨w₁, _ | ⟨hE, h₁⟩, h₂⟩
      exact .cons hE (ih.2 ⟨w₁, h₁, h₂⟩)

theorem trail_singleton_iff {q : Q} {a : A q} : Trail E w [⟨q, a⟩] w' ↔ E w q a w' := by
  constructor
  · rintro (_ | ⟨hE, ⟨⟩⟩)
    exact hE
  · intro h
    exact .cons h (.nil w')

/-- Every call that the program makes has `P`, and every value that it returns has `R`. -/
def Ensures (P : Q → Prop) (R : α → Prop) : Coro Q A ε α → Prop
  | ret a => R a
  | raise _ => True
  | call q k => P q ∧ ∀ a, (k a).Ensures P R

section Ensures

variable {P : Q → Prop} {R : α → Prop} {S : β → Prop}

theorem Ensures.bind {x : Coro Q A ε α} {f : α → Coro Q A ε β} (hx : x.Ensures P R) (hf : ∀ a, R a → (f a).Ensures P S) :
    (x.bind f).Ensures P S := by
  induction x with
  | ret a => exact hf a hx
  | raise e => trivial
  | call q k ih => exact ⟨hx.1, fun a => ih a (hx.2 a)⟩

lemma ensures_ofExcept {x : Except ε α} (h : ∀ a, x = .ok a → R a) : (ofExcept x : Coro Q A ε α).Ensures P R := by
  cases x with
  | ok a => exact h a rfl
  | error e => trivial

lemma ensures_perform {q : Q} (hq : P q) : (perform q : Coro Q A ε (A q)).Ensures P fun _ => True :=
  ⟨hq, fun _ => trivial⟩

lemma ensures_await {q : Q} {f : A q → Except ε α} (hq : P q) : (await q f).Ensures P fun _ => True :=
  ⟨hq, fun _ => ensures_ofExcept fun _ _ => trivial⟩

/-- What a program ensures holds in every run. -/
theorem Ensures.of_runs {x : Coro Q A ε α} {r : Except ε α} (hx : x.Ensures P R) (h : Runs E w x tr r w') :
    (∀ event ∈ tr, P event.1) ∧ ∀ a, r = .ok a → R a := by
  induction h with
  | ret w a =>
    refine ⟨by simp, ?_⟩
    rintro b ⟨⟩
    exact hx
  | raise w e => exact ⟨by simp, by simp⟩
  | call _ _ ih =>
    obtain ⟨hcalls, hresult⟩ := ih (hx.2 _)
    exact ⟨List.forall_mem_cons.2 ⟨hx.1, hcalls⟩, hresult⟩

end Ensures

/-- The run in which `f` answers every call. -/
def run (f : (q : Q) → W → A q × W) : Coro Q A ε α → W → List ((q : Q) × A q) × Except ε α × W
  | ret a, w => ([], .ok a, w)
  | raise e, w => ([], .error e, w)
  | call q k, w =>
    let (a, w₁) := f q w
    let (tr, r, w') := (k a).run f w₁
    (⟨q, a⟩ :: tr, r, w')

/-- A program ends, however its calls are answered. -/
theorem runs_run {f : (q : Q) → W → A q × W} (hf : ∀ q w, E w q (f q w).1 (f q w).2) (x : Coro Q A ε α) (w : W) :
    Runs E w x (x.run f w).1 (x.run f w).2.1 (x.run f w).2.2 := by
  induction x generalizing w with
  | ret a => exact .ret w a
  | raise e => exact .raise w e
  | call q k ih => exact .call (hf q w) (ih _ _)

/-- The result when every call of `q` gets the same answer `f q`. -/
def eval (f : (q : Q) → A q) : Coro Q A ε α → Except ε α
  | ret a => .ok a
  | raise e => .error e
  | call q k => (k (f q)).eval f

theorem eval_bind (f : (q : Q) → A q) (x : Coro Q A ε α) (g : α → Coro Q A ε β) :
    (x.bind g).eval f = (x.eval f).bind fun a => (g a).eval f := by
  induction x with
  | ret a => rfl
  | raise e => rfl
  | call q k ih => exact ih (f q)

@[simp] lemma eval_pure (f : (q : Q) → A q) (a : α) : (pure a : Coro Q A ε α).eval f = .ok a := rfl

@[simp] lemma eval_perform_bind (f : (q : Q) → A q) (q : Q) (g : A q → Coro Q A ε β) :
    (perform q >>= g).eval f = (g (f q)).eval f := rfl

lemma eval_await_bind (f : (q : Q) → A q) (q : Q) (h : A q → Except ε α) (g : α → Coro Q A ε β) :
    (await q h >>= g).eval f = (h (f q)).bind fun a => (g a).eval f := by
  refine (eval_bind f (await q h) g).trans ?_
  cases hq : h (f q) <;> simp [await, eval, hq, ofExcept]

/-! ## Runs of statements -/

variable {v v' : ν} {out : Except ε Unit}

theorem runs_assign_iff {rhs : ν → Coro Q A ε α} {set : ν → α → ν} :
    Runs E w (assign rhs set v) tr (.ok (v', out)) w' ↔
      (∃ a, Runs E w (rhs v) tr (.ok a) w' ∧ v' = set v a ∧ out = .ok ()) ∨
        ∃ e, Runs E w (rhs v) tr (.error e) w' ∧ v' = v ∧ out = .error e := by
  simp only [assign, runs_bind_total_iff, runs_attempt_iff]
  constructor
  · rintro ⟨o, w₁, t₁, t₂, rfl, h₁, h₂⟩
    cases o with
    | ok a =>
      obtain ⟨rfl, h, rfl⟩ := runs_ret_iff.1 h₂
      obtain ⟨rfl, rfl⟩ := Prod.mk.inj (Except.ok.inj h)
      exact Or.inl ⟨a, by simpa using h₁, rfl, rfl⟩
    | error e =>
      obtain ⟨rfl, h, rfl⟩ := runs_ret_iff.1 h₂
      obtain ⟨rfl, rfl⟩ := Prod.mk.inj (Except.ok.inj h)
      exact Or.inr ⟨e, by simpa using h₁, rfl, rfl⟩
  · rintro (⟨a, h₁, rfl, rfl⟩ | ⟨e, h₁, rfl, rfl⟩)
    · exact ⟨.ok a, w', tr, [], by simp, h₁, .ret _ _⟩
    · exact ⟨.error e, w', tr, [], by simp, h₁, .ret _ _⟩

theorem runs_seq_iff {b c : Block Q A ε ν} :
    Runs E w (seq b c v) tr (.ok (v', out)) w' ↔
      (∃ e, Runs E w (b v) tr (.ok (v', .error e)) w' ∧ out = .error e) ∨
        ∃ v₁ w₁ t₁ t₂, tr = t₁ ++ t₂ ∧ Runs E w (b v) t₁ (.ok (v₁, .ok ())) w₁ ∧
          Runs E w₁ (c v₁) t₂ (.ok (v', out)) w' := by
  simp only [seq, runs_bind_total_iff]
  constructor
  · rintro ⟨⟨v₁, _ | _⟩, w₁, t₁, t₂, rfl, h₁, h₂⟩
    · obtain ⟨rfl, h, rfl⟩ := runs_ret_iff.1 h₂
      obtain ⟨rfl, rfl⟩ := Prod.mk.inj (Except.ok.inj h)
      exact Or.inl ⟨_, by simpa using h₁, rfl⟩
    · exact Or.inr ⟨v₁, w₁, t₁, t₂, rfl, h₁, h₂⟩
  · rintro (⟨e, h₁, rfl⟩ | ⟨v₁, w₁, t₁, t₂, rfl, h₁, h₂⟩)
    · exact ⟨(v', .error e), w', tr, [], by simp, h₁, .ret _ _⟩
    · exact ⟨(v₁, .ok ()), w₁, t₁, t₂, rfl, h₁, h₂⟩

theorem runs_whenever_iff {cond : ν → Bool} {b : Block Q A ε ν} :
    Runs E w (whenever cond b v) tr (.ok (v', out)) w' ↔
      (cond v = true ∧ Runs E w (b v) tr (.ok (v', out)) w') ∨
        (cond v = false ∧ tr = [] ∧ v' = v ∧ out = .ok () ∧ w' = w) := by
  unfold whenever
  by_cases hc : cond v = true
  · simp [hc]
  · simp [hc, runs_ret_iff, and_assoc]

/-- The `finally` part runs once, on the locals that the body left, however the body ended. -/
theorem runs_tryFinally_iff {body : Block Q A ε ν} {fin : ν → Coro Q A ε ρ} {r : Except ε ρ} :
    Runs E w (tryFinally body fin v) tr r w' ↔
      ∃ v₁ o w₁ t₁ t₂ r₂, tr = t₁ ++ t₂ ∧ Runs E w (body v) t₁ (.ok (v₁, o)) w₁ ∧ Runs E w₁ (fin v₁) t₂ r₂ w' ∧
        r = r₂.bind fun a => o.map fun _ => a := by
  simp only [tryFinally, runs_lift_bind_iff]
  constructor
  · rintro ⟨⟨v₁, e | _⟩, w₁, t₁, t₂, rfl, h₁, h₂⟩
    · rcases runs_bind_iff.1 h₂ with ⟨e', h₃, rfl⟩ | ⟨a, w₂, t, t', rfl, h₃, h₄⟩
      · exact ⟨v₁, _, w₁, t₁, t₂, _, rfl, h₁, h₃, rfl⟩
      · obtain ⟨rfl, rfl, rfl⟩ := runs_raise_iff.1 h₄
        exact ⟨v₁, _, w₁, t₁, t, _, by simp, h₁, h₃, rfl⟩
    · exact ⟨v₁, _, w₁, t₁, t₂, r, rfl, h₁, h₂, by cases r <;> rfl⟩
  · rintro ⟨v₁, o, w₁, t₁, t₂, r₂, rfl, h₁, h₂, rfl⟩
    refine ⟨(v₁, o), w₁, t₁, t₂, rfl, h₁, ?_⟩
    cases o with
    | ok _ => cases r₂ <;> exact h₂
    | error e =>
      refine runs_bind_iff.2 ?_
      cases r₂ with
      | error e' => exact Or.inl ⟨e', h₂, rfl⟩
      | ok a => exact Or.inr ⟨a, w', t₂, [], by simp, h₂, .raise _ _⟩

end Coro

end Aimw.Lib
