import Aimw.Lib.EventLoop

/-!
# Linking

A program calls operations that are programs themselves: `x.link impl` is `x` with each call of `q` replaced by
`impl q`, `x.rename f` is `x` with its calls under other names, and `x.mapError f` with its exceptions.

* `Implements E impl w outer inner w'` — the calls `outer`, one implementation after the other, are the calls `inner`;
* `runs_link_iff`, `runs_rename_iff`, `runs_mapError_iff` — the runs of the three;
* `Implements.split` — a call of an implementation, and the call of the program that it was made for;
* `Implements.observed` — what is seen of the inner calls, read off the outer ones;
* `Advances.link_split` — the same for a linked program on its way.
-/

namespace Aimw.Lib.Coro

variable {Q Q' : Type} {A : Q → Type} {A' : Q' → Type} {ε α β W : Type}

/-! ## Programs -/

/-- `x`, with each call carried out by a program. -/
def link (impl : (q : Q) → Coro Q' A' Empty (A q)) : Coro Q A ε α → Coro Q' A' ε α
  | ret a => ret a
  | raise e => raise e
  | call q k => (impl q).lift.bind fun a => (k a).link impl

/-- `x`, with its calls under the names that `f` gives them. -/
def rename (f : Q → Q') : Coro Q (fun q => A' (f q)) ε α → Coro Q' A' ε α
  | ret a => ret a
  | raise e => raise e
  | call q k => call (f q) fun a => (k a).rename f

/-- `x`, with its exceptions seen through `f`. -/
def mapError {δ : Type} (f : ε → δ) : Coro Q A ε α → Coro Q A δ α
  | ret a => ret a
  | raise e => raise (f e)
  | call q k => call q fun a => (k a).mapError f

/-- An event under its other name. -/
def renamed (f : Q → Q') (e : (q : Q) × A' (f q)) : (q : Q') × A' q := ⟨f e.1, e.2⟩

/-! ## Runs -/

/-- The calls `outer`, each carried out by its implementation. -/
inductive Implements (E : W → (q : Q') → A' q → W → Prop) (impl : (q : Q) → Coro Q' A' Empty (A q)) :
    W → List ((q : Q) × A q) → List ((q : Q') × A' q) → W → Prop
  | nil (w : W) : Implements E impl w [] [] w
  | cons {w w₁ w' : W} {q : Q} {a : A q} {outer : List ((q : Q) × A q)} {t rest : List ((q : Q') × A' q)} :
      Runs E w (impl q) t (.ok a) w₁ → Implements E impl w₁ outer rest w' →
      Implements E impl w (⟨q, a⟩ :: outer) (t ++ rest) w'

variable {E : W → (q : Q') → A' q → W → Prop} {impl : (q : Q) → Coro Q' A' Empty (A q)} {w w' : W}
  {tr : List ((q : Q') × A' q)} {outer : List ((q : Q) × A q)}

theorem runs_perform_iff {q : Q'} {r : Except ε (A' q)} :
    Runs E w (perform q) tr r w' ↔ ∃ a, tr = [⟨q, a⟩] ∧ E w q a w' ∧ r = .ok a := by
  simp only [perform, runs_call_iff, runs_ret_iff]
  constructor
  · rintro ⟨a, w₁, t, rfl, hE, rfl, rfl, rfl⟩
    exact ⟨a, rfl, hE, rfl⟩
  · rintro ⟨a, rfl, hE, rfl⟩
    exact ⟨a, w', [], rfl, hE, rfl, rfl, rfl⟩

/-- **A run of a linked program is a run of the program, with its calls carried out.** -/
theorem runs_link_iff {x : Coro Q A ε α} {r : Except ε α} :
    Runs E w (x.link impl) tr r w' ↔ ∃ outer, Runs Anything () x outer r () ∧ Implements E impl w outer tr w' := by
  induction x generalizing w tr with
  | ret a =>
    constructor
    · intro h
      obtain ⟨rfl, rfl, rfl⟩ := runs_ret_iff.1 h
      exact ⟨[], .ret () a, .nil w'⟩
    · rintro ⟨outer, hruns, himpl⟩
      obtain ⟨rfl, rfl, -⟩ := runs_ret_iff.1 hruns
      cases himpl
      exact .ret _ a
  | raise e =>
    constructor
    · intro h
      obtain ⟨rfl, rfl, rfl⟩ := runs_raise_iff.1 h
      exact ⟨[], .raise () e, .nil w'⟩
    · rintro ⟨outer, hruns, himpl⟩
      obtain ⟨rfl, rfl, -⟩ := runs_raise_iff.1 hruns
      cases himpl
      exact .raise _ e
  | call q k ih =>
    constructor
    · intro h
      obtain ⟨a, w₁, t₁, t₂, rfl, hinner, hrest⟩ := runs_lift_bind_iff.1 h
      obtain ⟨outer, hruns, himpl⟩ := (ih a).1 hrest
      exact ⟨_, .call trivial hruns, .cons hinner himpl⟩
    · rintro ⟨outer, hruns, himpl⟩
      obtain ⟨a, _, t, rfl, -, hrest⟩ := runs_call_iff.1 hruns
      rcases himpl with _ | ⟨hinner, himpl⟩
      exact runs_lift_bind_iff.2 ⟨a, _, _, _, rfl, hinner, (ih a).2 ⟨t, hrest, himpl⟩⟩

theorem runs_rename_iff {f : Q → Q'} {x : Coro Q (fun q => A' (f q)) ε α} {r : Except ε α} :
    Runs E w (x.rename f) tr r w' ↔
      ∃ t, tr = t.map (renamed f) ∧ Runs (fun w q a w' => E w (f q) a w') w x t r w' := by
  induction x generalizing w tr with
  | ret a =>
    simp only [rename, runs_ret_iff]
    constructor
    · rintro ⟨rfl, rfl, rfl⟩
      exact ⟨[], rfl, rfl, rfl, rfl⟩
    · rintro ⟨t, rfl, rfl, rfl, rfl⟩
      exact ⟨rfl, rfl, rfl⟩
  | raise e =>
    simp only [rename, runs_raise_iff]
    constructor
    · rintro ⟨rfl, rfl, rfl⟩
      exact ⟨[], rfl, rfl, rfl, rfl⟩
    · rintro ⟨t, rfl, rfl, rfl, rfl⟩
      exact ⟨rfl, rfl, rfl⟩
  | call q k ih =>
    simp only [rename, runs_call_iff, ih]
    constructor
    · rintro ⟨a, w₁, t, rfl, hE, t', rfl, h⟩
      exact ⟨⟨q, a⟩ :: t', rfl, a, w₁, t', rfl, hE, h⟩
    · rintro ⟨t, rfl, a, w₁, t', rfl, hE, h⟩
      exact ⟨a, w₁, t'.map (renamed f), rfl, hE, t', rfl, h⟩

theorem runs_mapError_iff {δ : Type} {f : ε → δ} {x : Coro Q' A' ε α} {r : Except δ α} :
    Runs E w (x.mapError f) tr r w' ↔ ∃ r₀, Runs E w x tr r₀ w' ∧ r = r₀.mapError f := by
  induction x generalizing w tr with
  | ret a =>
    simp only [mapError, runs_ret_iff]
    constructor
    · rintro ⟨rfl, rfl, rfl⟩
      exact ⟨.ok a, ⟨rfl, rfl, rfl⟩, rfl⟩
    · rintro ⟨_, ⟨rfl, rfl, rfl⟩, rfl⟩
      exact ⟨rfl, rfl, rfl⟩
  | raise e =>
    simp only [mapError, runs_raise_iff]
    constructor
    · rintro ⟨rfl, rfl, rfl⟩
      exact ⟨.error e, ⟨rfl, rfl, rfl⟩, rfl⟩
    · rintro ⟨_, ⟨rfl, rfl, rfl⟩, rfl⟩
      exact ⟨rfl, rfl, rfl⟩
  | call q k ih =>
    simp only [mapError, runs_call_iff, ih]
    constructor
    · rintro ⟨a, w₁, t, rfl, hE, r₀, h, rfl⟩
      exact ⟨r₀, ⟨a, w₁, t, rfl, hE, h⟩, rfl⟩
    · rintro ⟨r₀, ⟨a, w₁, t, rfl, hE, h⟩, rfl⟩
      exact ⟨a, w₁, t, rfl, hE, r₀, h, rfl⟩

/-- What a run did, the same run does when everything can be answered. -/
theorem Runs.anything {x : Coro Q' A' ε α} {r : Except ε α} (h : Runs E w x tr r w') : Runs Anything () x tr r () := by
  induction h with
  | ret w a => exact .ret () a
  | raise w e => exact .raise () e
  | call _ _ ih => exact .call trivial ih

theorem Implements.anything (h : Implements E impl w outer tr w') : Implements Anything impl () outer tr () := by
  induction h with
  | nil => exact .nil ()
  | cons hinner _ ih => exact .cons hinner.anything ih

theorem implements_append_iff {outer₁ outer₂ : List ((q : Q) × A q)} :
    Implements E impl w (outer₁ ++ outer₂) tr w' ↔
      ∃ w₁ t₁ t₂, tr = t₁ ++ t₂ ∧ Implements E impl w outer₁ t₁ w₁ ∧ Implements E impl w₁ outer₂ t₂ w' := by
  induction outer₁ generalizing w tr with
  | nil =>
    constructor
    · intro h
      exact ⟨w, [], tr, rfl, .nil w, h⟩
    · rintro ⟨w₁, t₁, t₂, rfl, h₁, h₂⟩
      cases h₁
      exact h₂
  | cons event outer₁ ih =>
    constructor
    · rintro (_ | ⟨hinner, hrest⟩)
      obtain ⟨w₁, t₁, t₂, rfl, h₁, h₂⟩ := ih.1 hrest
      exact ⟨w₁, _, t₂, (List.append_assoc ..).symm, .cons hinner h₁, h₂⟩
    · rintro ⟨w₁, _, t₂, rfl, _ | ⟨hinner, h₁⟩, h₂⟩
      rw [List.append_assoc]
      exact .cons hinner (ih.2 ⟨w₁, _, t₂, rfl, h₁, h₂⟩)

/-! ## A call and what it was made for -/

/-- **A call of an implementation belongs to one call of the program**: before it stand the calls that carried out what
the program called earlier, and then the beginning of a run of the implementation. -/
theorem Implements.split (h : Implements E impl w outer tr w') {pre post : List ((q : Q') × A' q)}
    {event : (q : Q') × A' q} (htr : tr = pre ++ event :: post) :
    ∃ outer₁ q a outer₂ t s s' w₁ w₂, outer = outer₁ ++ ⟨q, a⟩ :: outer₂ ∧ pre = t ++ s ∧
      Implements E impl w outer₁ t w₁ ∧ Runs E w₁ (impl q) (s ++ event :: s') (.ok a) w₂ := by
  induction h generalizing pre with
  | nil => simp at htr
  | @cons w w₁ w' q a outer t rest hinner himpl ih =>
    rcases List.append_eq_append_iff.1 htr with ⟨later, rfl, hrest⟩ | ⟨later, rfl, hpost⟩
    · -- the event comes after this implementation
      obtain ⟨outer₁, q', a', outer₂, t', s, s', v₁, v₂, rfl, rfl, hearlier, hrun⟩ := ih hrest
      exact ⟨⟨q, a⟩ :: outer₁, q', a', outer₂, t ++ t', s, s', v₁, v₂, rfl, by simp, .cons hinner hearlier, hrun⟩
    · cases later with
      | nil =>
        have hfirst : rest = [] ++ event :: post := by simpa using hpost.symm
        obtain ⟨outer₁, q', a', outer₂, t', s, s', v₁, v₂, rfl, hpre, hearlier, hrun⟩ := ih hfirst
        refine ⟨⟨q, a⟩ :: outer₁, q', a', outer₂, pre ++ t', s, s', v₁, v₂, rfl, ?_, ?_, hrun⟩
        · rw [List.append_assoc, ← hpre, List.append_nil]
        · exact .cons (by simpa using hinner) hearlier
      | cons event' later =>
        obtain ⟨rfl, -⟩ := List.cons.inj hpost
        exact ⟨[], q, a, outer, [], pre, later, w, w₁, rfl, rfl, .nil w, hinner⟩

/-- What is seen of the calls, if each implementation shows what is seen of the call it carries out. -/
theorem Implements.observed {f : (q : Q') × A' q → Option β} {g : (q : Q) × A q → List β}
    (h : Implements E impl w outer tr w')
    (hobs : ∀ q a w w' t, Runs E w (impl q) t (.ok a) w' → t.filterMap f = g ⟨q, a⟩) :
    tr.filterMap f = outer.flatMap g := by
  induction h with
  | nil => rfl
  | cons hinner _ ih => rw [List.filterMap_append, List.flatMap_cons, ih, hobs _ _ _ _ _ hinner]

/-- A call of a linked program on its way, and the call of the program that it was made for. -/
theorem Advances.link_split [∀ q, Nonempty (A' q)] {x : Coro Q A ε α} {p : Coro Q' A' ε α}
    {pre post : List ((q : Q') × A' q)} {event : (q : Q') × A' q}
    (h : Advances (x.link impl) (pre ++ event :: post) p) :
    ∃ outer₁ q a outer₂ r t s s', Runs Anything () x (outer₁ ++ ⟨q, a⟩ :: outer₂) r () ∧ pre = t ++ s ∧
      Implements Anything impl () outer₁ t () ∧ Runs Anything () (impl q) (s ++ event :: s') (.ok a) () := by
  obtain ⟨tr', r, hrest⟩ := Coro.exists_runs p
  have hruns := h.runs hrest
  rw [List.append_assoc, List.cons_append] at hruns
  obtain ⟨outer, hruns, himpl⟩ := runs_link_iff.1 hruns
  obtain ⟨outer₁, q, a, outer₂, t, s, s', _, _, rfl, hpre, hearlier, hrun⟩ := himpl.split rfl
  exact ⟨outer₁, q, a, outer₂, r, t, s, s', hruns, hpre, hearlier, hrun⟩

end Aimw.Lib.Coro
