import Mathlib.Tactic

/-!
# Regular expressions

A backtracking matcher over any alphabet.

* `Regex.Matches` — the language, `Regex.ends` — the matches in the order in which the matcher tries them
  (`mem_ends_iff`);
* `Regex.Within`, `Regex.Needs` — letters that every match keeps to, or has one of;
* `Regex.Starts`, `Regex.Stops` — letters that every match begins or ends with;
* `Regex.comap` — an expression over letters that carry something more.
-/

namespace Aimw.Lib

variable {α β : Type}

inductive Regex (α : Type) : Type
  | eps
  | cls (p : α → Bool)
  | star (p : α → Bool)
  | seq (a b : Regex α)
  | alt (a b : Regex α)

namespace Regex

/-- `a?` -/
def opt (a : Regex α) : Regex α := alt a eps

/-- `[p]+` -/
def plus (p : α → Bool) : Regex α := seq (cls p) (star p)

/-- `a{0,n}` -/
def upTo (a : Regex α) : ℕ → Regex α
  | 0 => eps
  | n + 1 => opt (seq a (upTo a n))

/-- `a{m,m+n}` -/
def reps (a : Regex α) (m n : ℕ) : Regex α :=
  match m with
  | 0 => upTo a n
  | m + 1 => seq a (reps a m n)

/-! ## Language and matcher -/

def Matches : Regex α → List α → Prop
  | eps, s => s = []
  | cls p, s => ∃ c, s = [c] ∧ p c = true
  | star p, s => ∀ c ∈ s, p c = true
  | seq a b, s => ∃ s₁ s₂, s = s₁ ++ s₂ ∧ a.Matches s₁ ∧ b.Matches s₂
  | alt a b, s => a.Matches s ∨ b.Matches s

/-- The lengths of the matches at the head of a text: greedy first, and the left alternative first. -/
def ends : Regex α → List α → List ℕ
  | eps, _ => [0]
  | cls p, s => if s.head?.any p then [1] else []
  | star p, s => (List.range ((s.takeWhile p).length + 1)).reverse
  | seq a b, s => (a.ends s).flatMap fun n => (b.ends (s.drop n)).map (n + ·)
  | alt a b, s => a.ends s ++ b.ends s

lemma le_takeWhile_length_iff {p : α → Bool} {s : List α} {n : ℕ} :
    n ≤ (s.takeWhile p).length ↔ n ≤ s.length ∧ ∀ c ∈ s.take n, p c = true := by
  induction s generalizing n with
  | nil => simp
  | cons c s ih =>
    cases n with
    | zero => simp
    | succ n =>
      cases hc : p c with
      | false => simp [hc]
      | true => simp [hc, ih]

/-- The matcher finds all matches, and nothing else. -/
theorem mem_ends_iff {r : Regex α} {s : List α} {n : ℕ} : n ∈ r.ends s ↔ n ≤ s.length ∧ r.Matches (s.take n) := by
  induction r generalizing s n with
  | eps =>
    simp only [ends, List.mem_singleton, Matches, List.take_eq_nil_iff]
    constructor
    · rintro rfl
      exact ⟨Nat.zero_le _, Or.inl rfl⟩
    · rintro ⟨hn, rfl | rfl⟩
      · rfl
      · simpa using hn
  | cls p =>
    cases s with
    | nil => simp [ends, Matches]
    | cons c s =>
      simp only [ends, List.head?_cons, Option.any_some, Matches]
      constructor
      · intro hn
        cases hc : p c with
        | true =>
          obtain rfl : n = 1 := by simpa [hc] using hn
          exact ⟨by simp, c, rfl, hc⟩
        | false => simp [hc] at hn
      · rintro ⟨hn, d, hd, hp⟩
        have hlen := congrArg List.length hd
        obtain rfl : n = 1 := by
          simp only [List.length_take, List.length_singleton] at hlen
          omega
        obtain rfl : c = d := by simpa using hd
        simp [hp]
  | star p => simp only [ends, List.mem_reverse, List.mem_range, Nat.lt_succ_iff, le_takeWhile_length_iff, Matches]
  | seq a b iha ihb =>
    simp only [ends, List.mem_flatMap, List.mem_map, iha, ihb, Matches, List.length_drop]
    constructor
    · rintro ⟨k, ⟨hk, ha⟩, j, ⟨hj, hb⟩, rfl⟩
      exact ⟨by omega, s.take k, (s.drop k).take j, List.take_add, ha, hb⟩
    · rintro ⟨hn, s₁, s₂, heq, ha, hb⟩
      have hlen := congrArg List.length heq
      rw [List.length_take, List.length_append, Nat.min_eq_left hn] at hlen
      have hs : s = s₁ ++ (s₂ ++ s.drop n) := by
        rw [← List.append_assoc, ← heq, List.take_append_drop]
      have h₁ : s.take s₁.length = s₁ := by
        rw [hs]
        exact List.take_left
      have h₂ : (s.drop s₁.length).take s₂.length = s₂ := by
        rw [hs, List.drop_left]
        exact List.take_left
      exact ⟨s₁.length, ⟨by omega, h₁.symm ▸ ha⟩, s₂.length, ⟨by omega, h₂.symm ▸ hb⟩, hlen.symm⟩
  | alt a b iha ihb =>
    simp only [ends, List.mem_append, iha, ihb, Matches]
    exact and_or_left.symm

lemma range_reverse_filter (k n : ℕ) :
    (List.range (k + 1)).reverse.filter (· ≤ n) = (List.range (min k n + 1)).reverse := by
  induction k with
  | zero => simp
  | succ k ih =>
    rw [List.range_succ, List.reverse_append, List.reverse_singleton, List.singleton_append, List.filter_cons]
    by_cases hk : k + 1 ≤ n
    · rw [if_pos (by simpa using hk), ih, Nat.min_eq_left hk, Nat.min_eq_left (by omega), List.range_succ (n := k + 1),
        List.reverse_append]
      rfl
    · rw [if_neg (by simpa using hk), ih, Nat.min_eq_right (by omega), Nat.min_eq_right (by omega)]

lemma takeWhile_append_length (p : α → Bool) (s t : List α) :
    min ((s ++ t).takeWhile p).length s.length = (s.takeWhile p).length := by
  refine eq_of_forall_le_iff fun n => ?_
  rw [le_min_iff, le_takeWhile_length_iff, le_takeWhile_length_iff]
  constructor
  · rintro ⟨⟨-, hall⟩, hn⟩
    exact ⟨hn, by rwa [List.take_append_of_le_length hn] at hall⟩
  · rintro ⟨hn, hall⟩
    refine ⟨⟨by rw [List.length_append]; omega, ?_⟩, hn⟩
    rwa [List.take_append_of_le_length hn]

lemma flatMap_filter_eq {γ : Type} {l : List β} {q : β → Bool} {f g : β → List γ}
    (hpos : ∀ x, q x = true → f x = g x) (hneg : ∀ x, q x = false → f x = []) :
    l.flatMap f = (l.filter q).flatMap g := by
  induction l with
  | nil => rfl
  | cons x l ih =>
    cases hx : q x with
    | false => rw [List.flatMap_cons, hneg x hx, List.filter_cons_of_neg (by simp [hx]), ih, List.nil_append]
    | true => rw [List.flatMap_cons, hpos x hx, List.filter_cons_of_pos hx, List.flatMap_cons, ih]

/-- A text that goes on only adds longer matches. -/
theorem ends_append (r : Regex α) (s t : List α) : (r.ends (s ++ t)).filter (· ≤ s.length) = r.ends s := by
  induction r generalizing s t with
  | eps => simp [ends]
  | cls p =>
    cases s with
    | nil =>
      simp only [ends, List.nil_append, List.head?_nil, Option.any_none, Bool.false_eq_true, if_false]
      split_ifs <;> simp
    | cons c s =>
      by_cases hc : p c = true
      · simp [ends, hc]
      · simp [ends, hc]
  | star p => rw [ends, ends, range_reverse_filter, takeWhile_append_length]
  | seq a b iha ihb =>
    rw [ends, ends, List.filter_flatMap, ← iha s t]
    refine flatMap_filter_eq (fun n hn => ?_) fun n hn => ?_
    · have hle : n ≤ s.length := of_decide_eq_true hn
      have hcomp : ((fun k => decide (k ≤ s.length)) ∘ (n + ·)) = fun k => decide (k ≤ (s.drop n).length) := by
        funext k
        simp only [Function.comp_apply, List.length_drop, decide_eq_decide]
        omega
      rw [List.filter_map, hcomp, List.drop_append_of_le_length hle, ihb]
    · have hlt : s.length < n := not_le.1 (of_decide_eq_false hn)
      have hnone : ((fun k => decide (k ≤ s.length)) ∘ (n + ·)) = fun _ => false := by
        funext k
        simp only [Function.comp_apply, decide_eq_false_iff_not]
        omega
      simp [List.filter_map, hnone]
  | alt a b iha ihb => simp only [ends, List.filter_append, iha, ihb]

/-! ## Letters of a match -/

/-- All letters of a match have `P`. -/
def Within (P : α → Prop) : Regex α → Prop
  | eps => True
  | cls p => ∀ c, p c = true → P c
  | star p => ∀ c, p c = true → P c
  | seq a b => a.Within P ∧ b.Within P
  | alt a b => a.Within P ∧ b.Within P

/-- Some letter of a match has `P`. -/
def Needs (P : α → Prop) : Regex α → Prop
  | eps => False
  | cls p => ∀ c, p c = true → P c
  | star _ => False
  | seq a b => a.Needs P ∨ b.Needs P
  | alt a b => a.Needs P ∧ b.Needs P

variable {P : α → Prop} {r : Regex α} {s : List α}

theorem Within.forall_mem (h : r.Within P) (hs : r.Matches s) : ∀ c ∈ s, P c := by
  induction r generalizing s with
  | eps => simp [show s = [] from hs]
  | cls p =>
    obtain ⟨c, rfl, hc⟩ := hs
    simpa using h c hc
  | star p => exact fun c hc => h c (hs c hc)
  | seq a b iha ihb =>
    obtain ⟨s₁, s₂, rfl, h₁, h₂⟩ := hs
    intro c hc
    exact (List.mem_append.1 hc).elim (iha h.1 h₁ c) (ihb h.2 h₂ c)
  | alt a b iha ihb => exact hs.elim (iha h.1) (ihb h.2)

theorem Needs.exists_mem (h : r.Needs P) (hs : r.Matches s) : ∃ c ∈ s, P c := by
  induction r generalizing s with
  | eps => exact h.elim
  | cls p =>
    obtain ⟨c, rfl, hc⟩ := hs
    exact ⟨c, List.mem_singleton_self c, h c hc⟩
  | star p => exact h.elim
  | seq a b iha ihb =>
    obtain ⟨s₁, s₂, rfl, h₁, h₂⟩ := hs
    rcases h with h | h
    · obtain ⟨c, hc, hP⟩ := iha h h₁
      exact ⟨c, List.mem_append_left _ hc, hP⟩
    · obtain ⟨c, hc, hP⟩ := ihb h h₂
      exact ⟨c, List.mem_append_right _ hc, hP⟩
  | alt a b iha ihb => exact hs.elim (iha h.1) (ihb h.2)

lemma Within.mono {Q : α → Prop} (hPQ : ∀ c, P c → Q c) (h : r.Within P) : r.Within Q := by
  induction r with
  | eps => trivial
  | cls p => exact fun c hc => hPQ c (h c hc)
  | star p => exact fun c hc => hPQ c (h c hc)
  | seq a b iha ihb => exact ⟨iha h.1, ihb h.2⟩
  | alt a b iha ihb => exact ⟨iha h.1, ihb h.2⟩

lemma Needs.mono {Q : α → Prop} (hPQ : ∀ c, P c → Q c) (h : r.Needs P) : r.Needs Q := by
  induction r with
  | eps => exact h
  | cls p => exact fun c hc => hPQ c (h c hc)
  | star p => exact h
  | seq a b iha ihb => exact h.imp iha ihb
  | alt a b iha ihb => exact ⟨iha h.1, ihb h.2⟩

lemma Needs.not_matches_nil (h : r.Needs P) : ¬ r.Matches [] := by
  intro hm
  obtain ⟨c, hc, -⟩ := h.exists_mem hm
  exact List.not_mem_nil hc

lemma Within.reps (h : r.Within P) (m n : ℕ) : (r.reps m n).Within P := by
  induction m with
  | zero =>
    induction n with
    | zero => trivial
    | succ n ih => exact ⟨⟨h, ih⟩, trivial⟩
  | succ m ih => exact ⟨h, ih⟩

lemma Needs.reps (h : r.Needs P) (m n : ℕ) : (r.reps (m + 1) n).Needs P := Or.inl h

/-! ## Ends of a match -/

/-- The first letter of a match has `P`. -/
def Starts (P : α → Prop) : Regex α → Prop
  | eps => True
  | cls p => ∀ c, p c = true → P c
  | star p => ∀ c, p c = true → P c
  | seq a b => a.Starts P ∧ (a.Needs (fun _ => True) ∨ b.Starts P)
  | alt a b => a.Starts P ∧ b.Starts P

/-- The last letter of a match has `P`. -/
def Stops (P : α → Prop) : Regex α → Prop
  | eps => True
  | cls p => ∀ c, p c = true → P c
  | star p => ∀ c, p c = true → P c
  | seq a b => b.Stops P ∧ (b.Needs (fun _ => True) ∨ a.Stops P)
  | alt a b => a.Stops P ∧ b.Stops P

theorem Starts.head (h : r.Starts P) (hs : r.Matches s) : ∀ c, s.head? = some c → P c := by
  induction r generalizing s with
  | eps => simp [show s = [] from hs]
  | cls p =>
    obtain ⟨d, rfl, hd⟩ := hs
    rintro c ⟨⟩
    exact h _ hd
  | star p => exact fun c hc => h c (hs c (List.mem_of_head? hc))
  | seq a b iha ihb =>
    obtain ⟨s₁, s₂, rfl, h₁, h₂⟩ := hs
    cases s₁ with
    | nil => exact ihb (h.2.resolve_left fun hneeds => hneeds.not_matches_nil h₁) h₂
    | cons d s₁ => exact fun c hc => iha h.1 h₁ c hc
  | alt a b iha ihb => exact hs.elim (iha h.1) (ihb h.2)

theorem Stops.last (h : r.Stops P) (hs : r.Matches s) : ∀ c, s.getLast? = some c → P c := by
  induction r generalizing s with
  | eps => simp [show s = [] from hs]
  | cls p =>
    obtain ⟨d, rfl, hd⟩ := hs
    rintro c ⟨⟩
    exact h _ hd
  | star p => exact fun c hc => h c (hs c (List.mem_of_getLast? hc))
  | seq a b iha ihb =>
    obtain ⟨s₁, s₂, rfl, h₁, h₂⟩ := hs
    rcases List.eq_nil_or_concat' s₂ with rfl | ⟨s₂, d, rfl⟩
    · rw [List.append_nil]
      exact iha (h.2.resolve_left fun hneeds => hneeds.not_matches_nil h₂) h₁
    · rw [List.getLast?_append_of_ne_nil _ (by simp)]
      exact ihb h.1 h₂
  | alt a b iha ihb => exact hs.elim (iha h.1) (ihb h.2)

lemma Stops.seq {a b : Regex α} (h : b.Stops P ∧ b.Needs fun _ => True) :
    (seq a b).Stops P ∧ (seq a b).Needs fun _ => True := ⟨⟨h.1, Or.inl h.2⟩, Or.inr h.2⟩

lemma Starts.reps (h : r.Starts P) (m n : ℕ) : (r.reps m n).Starts P := by
  induction m with
  | zero =>
    induction n with
    | zero => trivial
    | succ n ih => exact ⟨⟨h, Or.inr ih⟩, trivial⟩
  | succ m ih => exact ⟨h, Or.inr ih⟩

lemma Stops.reps (h : r.Stops P) (m n : ℕ) : (r.reps m n).Stops P := by
  induction m with
  | zero =>
    induction n with
    | zero => trivial
    | succ n ih => exact ⟨⟨ih, Or.inr h⟩, trivial⟩
  | succ m ih => exact ⟨ih, Or.inr h⟩

/-! ## Renaming letters -/

/-- The expression that reads a letter through `f`. -/
def comap (f : β → α) : Regex α → Regex β
  | eps => eps
  | cls p => cls (p ∘ f)
  | star p => star (p ∘ f)
  | seq a b => seq (a.comap f) (b.comap f)
  | alt a b => alt (a.comap f) (b.comap f)

theorem ends_comap (f : β → α) (r : Regex α) (s : List β) : (r.comap f).ends s = r.ends (s.map f) := by
  induction r generalizing s with
  | eps => rfl
  | cls p => cases s <;> rfl
  | star p => simp only [comap, ends, List.takeWhile_map, List.length_map]
  | seq a b iha ihb => simp only [comap, ends, iha, ihb, List.map_drop]
  | alt a b iha ihb => simp only [comap, ends, iha, ihb]

theorem matches_comap (f : β → α) (r : Regex α) (s : List β) : (r.comap f).Matches s ↔ r.Matches (s.map f) := by
  have h : s.length ∈ (r.comap f).ends s ↔ (s.map f).length ∈ r.ends (s.map f) := by
    rw [ends_comap, List.length_map]
  simp only [mem_ends_iff, le_refl, true_and, List.take_length] at h
  exact h

end Regex

end Aimw.Lib
