import Aimw.Lib.Redaction
import Mathlib.Data.List.TakeWhile

/-!
# The edges of matches

What stands next to the matches of a pattern that asks for no word boundaries.

* `Regex.Greedy` — the match that is tried first does not stop in front of certain letters;
* `between_split` — a segment between the pieces of a scan;
* `Scanned.not_longer` — no letter in front of a match could have begun it;
* `found_barriers`, `found_plus` — runs of letters, taken apart by what stands between them;
* `Scanned.keeps` — a scan keeps what no match overlaps;
* `unclean_between_iff`, `unclean_leftover_iff` — a pattern is found in what is left over if it is found apart from the
  matches of the first pass, where a match counts as the end of the text.
-/

namespace Aimw.Lib

variable {α : Type}

namespace Regex

/-- Behind the match that is tried first, no letter of `more` stands. -/
def Greedy (more : α → Bool) (r : Regex α) : Prop :=
  ∀ s n, (r.ends s).head? = some n → ∀ c, (s.drop n).head? = some c → more c = false

lemma greedy_star (p : α → Bool) : (star p).Greedy p := by
  intro s n hn c hc
  rw [ends, List.head?_reverse, List.range_succ, List.getLast?_concat] at hn
  obtain rfl := Option.some.inj hn
  have hdrop : s.drop (s.takeWhile p).length = s.dropWhile p :=
    calc s.drop (s.takeWhile p).length
      _ = (s.takeWhile p ++ s.dropWhile p).drop (s.takeWhile p).length := by rw [List.takeWhile_append_dropWhile]
      _ = s.dropWhile p := List.drop_left
  rw [hdrop] at hc
  have hstop := List.head?_dropWhile_not p s
  rw [hc] at hstop
  exact hstop

lemma Greedy.seq {more : α → Bool} {b : Regex α} (hb : b.Greedy more) (a : Regex α) : (seq a b).Greedy more := by
  intro s n hn c hc
  rw [ends, List.head?_flatMap] at hn
  obtain ⟨k, -, hk⟩ := List.exists_of_findSome?_eq_some hn
  rw [List.head?_map] at hk
  obtain ⟨j, hj, rfl⟩ := Option.map_eq_some_iff.1 hk
  rw [← List.drop_drop] at hc
  exact hb (s.drop k) j hj c hc

end Regex

/-- The text of a piece. -/
def Piece.text : Piece α → List α
  | keep c => [c]
  | hit m => m

lemma keep_text (s : List α) : (s.map Piece.keep).flatMap Piece.text = s := by
  rw [List.flatMap_map]
  exact List.flatMap_singleton' s

namespace Pattern

variable {word more : α → Bool} {p q : Pattern α} {x : Option α} {s : List α} {ps : List (Piece α)}

lemma matchAt_of_unbounded (hp : p.bounded = false) : p.matchAt word x s = (p.core.ends s).head? := by
  unfold matchAt
  cases p.core.ends s with
  | nil => rfl
  | cons n ns => simp [hp]

/-- Without word boundaries, it does not matter what a word is. -/
lemma found_of_unbounded (hp : p.bounded = false) (word' : α → Bool) : p.found word s = p.found word' s := by
  have hscan : ∀ (s : List α) (x y : Option α) (k : ℕ), p.scan word x k s = p.scan word' y k s := by
    intro s
    induction s with
    | nil =>
      rintro x y (_ | k)
      · rfl
      · rfl
    | cons c s ih =>
      rintro x y (_ | k)
      · rw [scan, scan, matchAt_of_unbounded hp, matchAt_of_unbounded hp]
        cases (p.core.ends (c :: s)).head? with
        | none => exact congrArg (Piece.keep c :: ·) (ih _ _ _)
        | some n => exact congrArg (Piece.hit _ :: ·) (ih _ _ _)
      · exact ih _ _ _
  rw [found, found, hscan]

/-- Barriers between two texts take apart what is found. -/
lemma found_barriers {sep : List α} (hsep : ∀ b ∈ sep, p.Barrier word b) (hne : sep ≠ []) (f r : List α) :
    p.found word (f ++ (sep ++ r)) = p.found word f ++ p.found word r := by
  induction sep generalizing f with
  | nil => exact absurd rfl hne
  | cons b sep ih =>
    obtain ⟨hb, hsep⟩ := List.forall_mem_cons.1 hsep
    rw [List.cons_append, found_barrier hb]
    cases sep with
    | nil => rfl
    | cons b' sep => exact congrArg (p.found word f ++ ·) (ih hsep (List.cons_ne_nil b' sep) [])

/-- A run of letters is found whole. -/
lemma found_plus {letter : α → Bool} (hcore : p.core = .plus letter) (hp : p.bounded = false)
    (hs : ∀ c ∈ s, letter c = true) (hne : s ≠ []) : p.found word s = [s] := by
  obtain ⟨c, s, rfl⟩ := List.exists_cons_of_ne_nil hne
  obtain ⟨hc, hs⟩ := List.forall_mem_cons.1 hs
  have hlen : (s.takeWhile letter).length = s.length := by rw [List.takeWhile_eq_self_iff.2 hs]
  have hmatch : p.matchAt word none (c :: s) = some (s.length + 1) := by
    rw [matchAt_of_unbounded hp, hcore, Regex.plus, Regex.ends, Regex.ends, List.head?_cons, Option.any_some, if_pos hc]
    simp [Regex.ends, hlen, List.range_succ, Nat.add_comm]
  rw [found, scan, hmatch]
  simp only [Nat.add_sub_cancel, scan_skip le_rfl, List.drop_length, scan, List.take_succ_cons, List.take_length]
  rfl

/-- The pieces of a scan are the text. -/
lemma scan_text {k : ℕ} (hk : k ≤ s.length) : (p.scan word x k s).flatMap Piece.text = s.drop k := by
  induction s generalizing x k with
  | nil =>
    obtain rfl := Nat.le_zero.1 hk
    rfl
  | cons c s ih =>
    cases k with
    | succ k => exact ih (by simpa using hk)
    | zero =>
      rw [scan]
      cases hmatch : p.matchAt word x (c :: s) with
      | none => exact congrArg (c :: ·) (ih (Nat.zero_le _))
      | some n =>
        obtain ⟨hpos, hle, -⟩ := fits_of_matchAt hmatch
        obtain ⟨n, rfl⟩ := Nat.exists_eq_succ_of_ne_zero hpos.ne'
        have hle' : n ≤ s.length := by simpa using hle
        show (c :: s).take (n + 1) ++ (p.scan word (some c) n s).flatMap Piece.text = c :: s
        rw [ih hle', List.take_succ_cons, List.cons_append, List.take_append_drop]

/-- What stands behind a match could not have been taken by it. -/
lemma scan_hit_stops (hp : p.bounded = false) (hgreedy : p.core.Greedy more) {k : ℕ} (hk : k ≤ s.length)
    {ps₁ ps₂ : List (Piece α)} {m : List α} (h : p.scan word x k s = ps₁ ++ .hit m :: ps₂) :
    ∀ c, (ps₂.flatMap Piece.text).head? = some c → more c = false := by
  induction s generalizing x k ps₁ with
  | nil => cases k <;> cases ps₁ <;> cases h
  | cons d s ih =>
    cases k with
    | succ k => exact ih (by simpa using hk) h
    | zero =>
      rw [scan] at h
      cases hmatch : p.matchAt word x (d :: s) with
      | none =>
        rw [hmatch] at h
        cases ps₁ with
        | nil => cases h
        | cons piece ps₁ => exact ih (Nat.zero_le _) (List.cons.inj h).2
      | some n =>
        obtain ⟨hpos, hle, -⟩ := fits_of_matchAt hmatch
        obtain ⟨n, rfl⟩ := Nat.exists_eq_succ_of_ne_zero hpos.ne'
        have hle' : n ≤ s.length := by simpa using hle
        rw [hmatch] at h
        cases ps₁ with
        | cons piece ps₁ => exact ih hle' (List.cons.inj h).2
        | nil =>
          rw [← (List.cons.inj h).2]
          intro c hc
          rw [scan_text (by simpa using hle')] at hc
          rw [matchAt_of_unbounded hp] at hmatch
          exact hgreedy (d :: s) (n + 1) hmatch c hc

lemma Scanned.hit_matches {ps₁ ps₂ : List (Piece α)} {m : List α} (h : p.Scanned word x s (ps₁ ++ .hit m :: ps₂)) :
    p.core.Matches m := by
  induction ps₁ generalizing x s with
  | nil =>
    cases h with
    | hit hfits _ => exact hfits.1
  | cons piece ps₁ ih =>
    cases h with
    | keep _ h => exact ih h
    | hit _ h => exact ih h

/-- A letter in front of a match could not have begun it. -/
lemma Scanned.not_longer (hp : p.bounded = false) {ps₁ ps₂ : List (Piece α)} {c : α} {m : List α}
    (h : p.Scanned word x s (ps₁ ++ .keep c :: .hit m :: ps₂)) : ¬ p.core.Matches (c :: m) := by
  induction ps₁ generalizing x s with
  | nil =>
    cases h with
    | keep hno h =>
      cases h with
      | hit _ _ => exact fun hm => hno (c :: m) _ rfl ⟨hm, fun hb => absurd (hp.symm.trans hb) Bool.false_ne_true⟩
  | cons piece ps₁ ih =>
    cases h with
    | keep _ h => exact ih h
    | hit _ h => exact ih h

/-! ## Segments and their neighbours -/

/-- The first piece is a match. -/
def BeforeHit (ps : List (Piece α)) : Prop := ∃ m ps₀, ps = .hit m :: ps₀

/-- The pieces end here, or a match follows. -/
def AtHit (ps : List (Piece α)) : Prop := ps = [] ∨ BeforeHit ps

lemma lead_split (ps : List (Piece α)) : ∃ ps₂, ps = (segments ps).1.map .keep ++ ps₂ ∧ AtHit ps₂ := by
  induction ps with
  | nil => exact ⟨[], rfl, Or.inl rfl⟩
  | cons piece ps ih =>
    cases piece with
    | hit m => exact ⟨.hit m :: ps, rfl, Or.inr ⟨m, ps, rfl⟩⟩
    | keep c =>
      obtain ⟨ps₂, hps, hedge⟩ := ih
      exact ⟨ps₂, congrArg (Piece.keep c :: ·) hps, hedge⟩

lemma rest_split (ps : List (Piece α)) : ∀ mf ∈ (segments ps).2,
    ∃ ps₁ ps₂, ps = ps₁ ++ .hit mf.1 :: (mf.2.map .keep ++ ps₂) ∧ AtHit ps₂ := by
  induction ps with
  | nil => simp [segments]
  | cons piece ps ih =>
    cases piece with
    | keep c =>
      intro mf hmf
      obtain ⟨ps₁, ps₂, hps, hedge⟩ := ih mf hmf
      exact ⟨.keep c :: ps₁, ps₂, congrArg (Piece.keep c :: ·) hps, hedge⟩
    | hit m =>
      intro mf hmf
      rcases List.mem_cons.1 hmf with rfl | hmf
      · obtain ⟨ps₂, hps, hedge⟩ := lead_split ps
        exact ⟨[], ps₂, congrArg (Piece.hit m :: ·) hps, hedge⟩
      · obtain ⟨ps₁, ps₂, hps, hedge⟩ := ih mf hmf
        exact ⟨.hit m :: ps₁, ps₂, congrArg (Piece.hit m :: ·) hps, hedge⟩

/-- A segment stands behind a match or at the beginning, and in front of a match or at the end. -/
theorem between_split {g : List α} (h : g ∈ p.between word s) :
    ∃ ps₁ ps₂, p.scan word none 0 s = ps₁ ++ (g.map .keep ++ ps₂) ∧ (ps₁ = [] ∨ ∃ ps₀ m, ps₁ = ps₀ ++ [.hit m]) ∧
      AtHit ps₂ := by
  rcases List.mem_cons.1 h with rfl | h
  · obtain ⟨ps₂, hps, hedge⟩ := lead_split (p.scan word none 0 s)
    exact ⟨[], ps₂, hps, Or.inl rfl, hedge⟩
  · obtain ⟨mf, hmf, rfl⟩ := List.mem_map.1 h
    obtain ⟨ps₁, ps₂, hps, hedge⟩ := rest_split _ mf hmf
    exact ⟨ps₁ ++ [.hit mf.1], ps₂, by rw [hps]; simp, Or.inr ⟨ps₁, mf.1, rfl⟩, hedge⟩

/-- The match before a segment did not take its first letter. -/
lemma behind_hit (hp : p.bounded = false) (hgreedy : p.core.Greedy more) {ps₁ ps₂ : List (Piece α)} {m g : List α}
    {c : α} (h : p.scan word none 0 s = ps₁ ++ [.hit m] ++ ((c :: g).map .keep ++ ps₂)) : more c = false := by
  rw [List.append_assoc, List.singleton_append] at h
  refine scan_hit_stops hp hgreedy (Nat.zero_le _) h c ?_
  rw [List.flatMap_append, keep_text]
  rfl

/-- The match behind a segment could not have begun with its last letter. -/
lemma before_hit (hp : p.bounded = false) {ps₁ ps₂ : List (Piece α)} {m g : List α} {c : α}
    (h : p.scan word none 0 s = ps₁ ++ ((g ++ [c]).map .keep ++ .hit m :: ps₂)) :
    p.core.Matches m ∧ ¬ p.core.Matches (c :: m) := by
  have hscanned := scanned_scan word p none s
  have hsplit : ps₁ ++ ((g ++ [c]).map .keep ++ .hit m :: ps₂) =
      (ps₁ ++ g.map .keep) ++ .keep c :: .hit m :: ps₂ := by simp
  rw [h, hsplit] at hscanned
  refine ⟨?_, hscanned.not_longer hp⟩
  rw [List.append_cons] at hscanned
  exact hscanned.hit_matches

/-! ## Parts that no match overlaps -/

/-- The last piece is a match. -/
def BehindHit (ps : List (Piece α)) : Prop := ∃ ps₀ m, ps = ps₀ ++ [.hit m]

lemma segments_keep (g : List α) (ps : List (Piece α)) :
    segments (g.map .keep ++ ps) = (g ++ (segments ps).1, (segments ps).2) := by
  induction g with
  | nil => rfl
  | cons c g ih => rw [List.map_cons, List.cons_append, segments, ih, List.cons_append]

lemma AtHit.segments_fst {ps : List (Piece α)} (h : AtHit ps) : (segments ps).1 = [] := by
  rcases h with rfl | ⟨m, ps, rfl⟩
  · rfl
  · rfl

lemma mem_segments (ps₁ ps₂ : List (Piece α)) (m : List α) :
    (m, (segments ps₂).1) ∈ (segments (ps₁ ++ .hit m :: ps₂)).2 := by
  induction ps₁ with
  | nil => exact List.mem_cons_self
  | cons piece ps₁ ih =>
    cases piece with
    | keep c => exact ih
    | hit m' => exact List.mem_cons_of_mem _ ih

lemma trail_split (ps : List (Piece α)) : ∃ (ps₀ : List (Piece α)) (l : List α), ps = ps₀ ++ l.map .keep ∧
    (ps₀ = [] ∨ BehindHit ps₀) := by
  induction ps using List.reverseRecOn with
  | nil => exact ⟨[], [], rfl, Or.inl rfl⟩
  | append_singleton ps piece ih =>
    cases piece with
    | hit m => exact ⟨ps ++ [.hit m], [], by simp, Or.inr ⟨ps, m, rfl⟩⟩
    | keep c =>
      obtain ⟨ps₀, l, rfl, hedge⟩ := ih
      exact ⟨ps₀, l ++ [c], by simp, hedge⟩

/-- What is kept between two matches is a segment. -/
lemma mem_between {ps₁ ps₂ : List (Piece α)} {g : List α} (h : p.scan word none 0 s = ps₁ ++ (g.map .keep ++ ps₂))
    (hbefore : ps₁ = [] ∨ BehindHit ps₁) (hbehind : AtHit ps₂) : g ∈ p.between word s := by
  have hlead : (segments (g.map .keep ++ ps₂)).1 = g := by
    rw [segments_keep, hbehind.segments_fst, List.append_nil]
  rw [between, h]
  rcases hbefore with rfl | ⟨ps, m, rfl⟩
  · rw [List.nil_append, hlead]
    exact List.mem_cons_self
  · refine List.mem_cons_of_mem _ (List.mem_map.2 ⟨(m, g), ?_, rfl⟩)
    rw [List.append_assoc, List.singleton_append]
    have hmem := mem_segments ps (g.map .keep ++ ps₂) m
    rwa [hlead] at hmem

/-- What is kept is part of a segment, and at the ends of the segment stand matches. -/
lemma exists_between {ps₁ ps₂ : List (Piece α)} {m : List α}
    (h : p.scan word none 0 s = ps₁ ++ (m.map .keep ++ ps₂)) :
    ∃ l r, l ++ m ++ r ∈ p.between word s ∧
      (l = [] ∨ ¬ BehindHit ps₁ ∧ l.getLast? = (ps₁.flatMap Piece.text).getLast?) ∧
      (r = [] ∨ ¬ BeforeHit ps₂ ∧ r.head? = (ps₂.flatMap Piece.text).head?) := by
  obtain ⟨ps₀, l, rfl, hbefore⟩ := trail_split ps₁
  obtain ⟨ps₃, hps₂, hbehind⟩ := lead_split ps₂
  generalize (segments ps₂).1 = r at hps₂
  subst hps₂
  have hscan : p.scan word none 0 s = ps₀ ++ ((l ++ m ++ r).map .keep ++ ps₃) := by
    rw [h]
    simp
  refine ⟨l, r, mem_between hscan hbefore hbehind, ?_, ?_⟩
  · rcases List.eq_nil_or_concat' l with rfl | ⟨l, c, rfl⟩
    · exact Or.inl rfl
    · refine Or.inr ⟨?_, ?_⟩
      · rintro ⟨ps, m', hps⟩
        rw [List.map_append, ← List.append_assoc] at hps
        cases (List.append_inj' hps rfl).2
      · rw [List.flatMap_append, keep_text, ← List.append_assoc, List.getLast?_concat, List.getLast?_concat]
  · cases r with
    | nil => exact Or.inl rfl
    | cons c r =>
      refine Or.inr ⟨?_, ?_⟩
      · rintro ⟨m', ps, hps⟩
        cases hps
      · rw [List.flatMap_append, keep_text]
        rfl

/-- `q` is found in a part of the text that no match of `p` overlaps, where a match of `p` counts as the end of the
text. -/
def FoundApart (word : α → Bool) (p q : Pattern α) (s : List α) : Prop :=
  ∃ ps₁ m ps₂, p.scan word none 0 s = ps₁ ++ (m.map .keep ++ ps₂) ∧ q.core.Matches m ∧ (q.bounded = true →
    (BehindHit ps₁ ∨ boundary word (ps₁.flatMap Piece.text).getLast? m.head? = true) ∧
      (BeforeHit ps₂ ∨ boundary word m.getLast? (ps₂.flatMap Piece.text).head? = true))

/-- Every match begins and ends with a letter of a word. -/
def Wordlike (word : α → Bool) (q : Pattern α) : Prop :=
  ∀ m, q.core.Matches m → m.head?.any word = true ∧ m.getLast?.any word = true

/-- **Which patterns are found in a segment.** -/
theorem unclean_between_iff (hwordlike : q.bounded = true → q.Wordlike word) :
    (∃ g ∈ p.between word s, ¬ q.Clean word g) ↔ p.FoundApart word q s := by
  constructor
  · rintro ⟨g, hg, hunclean⟩
    obtain ⟨ps₁, ps₂, hscan, hbefore, hbehind⟩ := between_split hg
    unfold Clean CleanFrom at hunclean
    push Not at hunclean
    obtain ⟨l, m, r, rfl, hm, hedges⟩ := hunclean
    refine ⟨ps₁ ++ l.map .keep, m, r.map .keep ++ ps₂, by rw [hscan]; simp, hm, fun hbounded => ?_⟩
    obtain ⟨hleft, hright⟩ := hedges hbounded
    constructor
    · rcases List.eq_nil_or_concat' l with rfl | ⟨l, c, rfl⟩
      · rcases hbefore with rfl | ⟨ps, m', rfl⟩
        · exact Or.inr hleft
        · exact Or.inl ⟨ps, m', by simp⟩
      · right
        rw [List.flatMap_append, keep_text, List.getLast?_append_of_ne_nil _ (by simp)]
        simpa using hleft
    · cases r with
      | nil =>
        rcases hbehind with rfl | hhit
        · exact Or.inr hright
        · exact Or.inl hhit
      | cons c r =>
        right
        rw [List.flatMap_append, keep_text]
        exact hright
  · rintro ⟨ps₁, m, ps₂, hscan, hm, hedges⟩
    obtain ⟨l, r, hg, hbefore, hbehind⟩ := exists_between hscan
    refine ⟨_, hg, fun hclean => hclean l m r rfl ⟨hm, fun hbounded => ?_⟩⟩
    obtain ⟨hfirst, hlast⟩ := hwordlike hbounded m hm
    obtain ⟨hleft, hright⟩ := hedges hbounded
    constructor
    · rcases hbefore with rfl | ⟨hnot, hl⟩
      · simpa [boundary] using hfirst
      · rw [Option.or_none, hl]
        exact hleft.resolve_left hnot
    · rcases hbehind with rfl | ⟨hnot, hr⟩
      · simpa [boundary] using hlast
      · rw [hr]
        exact hright.resolve_left hnot

/-! ## Parts that no pass cuts -/

/-- No match of `p` overlaps `m`: none has an end of it, and none has room inside. -/
def Avoids (p : Pattern α) (m : List α) : Prop :=
  ∀ m', p.core.Matches m' → (∀ c, m.head? = some c → c ∉ m') ∧ (∀ c, m.getLast? = some c → c ∉ m') ∧ ¬ m' <:+: m

lemma Scanned.text (h : p.Scanned word x s ps) : ps.flatMap Piece.text = s := by
  induction h with
  | nil x => rfl
  | @keep x c s ps _ _ ih => exact congrArg (c :: ·) ih
  | @hit x m s ps _ _ ih => exact congrArg (m ++ ·) ih

/-- No match begins in a part that is avoided, and so the rest of the part is kept. -/
lemma Scanned.keeps_tail {m m₂ r : List α} (havoids : p.Avoids m) (hsuffix : m₂ <:+ m)
    (h : p.Scanned word x (m₂ ++ r) ps) : ∃ ps₂, ps = m₂.map .keep ++ ps₂ ∧ ps₂.flatMap Piece.text = r := by
  induction m₂ generalizing x ps with
  | nil => exact ⟨ps, rfl, h.text⟩
  | cons c m₂ ih =>
    have htail : m₂ <:+ m := (List.suffix_cons c m₂).trans hsuffix
    generalize hs : c :: m₂ ++ r = s at h
    cases h with
    | nil => cases hs
    | @keep _ d s ps _ h =>
      obtain ⟨rfl, rfl⟩ := List.cons.inj hs
      obtain ⟨ps₂, rfl, htext⟩ := ih htail h
      exact ⟨ps₂, rfl, htext⟩
    | @hit _ m' s ps hfits h =>
      obtain ⟨-, hlast, hroom⟩ := havoids m' hfits.1
      rcases List.append_eq_append_iff.1 hs with ⟨a, rfl, -⟩ | ⟨a, hm', -⟩
      · -- the match has the last letter of the part
        obtain ⟨m₁, d, hd⟩ := (List.eq_nil_or_concat' (c :: m₂)).resolve_left (List.cons_ne_nil c m₂)
        obtain ⟨t, ht⟩ := hsuffix
        refine absurd (List.mem_append_left a ?_) (hlast d ?_)
        · rw [hd]
          simp
        · rw [← ht, hd, ← List.append_assoc, List.getLast?_concat]
      · exact absurd (List.IsInfix.trans ⟨[], a, hm'.symm⟩ hsuffix.isInfix) hroom

/-- A scan keeps what no match overlaps. -/
theorem Scanned.keeps {l m r : List α} (havoids : p.Avoids m) (hne : m ≠ [])
    (h : p.Scanned word x (l ++ (m ++ r)) ps) :
    ∃ ps₁ ps₂, ps = ps₁ ++ (m.map .keep ++ ps₂) ∧ ps₁.flatMap Piece.text = l ∧ ps₂.flatMap Piece.text = r := by
  generalize hs : l ++ (m ++ r) = s at h
  induction h generalizing l with
  | nil x =>
    simp only [List.append_eq_nil_iff] at hs
    exact absurd hs.2.1 hne
  | @keep x c s ps hno h ih =>
    cases l with
    | nil =>
      have hscan : p.Scanned word x (m ++ r) (.keep c :: ps) := by
        rw [show m ++ r = c :: s from hs]
        exact .keep hno h
      obtain ⟨ps₂, hps, htext⟩ := hscan.keeps_tail havoids List.suffix_rfl
      exact ⟨[], ps₂, hps, rfl, htext⟩
    | cons d l =>
      obtain ⟨rfl, hs'⟩ := List.cons.inj hs
      obtain ⟨ps₁, ps₂, rfl, htext, hrest⟩ := ih hs'
      exact ⟨.keep d :: ps₁, ps₂, rfl, congrArg (d :: ·) htext, hrest⟩
  | @hit x m' s ps hfits h ih =>
    rcases List.append_eq_append_iff.1 hs with ⟨a, rfl, hs'⟩ | ⟨a, rfl, hs'⟩
    · cases a with
      | nil =>
        obtain ⟨ps₁, ps₂, rfl, htext, hrest⟩ := ih (l := []) hs'
        exact ⟨.hit (l ++ []) :: ps₁, ps₂, rfl, by simp [Piece.text, htext], hrest⟩
      | cons d a =>
        -- the match has the first letter of the part
        obtain ⟨c, m, rfl⟩ := List.exists_cons_of_ne_nil hne
        obtain ⟨rfl, -⟩ := List.cons.inj hs'
        exact absurd (by simp) ((havoids _ hfits.1).1 c rfl)
    · obtain ⟨ps₁, ps₂, rfl, htext, hrest⟩ := ih hs'.symm
      exact ⟨.hit m' :: ps₁, ps₂, rfl, congrArg (m' ++ ·) htext, hrest⟩

/-- What is found where no match of `p` can overlap it is found apart from the matches of `p`. -/
theorem foundApart_of_avoids (havoids : ∀ m, q.core.Matches m → p.Avoids m) (h : ¬ q.Clean word s) :
    p.FoundApart word q s := by
  unfold Clean CleanFrom at h
  push Not at h
  obtain ⟨l, m, r, rfl, hfits⟩ := h
  have hscan := scanned_scan word p none (l ++ (m ++ r))
  obtain ⟨ps₁, ps₂, hps, htext, hrest⟩ := hscan.keeps (havoids m hfits.1) hfits.ne_nil
  rw [List.append_assoc]
  refine ⟨ps₁, m, ps₂, hps, hfits.1, fun hbounded => ?_⟩
  obtain ⟨hleft, hright⟩ := hfits.2 hbounded
  rw [Option.or_none] at hleft
  rw [htext, hrest]
  exact ⟨Or.inr hleft, Or.inr hright⟩

end Pattern

/-- **Which patterns are found in what is left over**, if no later pass overlaps their matches. -/
theorem unclean_leftover_iff {word : α → Bool} {first : Pass α} {passes : List (Pass α)} {q : Pattern α} {s : List α}
    (hwordlike : q.bounded = true → q.Wordlike word)
    (hpasses : ∀ pass ∈ passes, pass.pattern.bounded = true)
    (havoids : ∀ pass ∈ passes, ∀ m, q.core.Matches m → pass.pattern.Avoids m) :
    (∃ f ∈ leftovers word (first :: passes) s, ¬ q.Clean word f) ↔ first.pattern.FoundApart word q s := by
  rw [← Pattern.unclean_between_iff (p := first.pattern) (s := s) hwordlike]
  constructor
  · rintro ⟨f, hf, hunclean⟩
    obtain ⟨g, hg, hfg⟩ := List.mem_flatMap.1 hf
    exact ⟨g, hg, fun h => hunclean (clean_leftover (fun pass hpass _ => hpasses pass hpass) h hfg)⟩
  · rintro ⟨g, hg, hunclean⟩
    have hlater : ∃ f ∈ leftovers word passes g, ¬ q.Clean word f := by
      clear hg
      induction passes generalizing g with
      | nil => exact ⟨g, List.mem_singleton_self g, hunclean⟩
      | cons pass passes ih =>
        rw [List.forall_mem_cons] at hpasses havoids
        have hfound := Pattern.foundApart_of_avoids havoids.1 hunclean
        obtain ⟨g', hg', hunclean'⟩ := (Pattern.unclean_between_iff hwordlike).2 hfound
        obtain ⟨f, hf, hf'⟩ := ih hpasses.2 havoids.2 g' hunclean'
        exact ⟨f, List.mem_flatMap.2 ⟨g', hg', hf⟩, hf'⟩
    obtain ⟨f, hf, hf'⟩ := hlater
    exact ⟨f, List.mem_flatMap.2 ⟨g, hg, hf⟩, hf'⟩

end Aimw.Lib
