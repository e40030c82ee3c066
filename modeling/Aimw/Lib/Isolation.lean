import Aimw.Lib.Edges

/-!
# Scans of a part of a text

When a scan of a text finds in one of its parts what a scan of the part alone finds.

* `text_append_cases` — a scan can be cut where a text is cut, or a match stands over the cut;
* `scan_isolate` — the pieces of a part that no match leaves, if the same matches have room in the part alone.
-/

namespace Aimw.Lib

variable {α : Type}

namespace Pattern

variable {word : α → Bool} {p q : Pattern α} {x y : Option α} {s : List α} {ps : List (Piece α)}

/-! ## Steps of a scan -/

open Classical in
lemma matchAt_eq_find : q.matchAt word x s =
    (q.core.ends s).find? fun n => decide (q.Fits word x (s.take n) (s.drop n).head?) := by
  refine List.find?_congr fun n hn => Bool.eq_iff_iff.2 ?_
  obtain ⟨-, hm⟩ := Regex.mem_ends_iff.1 hn
  have hpos : n ≠ 0 := by
    rintro rfl
    exact q.nonempty (by simpa using hm)
  rw [decide_eq_true_iff, Fits, and_iff_right hm, List.head?_take, if_neg hpos]
  cases q.bounded with
  | false => simp
  | true => simp

/-- What the first step of a scan does. -/
lemma scan_cases (word : α → Bool) (q : Pattern α) (x : Option α) (s : List α) :
    (s = [] ∧ q.scan word x 0 s = []) ∨
    (∃ c r, s = c :: r ∧ q.matchAt word x s = none ∧ q.scan word x 0 s = .keep c :: q.scan word (some c) 0 r) ∨
    ∃ m r, s = m ++ r ∧ m ≠ [] ∧ q.matchAt word x s = some m.length ∧ q.Fits word x m r.head? ∧
      q.scan word x 0 s = .hit m :: q.scan word m.getLast? 0 r := by
  cases s with
  | nil => exact Or.inl ⟨rfl, rfl⟩
  | cons c s =>
    right
    cases hmatch : q.matchAt word x (c :: s) with
    | none => exact Or.inl ⟨c, s, rfl, rfl, by rw [scan, hmatch]⟩
    | some n =>
      obtain ⟨hpos, hle, hfits⟩ := fits_of_matchAt hmatch
      obtain ⟨k, rfl⟩ := Nat.exists_eq_succ_of_ne_zero hpos.ne'
      have hk : k ≤ s.length := by simpa using hle
      have hlength : ((c :: s).take (k + 1)).length = k + 1 := by simpa using hk
      refine Or.inr ⟨(c :: s).take (k + 1), (c :: s).drop (k + 1), (List.take_append_drop _ _).symm, by simp, ?_, hfits, ?_⟩
      · rw [hlength]
      · have hlast : ((c :: s).take (k + 1)).getLast? = (s.take k).getLast?.or (some c) := by
          rw [List.take_succ_cons, ← getLast?_cons_or c _ none, Option.or_none]
        rw [scan, hmatch, hlast]
        simp only [Nat.succ_eq_add_one, Nat.add_sub_cancel, scan_skip hk, List.drop_succ_cons]

lemma scan_of_matchAt {m r : List α} (hm : m ≠ []) (h : q.matchAt word x (m ++ r) = some m.length) :
    q.scan word x 0 (m ++ r) = .hit m :: q.scan word m.getLast? 0 r := by
  rcases scan_cases word q x (m ++ r) with ⟨hnil, -⟩ | ⟨c, r', -, hnone, -⟩ | ⟨m', r', hs, -, hsome, -, hscan⟩
  · exact absurd (List.append_eq_nil_iff.1 hnil).1 hm
  · rw [h] at hnone
    cases hnone
  · obtain ⟨rfl, rfl⟩ := List.append_inj hs (Option.some.inj (h.symm.trans hsome))
    exact hscan

/-- A scan goes on behind its first pieces. -/
lemma scan_append {A B : List (Piece α)} (h : q.scan word x 0 s = A ++ B) :
    s = A.flatMap Piece.text ++ B.flatMap Piece.text ∧
      B = q.scan word ((A.flatMap Piece.text).getLast?.or x) 0 (B.flatMap Piece.text) := by
  have hs : s = A.flatMap Piece.text ++ B.flatMap Piece.text := by
    rw [← List.flatMap_append, ← h]
    exact (scan_text (Nat.zero_le _)).symm
  refine ⟨hs, ?_⟩
  clear hs
  induction A generalizing x s with
  | nil =>
    rw [List.nil_append] at h
    subst h
    have htext : (q.scan word x 0 s).flatMap Piece.text = s := scan_text (Nat.zero_le _)
    simp [htext]
  | cons piece A ih =>
    rcases scan_cases word q x s with ⟨-, hscan⟩ | ⟨c, r, -, -, hscan⟩ | ⟨m, r, -, hne, -, -, hscan⟩
    · rw [hscan] at h
      cases h
    · rw [hscan] at h
      obtain ⟨rfl, h'⟩ := List.cons.inj h
      rw [List.flatMap_cons, Piece.text, List.singleton_append, getLast?_cons_or]
      exact ih h'
    · rw [hscan] at h
      obtain ⟨rfl, h'⟩ := List.cons.inj h
      have hlast : m.getLast?.or x = m.getLast? := by
        obtain ⟨m', c, rfl⟩ := (List.eq_nil_or_concat' m).resolve_left hne
        rw [List.getLast?_concat, Option.some_or]
      rw [List.flatMap_cons, Piece.text, List.getLast?_append, Option.or_assoc, hlast]
      exact ih h'

/-- A scan can be cut where its text is cut, or a match stands over the cut. -/
lemma text_append_cases {a b : List α} (h : ps.flatMap Piece.text = a ++ b) :
    (∃ A B, ps = A ++ B ∧ A.flatMap Piece.text = a ∧ B.flatMap Piece.text = b) ∨
      ∃ A m₁ m₂ B, ps = A ++ .hit (m₁ ++ m₂) :: B ∧ m₁ ≠ [] ∧ m₂ ≠ [] ∧
        a = A.flatMap Piece.text ++ m₁ ∧ b = m₂ ++ B.flatMap Piece.text := by
  induction ps generalizing a with
  | nil =>
    obtain ⟨rfl, rfl⟩ := List.append_eq_nil_iff.1 h.symm
    exact Or.inl ⟨[], [], rfl, rfl, rfl⟩
  | cons piece ps ih =>
    have hextend : ∀ a', a = piece.text ++ a' → ps.flatMap Piece.text = a' ++ b →
        (∃ A B, piece :: ps = A ++ B ∧ A.flatMap Piece.text = a ∧ B.flatMap Piece.text = b) ∨
          ∃ A m₁ m₂ B, piece :: ps = A ++ .hit (m₁ ++ m₂) :: B ∧ m₁ ≠ [] ∧ m₂ ≠ [] ∧
            a = A.flatMap Piece.text ++ m₁ ∧ b = m₂ ++ B.flatMap Piece.text := by
      rintro a' rfl h'
      rcases ih h' with ⟨A, B, rfl, rfl, hB⟩ | ⟨A, m₁, m₂, B, rfl, hm₁, hm₂, rfl, hb⟩
      · exact Or.inl ⟨piece :: A, B, rfl, rfl, hB⟩
      · exact Or.inr ⟨piece :: A, m₁, m₂, B, rfl, hm₁, hm₂, by simp, hb⟩
    rw [List.flatMap_cons] at h
    rcases List.append_eq_append_iff.1 h with ⟨a', ha, h'⟩ | ⟨m₂, hpiece, hb⟩
    · exact hextend a' ha h'
    · cases ha : a with
      | nil =>
        subst ha
        exact Or.inl ⟨[], piece :: ps, rfl, rfl, h⟩
      | cons c a' =>
        cases hm₂ : m₂ with
        | nil =>
          subst hm₂
          rw [← ha]
          exact hextend [] (by simpa using hpiece.symm) (by simpa using hb.symm)
        | cons d m₂' =>
          cases piece with
          | keep e =>
            have hlength := congrArg List.length hpiece
            simp [Piece.text, ha, hm₂] at hlength
          | hit m =>
            refine Or.inr ⟨[], a, m₂, ps, ?_, by simp [ha], by simp [hm₂], by simp [ha], hb⟩
            rw [← hpiece]
            rfl

/-! ## A part alone -/

section Isolate

variable {f t : List α}

lemma find?_eq_of_imp {l : List ℕ} {P Q : ℕ → Bool} (himp : ∀ n ∈ l, P n = true → Q n = true)
    (hfound : ∀ n, l.find? Q = some n → P n = true) : l.find? P = l.find? Q := by
  cases hQ : l.find? Q with
  | none =>
    rw [List.find?_eq_none] at hQ ⊢
    exact fun n hn hP => hQ n hn (himp n hn hP)
  | some n =>
    obtain ⟨-, l₁, l₂, rfl, hbefore⟩ := List.find?_eq_some_iff_append.1 hQ
    refine List.find?_eq_some_iff_append.2 ⟨hfound n hQ, l₁, l₂, rfl, fun k hk => ?_⟩
    rw [Bool.not_eq_true', Bool.eq_false_iff]
    intro hP
    have hnot := hbefore k hk
    rw [himp k (List.mem_append_left _ hk) hP] at hnot
    cases hnot

/-- A part begins with the same match alone, if there is room for it, and if it begins with no other. -/
lemma matchAt_isolate (hkeep : ∀ m r, f = m ++ r → q.Fits word y m r.head? → q.Fits word x m (r ++ t).head?)
    (hfound : ∀ n, q.matchAt word x (f ++ t) = some n →
      n ≤ f.length ∧ q.Fits word y (f.take n) (f.drop n).head?) :
    q.matchAt word y f = q.matchAt word x (f ++ t) := by
  classical
  rw [matchAt_eq_find, ← Regex.ends_append q.core f t, List.find?_filter, matchAt_eq_find]
  rw [matchAt_eq_find] at hfound
  refine find?_eq_of_imp (fun n _ h => ?_) fun n h => ?_
  · rw [decide_eq_true_iff, decide_eq_true_iff, decide_eq_true_iff] at h
    have hfits := hkeep (f.take n) (f.drop n) (List.take_append_drop n f).symm h.2
    rw [decide_eq_true_iff, List.take_append_of_le_length h.1, List.drop_append_of_le_length h.1]
    exact hfits
  · rw [decide_eq_true_iff, decide_eq_true_iff, decide_eq_true_iff]
    exact hfound n h

lemma eq_nil_of_text {A B : List (Piece α)} (h : q.scan word x 0 s = A ++ B) (hA : A.flatMap Piece.text = []) : A = [] := by
  cases A with
  | nil => rfl
  | cons piece A =>
    obtain ⟨hpiece, -⟩ := List.append_eq_nil_iff.1 hA
    rcases scan_cases word q x s with ⟨-, hscan⟩ | ⟨c, r, -, -, hscan⟩ | ⟨m, r, -, hne, -, -, hscan⟩
    · rw [hscan] at h
      cases h
    · rw [hscan] at h
      obtain ⟨rfl, -⟩ := List.cons.inj h
      cases hpiece
    · rw [hscan] at h
      obtain ⟨rfl, -⟩ := List.cons.inj h
      exact absurd hpiece hne

/-- The match at the head of a part has room in it. -/
lemma Fits.room {m r : List α} {A B : List (Piece α)} (hfits : q.Fits word x m r.head?)
    (h : q.scan word m.getLast? 0 r = A ++ B) (hopen : q.bounded = true → boundary word y m.head? = true)
    (hlast : A = [] → q.bounded = true → boundary word m.getLast? none = true) :
    q.Fits word y m (A.flatMap Piece.text).head? := by
  refine ⟨hfits.1, fun hb => ⟨hopen hb, ?_⟩⟩
  cases hA : A.flatMap Piece.text with
  | nil => exact hlast (eq_nil_of_text h hA) hb
  | cons c s =>
    have hr := (scan_append h).1
    rw [hA] at hr
    rw [hr] at hfits
    exact (hfits.2 hb).2

/-- A part at the beginning of a text is scanned as in the text, if no match leaves it, if a match at its end has room
in the part alone, and if no other has. -/
lemma scan_isolate_end {A B : List (Piece α)} (h : q.scan word x 0 (f ++ t) = A ++ B) (hA : A.flatMap Piece.text = f)
    (hclose : ∀ l m, f = l ++ m → q.Fits word (l.getLast?.or x) m none → q.bounded = true →
      boundary word m.getLast? t.head? = true)
    (hlast : ∀ m A', A = A' ++ [.hit m] → q.bounded = true → boundary word m.getLast? none = true) :
    q.scan word x 0 f = A := by
  induction hn : f.length using Nat.strong_induction_on generalizing x f A with
  | _ n ih =>
    subst hn
    have hkeep : ∀ m r, f = m ++ r → q.Fits word x m r.head? → q.Fits word x m (r ++ t).head? := by
      intro m r hf hfits
      refine ⟨hfits.1, fun hb => ⟨(hfits.2 hb).1, ?_⟩⟩
      cases r with
      | cons c r => exact (hfits.2 hb).2
      | nil => exact hclose [] m (by simpa using hf) hfits hb
    have hnil : A = [] → q.scan word x 0 f = A := by
      rintro rfl
      rw [← hA]
      rfl
    rcases scan_cases word q x (f ++ t) with ⟨-, hscan⟩ | ⟨c, r, hs, hmatch, hscan⟩ |
      ⟨m, r, hs, hne, hmatch, hfits, hscan⟩
    · rw [hscan] at h
      exact hnil (List.append_eq_nil_iff.1 h.symm).1
    · rw [hscan] at h
      cases A with
      | nil => exact hnil rfl
      | cons piece A =>
        obtain ⟨rfl, h'⟩ := List.cons.inj h
        subst hA
        obtain rfl : A.flatMap Piece.text ++ t = r := (List.cons.inj hs).2
        have hnone : q.matchAt word x (c :: A.flatMap Piece.text) = none := by
          rw [← hmatch]
          exact matchAt_isolate hkeep fun n hn => absurd (hmatch.symm.trans hn) (by simp)
        rw [List.flatMap_cons, Piece.text, List.singleton_append, scan, hnone]
        refine congrArg (Piece.keep c :: ·) (ih _ (by simp [Piece.text]) h' rfl ?_ ?_ rfl)
        · intro l m hf hfits
          refine hclose (c :: l) m (by rw [List.flatMap_cons, hf]; rfl) ?_
          rwa [getLast?_cons_or]
        · exact fun m A' hA' => hlast m (.keep c :: A') (by rw [hA']; rfl)
    · rw [hscan] at h
      cases A with
      | nil => exact hnil rfl
      | cons piece A =>
        obtain ⟨rfl, h'⟩ := List.cons.inj h
        subst hA
        have hr : A.flatMap Piece.text ++ t = r := by
          rw [List.flatMap_cons, Piece.text, List.append_assoc] at hs
          exact List.append_cancel_left hs
        subst hr
        have hroom := hfits.room (y := x) h' (fun hb => (hfits.2 hb).1) fun hA => hlast m [] (by rw [hA]; rfl)
        have hsome : q.matchAt word x (m ++ A.flatMap Piece.text) = some m.length := by
          rw [← hmatch]
          refine matchAt_isolate hkeep fun n hn => ?_
          obtain rfl := Option.some.inj (hmatch.symm.trans hn)
          rw [List.take_left, List.drop_left]
          exact ⟨by simp, hroom⟩
        have hshort : (A.flatMap Piece.text).length < (List.flatMap Piece.text (.hit m :: A)).length := by
          simpa [Piece.text] using List.length_pos_iff.2 hne
        rw [List.flatMap_cons, Piece.text, scan_of_matchAt hne hsome]
        refine congrArg (Piece.hit m :: ·) (ih _ hshort h' rfl ?_ ?_ rfl)
        · intro l m' hf hfits
          refine hclose (m ++ l) m' (by rw [List.flatMap_cons, hf, Piece.text, List.append_assoc]) ?_
          obtain ⟨m, c, rfl⟩ := (List.eq_nil_or_concat' m).resolve_left hne
          rwa [List.getLast?_append, Option.or_assoc, List.getLast?_concat, Option.some_or, ← List.getLast?_concat]
        · exact fun m' A' hA' => hlast m' (.hit m :: A') (by rw [hA']; rfl)

/-- **A part of a text is scanned alone as in the text**, if no match leaves it, if the matches at its ends have room in
the part alone, and if no others have. -/
theorem scan_isolate {A B : List (Piece α)} (h : q.scan word x 0 (f ++ t) = A ++ B) (hA : A.flatMap Piece.text = f)
    (hopen : ∀ m r, f = m ++ r → q.Fits word y m r.head? → q.bounded = true → boundary word x m.head? = true)
    (hclose : ∀ l m, f = l ++ m → q.Fits word (l.getLast?.or x) m none → q.bounded = true →
      boundary word m.getLast? t.head? = true)
    (hfirst : ∀ m A', A = .hit m :: A' → q.bounded = true → boundary word y m.head? = true)
    (hlast : ∀ m A', A = A' ++ [.hit m] → q.bounded = true → boundary word m.getLast? none = true) :
    q.scan word y 0 f = A := by
  have hend := scan_isolate_end h hA hclose hlast
  have hkeep : ∀ m r, f = m ++ r → q.Fits word y m r.head? → q.Fits word x m (r ++ []).head? := by
    intro m r hf hfits
    rw [List.append_nil]
    exact ⟨hfits.1, fun hb => ⟨hopen m r hf hfits hb, (hfits.2 hb).2⟩⟩
  rw [← hend]
  rcases scan_cases word q x f with ⟨rfl, -⟩ | ⟨c, r, rfl, hmatch, hscan⟩ | ⟨m, r, rfl, hne, hmatch, hfits, hscan⟩
  · rfl
  · have hnone : q.matchAt word y (c :: r) = none := by
      rw [← hmatch, ← List.append_nil (c :: r)]
      refine (congrArg _ (List.append_nil _)).trans (matchAt_isolate hkeep fun n hn => ?_)
      rw [List.append_nil, hmatch] at hn
      cases hn
    rw [hscan, scan, hnone]
  · have hsome : q.matchAt word y (m ++ r) = some m.length := by
      rw [← hmatch, ← List.append_nil (m ++ r)]
      refine (congrArg _ (List.append_nil _)).trans (matchAt_isolate hkeep fun n hn => ?_)
      rw [List.append_nil, hmatch] at hn
      obtain rfl := Option.some.inj hn
      rw [List.take_left, List.drop_left]
      refine ⟨by simp, hfits.1, fun hb => ⟨?_, (hfits.2 hb).2⟩⟩
      rw [hscan] at hend
      exact hfirst m _ hend.symm hb
    rw [hscan, scan_of_matchAt hne hsome]

end Isolate

end Pattern

end Aimw.Lib
