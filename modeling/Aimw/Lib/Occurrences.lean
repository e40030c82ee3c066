import Aimw.Lib.Remains

/-!
# Occurrences

What a pattern could match in a text, whether a scan finds it or not.

* `mem_occurrences_of_leftover` — what occurs in what the passes leave occurs in the text;
* `mem_occurrences_leftover_of_clear` — what is clear of all that occurs of the patterns of the passes occurs in what
  they leave.
-/

namespace Aimw.Lib

namespace Pattern

variable {α : Type} {word : α → Bool} {p q : Pattern α} {s g m : List α}

/-- All that a pattern could match in a text. -/
def occurrences (word : α → Bool) (p : Pattern α) (s : List α) : List (List α) :=
  (List.range s.length).flatMap fun i =>
    ((p.core.ends (s.drop i)).filter fun n => !p.bounded || boundary word (s.take i).getLast? (s.drop i).head? &&
      boundary word ((s.drop i).take n).getLast? ((s.drop i).drop n).head?).map fun n => (s.drop i).take n

lemma mem_occurrences : m ∈ p.occurrences word s ↔
    ∃ l r, s = l ++ (m ++ r) ∧ p.Fits word l.getLast? m r.head? := by
  simp only [occurrences, List.mem_flatMap, List.mem_range, List.mem_map, List.mem_filter, Regex.mem_ends_iff]
  constructor
  · rintro ⟨i, -, n, ⟨⟨hn, hm⟩, htest⟩, rfl⟩
    have hpos : n ≠ 0 := by
      rintro rfl
      exact p.nonempty (by simpa using hm)
    refine ⟨s.take i, (s.drop i).drop n, by simp, hm, fun hb => ?_⟩
    rw [List.head?_take, if_neg hpos]
    simpa [hb] using htest
  · rintro ⟨l, r, rfl, hfits⟩
    have hm := hfits.ne_nil
    refine ⟨l.length, ?_, m.length, ⟨⟨by simp, by simpa using hfits.1⟩, ?_⟩, by simp⟩
    · simpa using Or.inl (List.length_pos_iff.2 hm)
    · rw [List.drop_left, List.take_left, List.take_left, List.drop_left, List.head?_append_of_ne_nil _ hm]
      cases hb : p.bounded with
      | false => rfl
      | true => simpa using hfits.2 hb

lemma search_iff_occurrence : p.search word s = true ↔ ∃ m, m ∈ p.occurrences word s := by
  rw [← Bool.not_eq_false, search_eq_false_iff]
  simp only [CleanFrom, not_forall, not_not, mem_occurrences, List.append_assoc, Option.or_none]
  constructor
  · rintro ⟨l, m, r, hs, hfits⟩
    exact ⟨m, l, r, hs, hfits⟩
  · rintro ⟨m, l, r, hs, hfits⟩
    exact ⟨l, m, r, hs, hfits⟩

lemma mem_occurrences_of_found (h : m ∈ p.found word s) : m ∈ p.occurrences word s := by
  obtain ⟨A, B, hscan⟩ := List.append_of_mem (mem_found.1 h)
  refine mem_occurrences.2 ⟨A.flatMap Piece.text, B.flatMap Piece.text, ?_, ?_⟩
  · rw [(scan_append hscan).1]
    rfl
  · simpa using scan_hit hscan

/-- What occurs in a segment occurs in the text. -/
lemma mem_occurrences_of_between (hiso : Isolates word p q s) (hg : g ∈ p.between word s)
    (h : m ∈ q.occurrences word g) : m ∈ q.occurrences word s := by
  obtain ⟨ps₁, ps₂, hscan, hbefore, hbehind⟩ := between_split hg
  obtain ⟨l, r, hlr, hfits⟩ := mem_occurrences.1 h
  have hs : s = ps₁.flatMap Piece.text ++ (g ++ ps₂.flatMap Piece.text) := by
    rw [(scan_append hscan).1, List.flatMap_append, keep_text]
  refine mem_occurrences.2 ⟨ps₁.flatMap Piece.text ++ l, r ++ ps₂.flatMap Piece.text, by rw [hs, hlr]; simp, hfits.1, ?_⟩
  intro hb
  constructor
  · rcases List.eq_nil_or_concat' l with rfl | ⟨l, d, rfl⟩
    · rcases hbefore with rfl | ⟨ps, k, rfl⟩
      · exact (hfits.2 hb).1
      · have hk : k ∈ p.found word s := mem_found.2 (by rw [hscan]; simp)
        rw [List.append_nil, last_text (ne_nil_of_mem_found hk)]
        exact hiso.opens ps k g ps₂ (by rw [hscan]; simp) hbehind m r hlr hfits hb
    · rw [List.getLast?_append_of_ne_nil _ (by simp)]
      exact (hfits.2 hb).1
  · cases r with
    | cons d r => exact (hfits.2 hb).2
    | nil =>
      rcases hbehind with rfl | ⟨k, ps, rfl⟩
      · exact (hfits.2 hb).2
      · have hk : k ∈ p.found word s := mem_found.2 (by rw [hscan]; simp)
        rw [List.nil_append, head_text (ne_nil_of_mem_found hk)]
        rw [List.append_nil] at hlr
        exact hiso.closes ps₁ g k ps hscan hbefore none l m hlr (by simpa using hfits) hb

/-- What occurs in the text, clear of the matches of a pattern, occurs in a segment. -/
lemma mem_occurrences_between (h : m ∈ q.occurrences word s) (hclear : ∀ k ∈ p.found word s, Clear word s k m) :
    ∃ g ∈ p.between word s, m ∈ q.occurrences word g := by
  obtain ⟨l, r, hs, hfits⟩ := mem_occurrences.1 h
  obtain ⟨A, B, hscan, rfl, rfl⟩ := keeps_of_not_mem hs hfits.ne_nil fun c hc k hk => (hclear k hk c hc).1
  obtain ⟨A, l, rfl, hbefore⟩ := trail_split A
  obtain ⟨r, B, rfl, hbehind⟩ : ∃ (r : List α) (B' : List (Piece α)), B = r.map .keep ++ B' ∧ AtHit B' :=
    ⟨_, lead_split B⟩
  have hscan' : p.scan word none 0 s = A ++ ((l ++ (m ++ r)).map .keep ++ B) := by
    rw [hscan]
    simp
  simp only [List.flatMap_append, keep_text] at hs hfits
  refine ⟨_, mem_between hscan' hbefore hbehind, mem_occurrences.2 ⟨l, r, rfl, hfits.1, fun hb => ?_⟩⟩
  obtain ⟨hopen, hclose⟩ := hfits.2 hb
  -- where the segment ends, a letter of a word ends the match
  constructor
  · rcases List.eq_nil_or_concat' l with rfl | ⟨l, d, rfl⟩
    · rcases hbefore with rfl | ⟨ps, k, rfl⟩
      · exact hopen
      · have hk : k ∈ p.found word s := mem_found.2 (by rw [hscan]; simp)
        refine (hclear k hk).opens ?_ (ne_nil_of_mem_found hk) hfits.ne_nil
        refine ⟨ps.flatMap Piece.text, r ++ B.flatMap Piece.text, ?_⟩
        rw [hs]
        simp [Piece.text]
    · rwa [List.getLast?_append_of_ne_nil _ (by simp)] at hopen
  · cases r with
    | cons d r => exact hclose
    | nil =>
      rcases hbehind with rfl | ⟨k, ps, rfl⟩
      · exact hclose
      · have hk : k ∈ p.found word s := mem_found.2 (by rw [hscan]; simp)
        refine (hclear k hk).closes ?_ (ne_nil_of_mem_found hk) hfits.ne_nil
        refine ⟨A.flatMap Piece.text ++ l, ps.flatMap Piece.text, ?_⟩
        rw [hs]
        simp [Piece.text]

end Pattern

section Passes

variable {α : Type} {word : α → Bool} {s f m : List α} {pass : Pass α} {passes : List (Pass α)}

open Pattern

/-- **What occurs in what the passes leave occurs in the text.** -/
theorem mem_occurrences_of_leftover (hins : Insulated word (passes ++ [pass]) s) (hf : f ∈ leftovers word passes s)
    (h : m ∈ pass.pattern.occurrences word f) : m ∈ pass.pattern.occurrences word s := by
  induction passes generalizing s with
  | nil =>
    obtain rfl := List.mem_singleton.1 hf
    exact h
  | cons first passes ih =>
    obtain ⟨g, hg, hf⟩ := List.mem_flatMap.1 hf
    exact mem_occurrences_of_between (hins.1 pass (by simp)) hg (ih (hins.2 g hg) hf)

/-- **What is clear of all that occurs of the patterns of the passes is left by them.** -/
theorem mem_occurrences_leftover_of_clear (hins : Insulated word (passes ++ [pass]) s)
    (h : m ∈ pass.pattern.occurrences word s)
    (hclear : ∀ earlier ∈ passes, ∀ k ∈ earlier.pattern.occurrences word s, Clear word s k m) :
    ∃ f ∈ leftovers word passes s, m ∈ pass.pattern.occurrences word f := by
  induction passes generalizing s with
  | nil => exact ⟨s, List.mem_singleton_self s, h⟩
  | cons first passes ih =>
    obtain ⟨hfirst, hclear⟩ := List.forall_mem_cons.1 hclear
    obtain ⟨g, hg, hmg⟩ := mem_occurrences_between h fun k hk => hfirst k (mem_occurrences_of_found hk)
    obtain ⟨f, hf, hmf⟩ := ih (hins.2 g hg) hmg fun earlier he k hk =>
      (hclear earlier he k (mem_occurrences_of_between (hins.1 earlier (by simp [he])) hg hk)).of_isInfix
        (between_isInfix hg)
    exact ⟨f, List.mem_flatMap.2 ⟨g, hg, hf⟩, hmf⟩

end Passes

end Aimw.Lib
