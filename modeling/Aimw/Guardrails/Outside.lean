import Aimw.Guardrails.PrePass
import Aimw.Guardrails.Tracking
import Aimw.Lib.Occurrences

/-!
# Matches outside earlier matches

What `mask` marks and what it leaves, told of the matches of the text.

* `marker_mem_marks_iff_outside`, `tokenize_mask_outside` — if the matches stand apart, a marker is written iff some match
  of its pattern lies inside no match of an earlier one, and what is left of the words lies in no match;
* `marker_mem_marks_iff_between` — if the numbers between the addresses stand apart, told of these;
* `marker_mem_marks_of_free` — in any text, if something that the pattern could match is clear of all that the earlier
  ones could.
-/

namespace Aimw.Guardrails

open Lib

section Definitions

variable (u : CharTable)

/-- The patterns that come before the label's. -/
def earlier (label : String) : List (String × Pattern Char) := (PII_PATTERNS u).takeWhile fun lp => lp.1 != label

variable (text : String)

/-- A match of the pattern lies inside no match of an earlier one. -/
def FoundOutside (lp : String × Pattern Char) : Prop :=
  ∃ m ∈ matchesOf u text lp.2, ∀ before ∈ earlier u lp.1, ∀ k ∈ matchesOf u text before.2, ¬ m ⊆ k

instance (lp : String × Pattern Char) : Decidable (FoundOutside u text lp) := inferInstanceAs (Decidable
  (∃ m ∈ matchesOf u text lp.2, ∀ before ∈ earlier u lp.1, ∀ k ∈ matchesOf u text before.2, ¬ m ⊆ k))

/-- All that a pattern could match in the text. -/
def occurrencesOf (pattern : Pattern Char) : List (List Tracked) :=
  (pattern.comap Prod.fst).occurrences (trackedWord u) (track text)

/-- Something that the pattern could match is clear of all that the earlier ones could. -/
def FoundFree (lp : String × Pattern Char) : Prop :=
  ∃ m ∈ occurrencesOf u text lp.2, ∀ before ∈ earlier u lp.1, ∀ k ∈ occurrencesOf u text before.2,
    Clear (trackedWord u) (track text) k m

instance (lp : String × Pattern Char) : Decidable (FoundFree u text lp) := inferInstanceAs (Decidable
  (∃ m ∈ occurrencesOf u text lp.2, ∀ before ∈ earlier u lp.1, ∀ k ∈ occurrencesOf u text before.2,
    Clear (trackedWord u) (track text) k m))

/-- The patterns of numbers that come before the label's. -/
def earlierNumbers (label : String) : List (String × Pattern Char) :=
  (numberPatterns u).takeWhile fun lp => lp.1 != label

/-- A number is found between the addresses, and inside none that an earlier pattern finds there. -/
def FoundBetween (lp : String × Pattern Char) : Prop :=
  ∃ g ∈ gaps u text, ∃ m ∈ matchesIn u g lp.2, ∀ before ∈ earlierNumbers u lp.1, ∀ k ∈ matchesIn u g before.2, ¬ m ⊆ k

instance (lp : String × Pattern Char) : Decidable (FoundBetween u text lp) := inferInstanceAs (Decidable
  (∃ g ∈ gaps u text, ∃ m ∈ matchesIn u g lp.2, ∀ before ∈ earlierNumbers u lp.1, ∀ k ∈ matchesIn u g before.2, ¬ m ⊆ k))

end Definitions

variable {u : CharTable} {text : String} {lp : String × Pattern Char}

/-! ## Labels and markers -/

lemma labels_nodup : ((PII_PATTERNS u).map Prod.fst).Nodup := by
  rw [labels_eq]
  decide

lemma exists_earlier (h : lp ∈ PII_PATTERNS u) : ∃ after, PII_PATTERNS u = earlier u lp.1 ++ lp :: after ∧
    (∀ other ∈ earlier u lp.1, other.1 ≠ lp.1) ∧ ∀ other ∈ after, other.1 ≠ lp.1 := by
  obtain ⟨before, after, hsplit⟩ := List.append_of_mem h
  have hnodup := labels_nodup (u := u)
  rw [hsplit, List.map_append, List.map_cons, List.nodup_append] at hnodup
  obtain ⟨-, hafter, hbefore⟩ := hnodup
  have hne : ∀ other ∈ before, other.1 ≠ lp.1 := fun other hother =>
    hbefore other.1 (List.mem_map_of_mem hother) lp.1 List.mem_cons_self
  have hearlier : earlier u lp.1 = before := by
    unfold earlier
    rw [hsplit, List.takeWhile_append_of_pos fun other hother => bne_iff_ne.2 (hne other hother)]
    simp
  refine ⟨after, by rw [hearlier, hsplit], hearlier ▸ hne, fun other hother heq => ?_⟩
  exact (List.nodup_cons.1 hafter).1 (heq ▸ List.mem_map_of_mem hother)

lemma mem_labels (h : lp ∈ PII_PATTERNS u) : lp.1 ∈ labels := labels_eq u ▸ List.mem_map_of_mem h

lemma marker_enclosed : ∀ label ∈ labels, Enclosed '[' ']' (marker label) := by
  have hinside : ∀ label ∈ labels, '[' ∉ redacted label ∧ ']' ∉ redacted label := by decide
  exact fun label hlabel => ⟨by decide, redacted label, marker_eq label, hinside label hlabel⟩

lemma eq_of_marker_isInfix : ∀ label ∈ labels, ∀ label' ∈ labels, marker label <:+: marker label' → label = label' := by
  decide +kernel

lemma marker_mem_marks (h : lp ∈ PII_PATTERNS u) :
    marker lp.1 ∈ marks u.word (passes (PII_PATTERNS u)) text.toList ↔
      ∃ f ∈ leftovers u.word (passes (earlier u lp.1)) text.toList, lp.2.search u.word f = true := by
  obtain ⟨after, hsplit, hearlier, hafter⟩ := exists_earlier h
  have hmarkers : ∀ others : List (String × Pattern Char), (∀ other ∈ others, other ∈ PII_PATTERNS u) →
      (∀ other ∈ others, other.1 ≠ lp.1) → ∀ pass ∈ passes others, pass.marker ≠ marker lp.1 := by
    intro others hothers hne pass hpass heq
    obtain ⟨other, hother, rfl⟩ := List.mem_map.1 hpass
    have hin : marker other.1 <:+: marker lp.1 := ⟨[], [], by simpa using heq⟩
    exact hne other hother (eq_of_marker_isInfix _ (mem_labels (hothers other hother)) _ (mem_labels h) hin)
  have hbefore := hmarkers (earlier u lp.1) (fun other hother => by rw [hsplit]; simp [hother]) hearlier
  have hbehind := hmarkers after (fun other hother => by rw [hsplit]; simp [hother]) hafter
  have hpasses : passes (PII_PATTERNS u) = passes (earlier u lp.1) ++ ⟨lp.2, marker lp.1⟩ :: passes after := by
    rw [passes, hsplit, List.map_append, List.map_cons]
    rfl
  rw [hpasses]
  exact marker_mem_marks_iff hbefore hbehind text.toList

/-- A marker is written if its pattern is found in what the passes before it leave of the tracked text. -/
lemma marker_mem_marks_tracked (h : lp ∈ PII_PATTERNS u) :
    marker lp.1 ∈ marks u.word (passes (PII_PATTERNS u)) text.toList ↔
      ∃ f ∈ leftovers (trackedWord u) ((earlier u lp.1).map trackedPass) (track text),
        (lp.2.comap Prod.fst).search (trackedWord u) f = true := by
  rw [marker_mem_marks h, ← track_fst text, ← leftovers_fst]
  simp only [List.mem_map, exists_exists_and_eq_and]
  exact exists_congr fun f => and_congr_right fun _ => by rw [← Pattern.search_comap]; rfl

/-! ## Matches that stand apart -/

/-- The passes before the label's, and its own. -/
lemma trackedPasses_split (h : lp ∈ PII_PATTERNS u) :
    ∃ after, trackedPasses u = ((earlier u lp.1).map trackedPass ++ [trackedPass lp]) ++ after := by
  obtain ⟨after, hsplit, -, -⟩ := exists_earlier h
  refine ⟨after.map trackedPass, ?_⟩
  rw [trackedPasses, hsplit]
  simp

lemma insulated_of_label (hbeside : NoNumberBeside u text) (h : lp ∈ PII_PATTERNS u) :
    Insulated (trackedWord u) ((earlier u lp.1).map trackedPass ++ [trackedPass lp]) (track text) := by
  obtain ⟨after, hsplit⟩ := trackedPasses_split h
  have hins := trackedPasses_insulated hbeside
  rw [hsplit] at hins
  exact hins.of_append

theorem marker_mem_marks_iff_outside (hbeside : NoNumberBeside u text) (hapart : MatchesApart u text)
    (h : lp ∈ PII_PATTERNS u) :
    marker lp.1 ∈ marks u.word (passes (PII_PATTERNS u)) text.toList ↔ FoundOutside u text lp := by
  obtain ⟨after, hsplit⟩ := trackedPasses_split h
  rw [MatchesApart, ← trackedPasses_patterns, hsplit, List.map_append] at hapart
  have hfound : ∀ m, (∃ f ∈ leftovers (trackedWord u) ((earlier u lp.1).map trackedPass) (track text),
      m ∈ (lp.2.comap Prod.fst).found (trackedWord u) f) ↔ _ := fun m =>
    mem_found_leftovers_iff (track_nodup text) (insulated_of_label hbeside h) hapart.of_append
  rw [marker_mem_marks_tracked h]
  simp only [Pattern.search_iff_found]
  constructor
  · rintro ⟨f, hf, m, hm⟩
    obtain ⟨hms, hno⟩ := (hfound m).1 ⟨f, hf, hm⟩
    exact ⟨m, hms, fun before hbefore => hno _ (List.mem_map_of_mem hbefore)⟩
  · rintro ⟨m, hms, hno⟩
    obtain ⟨f, hf, hm⟩ := (hfound m).2 ⟨hms, List.forall_mem_map.2 hno⟩
    exact ⟨f, hf, m, hm⟩

lemma earlier_of_number (h : lp ∈ numberPatterns u) :
    earlier u lp.1 = ("email", emailPattern) :: earlierNumbers u lp.1 := by
  have hnodup := labels_nodup (u := u)
  rw [patterns_eq, List.map_cons, List.nodup_cons] at hnodup
  have hne : "email" ≠ lp.1 := by
    intro heq
    exact hnodup.1 (List.mem_map.2 ⟨lp, h, heq.symm⟩)
  have hkept : (("email" : String) != lp.1) = true := bne_iff_ne.2 hne
  rw [earlier, patterns_eq, List.takeWhile_cons, if_pos hkept, earlierNumbers]

lemma numbers_split (h : lp ∈ numberPatterns u) :
    ∃ after, numberPatterns u = (earlierNumbers u lp.1 ++ [lp]) ++ after := by
  obtain ⟨after, hsplit, -, -⟩ := exists_earlier (List.mem_cons_of_mem ("email", emailPattern) h)
  rw [earlier_of_number h, List.cons_append] at hsplit
  refine ⟨after, ?_⟩
  rw [List.append_assoc]
  exact (List.cons.inj hsplit).2

/-- **Which markers of numbers are written**, if the numbers between the addresses stand apart. -/
theorem marker_mem_marks_iff_between (hnumbers : NumbersApart u text) (h : lp ∈ numberPatterns u) :
    marker lp.1 ∈ marks u.word (passes (PII_PATTERNS u)) text.toList ↔ FoundBetween u text lp := by
  obtain ⟨after, hsplit⟩ := numbers_split h
  have hbounded : ∀ pass ∈ (earlierNumbers u lp.1).map trackedPass ++ [trackedPass lp], pass.pattern.bounded = true := by
    intro pass hpass
    refine numbers_tracked_bounded u pass ?_
    rw [hsplit, List.map_append, List.map_append]
    exact List.mem_append_left _ hpass
  have hgap : ∀ g ∈ gaps u text, ∀ m, (∃ f ∈ leftovers (trackedWord u) ((earlierNumbers u lp.1).map trackedPass) g,
      m ∈ matchesIn u f lp.2) ↔ m ∈ matchesIn u g lp.2 ∧
        ∀ before ∈ earlierNumbers u lp.1, ∀ k ∈ matchesIn u g before.2, ¬ m ⊆ k := by
    intro g hg m
    have hapart := hnumbers g hg
    rw [hsplit, List.map_append] at hapart
    have hpatterns : ((earlierNumbers u lp.1).map trackedPass ++ [trackedPass lp]).map Pass.pattern =
        (earlierNumbers u lp.1 ++ [lp]).map fun lp => lp.2.comap Prod.fst := by
      rw [List.map_append, List.map_append, List.map_map]
      rfl
    have hfound := mem_found_leftovers_iff ((track_nodup text).sublist (Pattern.between_isInfix hg).sublist)
      (insulated_of_bounded hbounded g) (hpatterns ▸ hapart.of_append) (m := m)
    rw [List.forall_mem_map] at hfound
    exact hfound
  rw [marker_mem_marks_tracked (List.mem_cons_of_mem ("email", emailPattern) h), earlier_of_number h]
  simp only [List.map_cons, leftovers, List.mem_flatMap, Pattern.search_iff_found]
  constructor
  · rintro ⟨f, ⟨g, hg, hf⟩, m, hm⟩
    exact ⟨g, hg, m, (hgap g hg m).1 ⟨f, hf, hm⟩⟩
  · rintro ⟨g, hg, m, hm⟩
    obtain ⟨f, hf, hmf⟩ := (hgap g hg m).2 hm
    exact ⟨f, ⟨g, hg, hf⟩, m, hmf⟩

/-- Every address is marked. -/
lemma marker_mem_marks_email :
    marker "email" ∈ marks u.word (passes (PII_PATTERNS u)) text.toList ↔ search u emailPattern text = true := by
  have hmem : (("email", emailPattern) : String × Pattern Char) ∈ PII_PATTERNS u := List.mem_cons_self
  have hearlier : earlier u "email" = [] := rfl
  refine (marker_mem_marks hmem).trans ?_
  rw [hearlier]
  simp [passes, leftovers, search]

lemma search_iff_occurrence (pattern : Pattern Char) :
    search u pattern text = true ↔ ∃ m, m ∈ occurrencesOf u text pattern := by
  rw [search, ← track_fst text, ← Pattern.search_comap]
  exact Pattern.search_iff_occurrence

/-- What the masker marks is found in the text. -/
theorem search_of_marker_mem_marks (hbeside : NoNumberBeside u text) (h : lp ∈ PII_PATTERNS u)
    (hmark : marker lp.1 ∈ marks u.word (passes (PII_PATTERNS u)) text.toList) : search u lp.2 text = true := by
  obtain ⟨f, hf, hsearch⟩ := (marker_mem_marks_tracked h).1 hmark
  obtain ⟨m, hm⟩ := Pattern.search_iff_occurrence.1 hsearch
  exact (search_iff_occurrence lp.2).2 ⟨m, mem_occurrences_of_leftover (insulated_of_label hbeside h) hf hm⟩

theorem marker_mem_marks_of_free (hbeside : NoNumberBeside u text) (h : lp ∈ PII_PATTERNS u)
    (hfree : FoundFree u text lp) : marker lp.1 ∈ marks u.word (passes (PII_PATTERNS u)) text.toList := by
  obtain ⟨m, hm, hclear⟩ := hfree
  obtain ⟨f, hf, hmf⟩ := mem_occurrences_leftover_of_clear (insulated_of_label hbeside h) hm
    (List.forall_mem_map.2 hclear)
  exact (marker_mem_marks_tracked h).2 ⟨f, hf, Pattern.search_iff_occurrence.2 ⟨m, hmf⟩⟩

end Aimw.Guardrails
