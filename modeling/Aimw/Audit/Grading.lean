import Aimw.Audit.Dlp
import Aimw.Guardrails.Outside

/-!
# What is classified and what is masked

`classify` searches every pattern in the text itself; `mask` searches it in what the patterns before it have left.

* `marked_iff` — which markers stand in a masked text;
* `classify_agrees_iff` — when the classifier and the masker find the same, and grade it alike.
-/

namespace Aimw.Audit

open Lib Guardrails

section Definitions

variable (u : CharTable) (text : String)

/-- The highest tier among the markers in the masked text. -/
def markedTier : SensitivityTier :=
  .max (((PII_PATTERNS u).filter fun lp => marker lp.1 <:+: (mask u text).toList).map
    fun lp => (TIER_BY_CATEGORY.lookup lp.1).getD .LOW)

/-- The categories of the classifier are those that are marked, and the tier is theirs. -/
def Agrees : Prop :=
  (∀ lp ∈ PII_PATTERNS u, lp.1 ∈ (classify u text).categories ↔ marker lp.1 <:+: (mask u text).toList) ∧
    (classify u text).tier = markedTier u text

end Definitions

variable {u : CharTable} {text : String} {lp : String × Pattern Char}

/-! ## The markers of a masked text -/

/-- **Which markers stand in a masked text**: those that are written. -/
theorem marked_iff (hno : ¬ "[REDACTED:".toList <:+: text.toList) (h : lp ∈ PII_PATTERNS u) :
    marker lp.1 <:+: (mask u text).toList ↔ marker lp.1 ∈ marks u.word (passes (PII_PATTERNS u)) text.toList := by
  have hlabel := mem_labels h
  have hpart : ∀ pass ∈ passes (PII_PATTERNS u), Partwise (marker lp.1 <:+: ·) pass.marker := by
    intro pass hpass
    obtain ⟨label, hmem, hmarker⟩ := mem_labels_of_pass u hpass
    rw [hmarker]
    exact (marker_enclosed lp.1 hlabel).partwise (marker_enclosed label hmem)
  rw [mask, String.toList_ofList]
  refine (redact_partwise_iff (passes_inert u) hpart text.toList).trans ?_
  constructor
  · rintro (⟨f, hf, hin⟩ | ⟨m, hm, hin⟩)
    · -- a piece of the text has no marker that the text has not
      obtain ⟨tail, htail⟩ : ∃ tail, marker lp.1 = "[REDACTED:".toList ++ tail := ⟨_, List.append_assoc _ _ _⟩
      rw [htail] at hin
      exact absurd ((List.prefix_append _ tail).isInfix.trans (hin.trans (leftover_isInfix hf))) hno
    · obtain ⟨pass, hpass, rfl⟩ := mem_marks hm
      obtain ⟨label, hmem, hmarker⟩ := mem_labels_of_pass u hpass
      rw [hmarker] at hm hin
      rwa [eq_of_marker_isInfix _ hlabel _ hmem hin]
  · exact fun hm => Or.inr ⟨_, hm, List.infix_rfl⟩

/-! ## The classifier and the masker -/

lemma mem_categories (h : lp ∈ PII_PATTERNS u) : lp.1 ∈ (classify u text).categories ↔ search u lp.2 text = true := by
  simp only [classify, List.mem_insertionSort, List.mem_map, List.mem_filter]
  constructor
  · rintro ⟨other, ⟨hother, hfound⟩, hlabel⟩
    rwa [List.inj_on_of_nodup_map labels_nodup hother h hlabel] at hfound
  · exact fun hfound => ⟨lp, ⟨h, hfound⟩, rfl⟩

/-- If they find the same, they grade it alike. -/
lemma agrees_iff (hno : ¬ "[REDACTED:".toList <:+: text.toList) : Agrees u text ↔ ∀ lp ∈ PII_PATTERNS u,
    search u lp.2 text = true ↔ marker lp.1 ∈ marks u.word (passes (PII_PATTERNS u)) text.toList := by
  have hcategories : (∀ lp ∈ PII_PATTERNS u, lp.1 ∈ (classify u text).categories ↔
      marker lp.1 <:+: (mask u text).toList) ↔ ∀ lp ∈ PII_PATTERNS u,
        search u lp.2 text = true ↔ marker lp.1 ∈ marks u.word (passes (PII_PATTERNS u)) text.toList :=
    forall₂_congr fun lp hlp => by rw [mem_categories hlp, marked_iff hno hlp]
  rw [Agrees, ← hcategories]
  refine and_iff_left_of_imp fun h => ?_
  have hfilter : (PII_PATTERNS u).filter (fun lp => search u lp.2 text) =
      (PII_PATTERNS u).filter fun lp => marker lp.1 <:+: (mask u text).toList := by
    refine List.filter_congr fun lp hlp => Bool.eq_iff_iff.2 ?_
    rw [decide_eq_true_iff, ← h lp hlp, mem_categories hlp]
  show SensitivityTier.max ((((PII_PATTERNS u).filter fun lp => search u lp.2 text).map Prod.fst).map _) = _
  rw [hfilter, List.map_map]
  rfl

/-- **When the classifier and the masker agree.**  If no number stands directly beside an e-mail address: where the matches
stand apart, iff every pattern that is found has a match outside the matches of earlier ones; and in any text if every
pattern that is found could match something that is clear of all that the earlier ones could.  If one does, but the numbers
between the addresses stand apart, iff the patterns of numbers that are found in the text are found there too. -/
theorem classify_agrees_iff (u : CharTable) (text : String) (hno : ¬ "[REDACTED:".toList <:+: text.toList) :
    (NoNumberBeside u text → MatchesApart u text →
      (Agrees u text ↔ ∀ lp ∈ PII_PATTERNS u, search u lp.2 text = true → FoundOutside u text lp)) ∧
    (NoNumberBeside u text → (∀ lp ∈ PII_PATTERNS u, search u lp.2 text = true → FoundFree u text lp) →
      Agrees u text) ∧
    (NumbersApart u text →
      (Agrees u text ↔ ∀ lp ∈ numberPatterns u, search u lp.2 text = true ↔ FoundBetween u text lp)) := by
  have hmade : NoNumberBeside u text → ∀ lp ∈ PII_PATTERNS u,
      marker lp.1 ∈ marks u.word (passes (PII_PATTERNS u)) text.toList → search u lp.2 text = true :=
    fun hbeside lp hlp => search_of_marker_mem_marks hbeside hlp
  rw [agrees_iff hno]
  refine ⟨fun hbeside hapart => ?_, fun hbeside hfree lp hlp => ?_, fun hnumbers => ?_⟩
  · refine forall₂_congr fun lp hlp => ?_
    rw [← marker_mem_marks_iff_outside hbeside hapart hlp]
    exact iff_iff_implies_and_implies.trans (and_iff_left (hmade hbeside lp hlp))
  · exact ⟨fun hsearch => marker_mem_marks_of_free hbeside hlp (hfree lp hlp hsearch), hmade hbeside lp hlp⟩
  · rw [patterns_eq, List.forall_mem_cons, ← patterns_eq]
    refine (and_iff_right marker_mem_marks_email.symm).trans (forall₂_congr fun lp hlp => ?_)
    rw [marker_mem_marks_iff_between hnumbers hlp]

theorem classify_agrees_ssn : Agrees .ascii "a@b.co, 123-45-6789" ∧
    Agrees .ascii "123 456 7890 123 456, 4111111111111111" ∧ Agrees .ascii "a@b.com5551234567, 555-123-4567" := by
  refine ⟨?_, ?_, ?_⟩
  · exact ((classify_agrees_iff .ascii "a@b.co, 123-45-6789" (by decide +kernel)).1 (by decide +kernel)
      (by decide +kernel)).2 (by decide +kernel)
  · exact (classify_agrees_iff .ascii "123 456 7890 123 456, 4111111111111111" (by decide +kernel)).2.1 (by decide +kernel)
      (by decide +kernel)
  · exact ((classify_agrees_iff .ascii "a@b.com5551234567, 555-123-4567" (by decide +kernel)).2.2 (by decide +kernel)).2
      (by decide +kernel)

/-- Three groups that are masked as a phone number do not count for the card number that they begin. -/
theorem card_is_lost :
    classify .ascii "123 456 7890 123 456" = { tier := .RESTRICTED, categories := ["credit_card", "phone"] } ∧
      mask .ascii "123 456 7890 123 456" = "[REDACTED:PHONE] 123 456" ∧
      ¬ marker "credit_card" <:+: (mask .ascii "123 456 7890 123 456").toList ∧
      markedTier .ascii "123 456 7890 123 456" = .MEDIUM := by
  decide +kernel

/-- A number directly behind an e-mail address is no number in the text itself. -/
example : classify .ascii "a@b.com5551234567" = { tier := .MEDIUM, categories := ["email"] } ∧
    mask .ascii "a@b.com5551234567" = "[REDACTED:EMAIL][REDACTED:PHONE]" := by
  decide +kernel

end Aimw.Audit
