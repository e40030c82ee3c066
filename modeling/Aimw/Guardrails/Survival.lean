import Aimw.Guardrails.Tracking

/-!
# What survives masking

`maskTracked` is `mask` on characters that carry their position in the original text, so that it can be told which of
them are left.  A pattern may find less in a text that earlier passes have rewritten than it found in the original:
`nothing_leaks_iff` says when all that is found in the original is masked nevertheless.
-/

namespace Aimw.Guardrails

open Lib

variable (u : CharTable) (text : String)

/-- `mask`, with the positions kept. -/
def maskTracked : List Tracked := redact (trackedWord u) (trackedPasses u) (track text)

/-- The character at position `i` is still there in the masked text. -/
def Survives (i : ℕ) : Prop := ∃ c, (c, some i) ∈ maskTracked u text

/-- No part of a match survives. -/
def NothingLeaks : Prop :=
  ∀ lp ∈ PII_PATTERNS u, ∀ m ∈ matchesOf u text lp.2, ∀ c i, (c, some i) ∈ m → ¬ Survives u text i

/-! ## Survivors -/

/-- The tracked passes write what `mask` writes. -/
theorem maskTracked_fst : (maskTracked u text).map Prod.fst = (mask u text).toList := by
  have hpasses : trackedPasses u =
      (passes (PII_PATTERNS u)).map fun pass => ⟨pass.pattern.comap Prod.fst, pass.marker.map fun c => (c, none)⟩ := by
    rw [passes, List.map_map]
    rfl
  rw [mask, String.toList_ofList, ← track_fst text, maskTracked, hpasses]
  refine redact_comap (fun pass _ => ?_) (track text)
  rw [List.map_map]
  exact List.map_id _

lemma trackedPasses_inert : ∀ pass ∈ trackedPasses u, ∀ pass' ∈ trackedPasses u,
    pass.pattern.Inert (trackedWord u) pass'.marker := by
  intro pass hpass pass' hpass'
  obtain ⟨lp, hlp, rfl⟩ := List.mem_map.1 hpass
  obtain ⟨lp', hlp', rfl⟩ := List.mem_map.1 hpass'
  exact Pattern.Inert.comap (f := Prod.fst) (g := fun c => (c, none)) (fun _ => rfl) (inert_marker u hlp hlp')

lemma not_mem_marker (c : Char) (i : ℕ) : ∀ pass ∈ trackedPasses u, (c, some i) ∉ pass.marker := by
  intro pass hpass hmem
  obtain ⟨lp, -, rfl⟩ := List.mem_map.1 hpass
  obtain ⟨d, -, hd⟩ := List.mem_map.1 hmem
  simp at hd

variable {u text}

/-- A character of the original text survives iff it is left over. -/
theorem survives_iff {c : Char} {i : ℕ} (h : (c, some i) ∈ track text) :
    Survives u text i ↔ (c, some i) ∈ (leftovers (trackedWord u) (trackedPasses u) (track text)).flatten := by
  have hmem : ∀ d, (d, some i) ∈ maskTracked u text ↔ _ := fun d =>
    mem_redact_iff_leftover (trackedPasses_inert u) (not_mem_marker u d i) (track text)
  rw [← hmem c]
  constructor
  · rintro ⟨d, hd⟩
    -- no two characters have the same position
    have htext : (d, some i) ∈ track text := mem_of_mem_leftovers ((hmem d).1 hd)
    have heq := List.inj_on_of_nodup_map (positions_nodup text) htext h rfl
    rwa [heq] at hd
  · intro hd
    exact ⟨c, hd⟩

lemma nothingLeaks_iff_noneLeft :
    NothingLeaks u text ↔ NoneLeft (trackedWord u) (trackedPasses u) (track text) := by
  have htrack : ∀ {pattern m t}, m ∈ matchesOf u text pattern → t ∈ m → t ∈ track text :=
    fun hm ht => subset_of_mem_found hm ht
  unfold NoneLeft trackedPasses
  rw [List.forall_mem_map]
  refine forall₂_congr fun lp _ => forall₂_congr fun m hm => ⟨fun h t ht hleft => ?_, fun h c i ht hsurvives => ?_⟩
  · obtain ⟨⟨c, i⟩, -, rfl⟩ := List.mem_map.1 (htrack hm ht)
    exact h c i ht ((survives_iff (htrack hm ht)).2 hleft)
  · exact h _ ht ((survives_iff (htrack hm ht)).1 hsurvives)

/-! ## Leaks -/

lemma nothingLeaks_iff_apart (h : NoNumberBeside u text) : NothingLeaks u text ↔ MatchesApart u text := by
  rw [nothingLeaks_iff_noneLeft, MatchesApart, ← trackedPasses_patterns]
  refine noneLeft_cons_iff (track_nodup text) (numbers_tracked_bounded u) (trackedPasses_insulated h)
    (fun pass hpass => ?_) fun g hg => ?_
  · obtain ⟨lp, hlp, rfl⟩ := List.mem_map.1 hpass
    exact email_tears h hlp
  · refine noneLeft_iff_apart ((track_nodup text).sublist (Pattern.between_isInfix hg).sublist)
      (numbers_tracked_bounded u) ?_
    rw [List.pairwise_map]
    exact (number_firm u).imp Firm.comap

lemma nothingLeaks_iff_covered (h : NumbersApart u text) :
    NothingLeaks u text ↔ ∀ lp ∈ PII_PATTERNS u, ∀ m ∈ matchesOf u text lp.2, ∀ t ∈ m, Covered u text t := by
  rw [nothingLeaks_iff_noneLeft, NoneLeft, trackedPasses, List.forall_mem_map]
  refine forall₂_congr fun lp _ => forall₂_congr fun m hm => forall₂_congr fun t ht => ?_
  rw [← trackedPasses, mem_leftovers_iff_not_covered h (subset_of_mem_found hm ht), not_not]

/-- The first pass leaves nothing of the addresses. -/
lemma nothingLeaks_of_inside (h : ∀ lp ∈ PII_PATTERNS u, ∀ m ∈ matchesOf u text lp.2,
    ∃ k ∈ matchesOf u text emailPattern, m ⊆ k) : NothingLeaks u text := by
  refine nothingLeaks_iff_noneLeft.2 fun pass hpass m hm t ht hleft => ?_
  obtain ⟨lp, hlp, rfl⟩ := List.mem_map.1 hpass
  obtain ⟨k, hk, hsub⟩ := h lp hlp m hm
  rw [trackedPasses_cons, leftovers_cons_iff] at hleft
  obtain ⟨g, hg, hleft⟩ := hleft
  exact Pattern.not_mem_of_between (track_nodup text) hg (mem_of_mem_leftovers hleft) hk (hsub ht)

/-- **When nothing leaks.**  What is tracked is `mask` and the matches of the text; and if no number stands directly beside
an e-mail address, masking leaks nothing iff the matches that are found in the text stand apart.  If one does, but the
numbers between the addresses stand apart, it leaks nothing iff these and the addresses have every character of every
match; and in any text if all matches lie inside addresses. -/
theorem nothing_leaks_iff (u : CharTable) (text : String) :
    (maskTracked u text).map Prod.fst = (mask u text).toList ∧
      (∀ lp ∈ PII_PATTERNS u, (matchesOf u text lp.2).map (List.map Prod.fst) = lp.2.found u.word text.toList) ∧
      (NoNumberBeside u text → (NothingLeaks u text ↔ MatchesApart u text)) ∧
      (NumbersApart u text → (NothingLeaks u text ↔
        ∀ lp ∈ PII_PATTERNS u, ∀ m ∈ matchesOf u text lp.2, ∀ t ∈ m, Covered u text t)) ∧
      ((∀ lp ∈ PII_PATTERNS u, ∀ m ∈ matchesOf u text lp.2, ∃ k ∈ matchesOf u text emailPattern, m ⊆ k) →
        NothingLeaks u text) :=
  ⟨maskTracked_fst u text, fun lp _ => matchesOf_fst u text lp.2, nothingLeaks_iff_apart, nothingLeaks_iff_covered,
    nothingLeaks_of_inside⟩

theorem nothing_leaks_card_and_ssn :
    NothingLeaks .ascii "Card 4111-1111-1111-1111, SSN 123-45-6789 (jane@example.com)" ∧
      NothingLeaks .ascii "a@b.com5551234567, 192.168.1.1" := by
  constructor
  · exact ((nothing_leaks_iff .ascii _).2.2.1 (by decide +kernel)).2 (by decide +kernel)
  · exact ((nothing_leaks_iff .ascii _).2.2.2.1 (by decide +kernel)).2 (by decide +kernel)

/-- The phone pass takes ten digits of a card number, and the other six are no card number any more. -/
theorem card_number_leaks : mask .ascii "123 456 7890 123 456" = "[REDACTED:PHONE] 123 456" ∧
    ¬ NothingLeaks .ascii "123 456 7890 123 456" := by
  refine ⟨by decide, fun h => ?_⟩
  have hcard : ∃ lp ∈ PII_PATTERNS .ascii,
      track "123 456 7890 123 456" ∈ matchesOf .ascii "123 456 7890 123 456" lp.2 :=
    ⟨(PII_PATTERNS .ascii)[3], List.getElem_mem _, by decide⟩
  obtain ⟨lp, hlp, hm⟩ := hcard
  exact h lp hlp _ hm '4' 17 (by decide) ⟨'4', by decide⟩

end Aimw.Guardrails
