import Aimw.Audit.History

/-!
# The verdict on any file

`Verdict` says what an auditor is to be told of a file: that its records are a chain, or which of them is the first that
does not continue it.  `verify_chain` raises on a line that it cannot read, and it counts blank lines as records when it
names the broken one; on every other file it gives the verdict (`verdict_iff`).
-/

namespace Aimw.Audit

open Lib

variable (P : Platform)

/-- The line holds a record that continues the chain from `h`. -/
def Continues (h : String) (l : List Char) : Prop := ∃ r k, readLine P l = .ok r ∧ Links P h r k

/-- What an auditor is to be told of the lines of a file. -/
inductive Verdict (ls : List (List Char)) : ChainVerificationResult → Prop
  /-- The records are a chain. -/
  | valid {rs : List AuditRecord} {k : String} : Reads P ls rs → Linked (Links P) GENESIS_HASH rs k →
      Verdict ls ⟨true, rs.length, none⟩
  /-- After the chain `rs`, the record `bad` does not continue it. -/
  | broken {good rest : List (List Char)} {bad : List Char} {rs : List AuditRecord} {k : String} :
      ls = good ++ bad :: rest → Reads P good rs → Linked (Links P) GENESIS_HASH rs k → strip bad ≠ [] →
      ¬ Continues P k bad → Verdict ls ⟨false, rs.length, some rs.length⟩

variable {P}

/-- Lines are a chain, or there is a first one that breaks it. -/
lemma chain_or_broken (ls : List (List Char)) (h : String) :
    (∃ rs k, Reads P ls rs ∧ Linked (Links P) h rs k) ∨
      ∃ good bad rest rs k, ls = good ++ bad :: rest ∧ Reads P good rs ∧ Linked (Links P) h rs k ∧ strip bad ≠ [] ∧
        ¬ Continues P k bad := by
  induction ls generalizing h with
  | nil => exact Or.inl ⟨[], h, .nil, .nil h⟩
  | cons l ls ih =>
    by_cases hl : strip l = []
    · rcases ih h with ⟨rs, k, hreads, hlinked⟩ | ⟨good, bad, rest, rs, k, rfl, hreads, hlinked, hbad, hnot⟩
      · exact Or.inl ⟨rs, k, .blank hl hreads, hlinked⟩
      · exact Or.inr ⟨l :: good, bad, rest, rs, k, rfl, .blank hl hreads, hlinked, hbad, hnot⟩
    · by_cases hcontinues : Continues P h l
      · obtain ⟨r, m, hr, hlink⟩ := hcontinues
        rcases ih m with ⟨rs, k, hreads, hlinked⟩ | ⟨good, bad, rest, rs, k, rfl, hreads, hlinked, hbad, hnot⟩
        · exact Or.inl ⟨r :: rs, k, .record hl hr hreads, .cons hlink hlinked⟩
        · exact Or.inr ⟨l :: good, bad, rest, r :: rs, k, rfl, .record hl hr hreads, .cons hlink hlinked, hbad, hnot⟩
      · exact Or.inr ⟨[], l, ls, [], h, rfl, .nil, .nil h, hl, hcontinues⟩

/-- At a line that does not continue the chain, the loop ends if the line can be read, and its hash computed. -/
lemma verifyLines_broken {bad : List Char} {r : AuditRecord} {h d : String} (hbad : strip bad ≠ [])
    (hr : readLine P bad = .ok r) (hd : computeRecordHash P h r = .ok d) (hnot : ¬ Continues P h bad)
    (rest : List (List Char)) (i c : ℕ) : verifyLines P (bad :: rest) i c h = .ok ⟨false, c, some i⟩ := by
  rw [verifyLines_record hbad hr hd, if_pos]
  by_contra hgood
  rw [not_or, not_not, not_not] at hgood
  exact hnot ⟨r, r.recordHash, hr, hgood.1, hgood.2 ▸ hd, rfl⟩

lemma Reads.length_le {ls : List (List Char)} {rs : List AuditRecord} (h : Reads P ls rs) : rs.length ≤ ls.length := by
  induction h with
  | nil => exact le_rfl
  | blank _ _ ih => exact ih.trans (Nat.le_succ _)
  | record _ _ _ ih => exact Nat.succ_le_succ ih

/-- As many records as lines: no line is blank. -/
lemma Reads.length_eq_iff {ls : List (List Char)} {rs : List AuditRecord} (h : Reads P ls rs) :
    rs.length = ls.length ↔ ∀ l ∈ ls, strip l ≠ [] := by
  induction h with
  | nil => simp
  | @blank l ls rs hl hls _ =>
    refine iff_of_false (fun heq => ?_) fun hall => hall l List.mem_cons_self hl
    have hle := hls.length_le
    rw [heq, List.length_cons] at hle
    omega
  | @record l ls r rs hl _ _ ih =>
    rw [List.length_cons, List.length_cons, Nat.succ_inj, ih, List.forall_mem_cons]
    exact ⟨fun hall => ⟨hl, hall⟩, fun hall => hall.2⟩

/-- **`verify_chain` gives the verdict exactly if the first record that breaks the chain can be read, and no blank line
stands before it.** -/
theorem verdict_iff (P : Platform) (file : Option String) :
    (∃ res, verifyChain P file = .ok res ∧ Verdict P (lines file) res) ↔
      ∀ good bad rest rs k, lines file = good ++ bad :: rest → Reads P good rs → Linked (Links P) GENESIS_HASH rs k →
        strip bad ≠ [] → ¬ Continues P k bad →
          (∃ r d, readLine P bad = .ok r ∧ computeRecordHash P k r = .ok d) ∧ ∀ l ∈ good, strip l ≠ [] := by
  rw [verifyChain_eq]
  constructor
  · rintro ⟨res, hverify, hverdict⟩ good bad rest rs k hlines hreads hlinked hbad hnot
    rw [hlines, verifyLines_append hreads hlinked] at hverify
    obtain ⟨r, d, hr, hd⟩ := verifyLines_cons_ok hbad hverify
    refine ⟨⟨r, d, hr, hd⟩, hreads.length_eq_iff.1 ?_⟩
    rw [verifyLines_broken hbad hr hd hnot] at hverify
    generalize hls : lines file = ls at hverdict
    cases hverdict with
    | valid _ _ => simp at hverify
    | broken _ _ _ _ _ =>
      simp only [Except.ok.injEq, ChainVerificationResult.mk.injEq, Option.some.injEq, true_and] at hverify
      omega
  · intro h
    rcases chain_or_broken (P := P) (lines file) GENESIS_HASH with
      ⟨rs, k, hreads, hlinked⟩ | ⟨good, bad, rest, rs, k, hlines, hreads, hlinked, hbad, hnot⟩
    · refine ⟨_, ?_, .valid hreads hlinked⟩
      rw [verifyLines_of_linked hreads hlinked, Nat.zero_add]
    · obtain ⟨⟨r, d, hr, hd⟩, hblank⟩ := h good bad rest rs k hlines hreads hlinked hbad hnot
      have hlength := hreads.length_eq_iff.2 hblank
      refine ⟨_, ?_, .broken hlines hreads hlinked hbad hnot⟩
      rw [hlines, verifyLines_append hreads hlinked, verifyLines_broken hbad hr hd hnot, ← hlength, Nat.zero_add]

/-- A line that is no JSON. -/
theorem damaged_line_raises : ∃ e, verifyChain (codecPlatform sampleSha256) (some "x\n") = .error e := by
  have hlines : lines (some "x\n") = [['x']] := by decide +kernel
  have hread : ∃ e, readLine (codecPlatform sampleSha256) ['x'] = .error e := ⟨_, rfl⟩
  obtain ⟨e, hread⟩ := hread
  refine ⟨e, ?_⟩
  rw [verifyChain_eq, hlines, verifyLines_unread (by decide +kernel) hread]

end Aimw.Audit
