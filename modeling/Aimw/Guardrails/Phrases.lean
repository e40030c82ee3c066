import Aimw.Guardrails.PrePass
import Aimw.Lib.Edges

/-!
# Phrases and e-mail addresses

The injection patterns that ask for word boundaries are phrases; the others are control tokens.  `mask` cuts a text at
its e-mail addresses first, and a phrase may lose a word to one.  No later pass overlaps a phrase, and none overlaps a
control token.

* `phrase_avoids`, `token_avoids` — what no pass overlaps;
* `PhraseStands` — a phrase apart from the e-mail addresses of a text, beside which a word may end;
* `injected_mask_iff_stands` — what is found in a masked text, told of the text itself.
-/

namespace Aimw.Guardrails

open Lib Regex

/-! ## Letters -/

lemma isAlpha_of_toLower {c l : Char} (hl : l.isAlpha = true) (h : c.toLower = l) : c.isAlpha = true := by
  unfold Char.toLower at h
  split_ifs at h with hc
  · have hupper : c.isUpper = true := decide_eq_true hc
    exact Bool.or_eq_true_iff.2 (Or.inl hupper)
  · rwa [h]

lemma sameLetter_cases {l c : Char} (hl : l.isAlpha = true) (hk : l ≠ 'k') (h : sameLetter l c = true) :
    c.isAlpha = true ∨ c ∈ foldedLetters := by
  simp only [sameLetter, Bool.or_eq_true, Bool.and_eq_true, beq_iff_eq] at h
  rcases h with ((hlower | ⟨-, rfl | rfl⟩) | ⟨rfl, -⟩) | ⟨-, rfl⟩
  · exact Or.inl (isAlpha_of_toLower hl hlower)
  · exact Or.inr (by decide)
  · exact Or.inr (by decide)
  · exact absurd rfl hk
  · exact Or.inr (by decide)

lemma isLocal_of_isAlpha {c : Char} (h : c.isAlpha = true) : isLocal c = true := by
  simp [isLocal, Char.isAlphanum, h]

/-! ## The ends of a phrase -/

lemma textIgnoreCase_forall₂ {s : String} {m : List Char} (h : (textIgnoreCase s).Matches m) :
    List.Forall₂ (fun l c => sameLetter l c = true) s.toList m := by
  have hfold : ∀ (ls m : List Char), (ls.foldr (fun l r => seq (cls (sameLetter l)) r) eps).Matches m →
      List.Forall₂ (fun l c => sameLetter l c = true) ls m := by
    intro ls
    induction ls with
    | nil =>
      rintro m rfl
      exact .nil
    | cons l ls ih =>
      rintro m ⟨s₁, s₂, rfl, ⟨c, rfl, hc⟩, h₂⟩
      exact .cons hc (ih s₂ h₂)
  exact hfold s.toList m h

lemma word_first {s : String} {l : Char} {m : List Char} (h : (textIgnoreCase s).Matches m)
    (hl : s.toList.head? = some l) : ∃ c, m.head? = some c ∧ sameLetter l c = true := by
  have hall := textIgnoreCase_forall₂ h
  obtain ⟨ls, hls⟩ := List.head?_eq_some_iff.1 hl
  rw [hls] at hall
  obtain ⟨c, m', hc, -, rfl⟩ := List.forall₂_cons_left_iff.1 hall
  exact ⟨c, rfl, hc⟩

lemma word_last {s : String} {l : Char} {m : List Char} (h : (textIgnoreCase s).Matches m)
    (hl : s.toList.getLast? = some l) : ∃ c, m.getLast? = some c ∧ sameLetter l c = true := by
  have hall := List.rel_reverse (textIgnoreCase_forall₂ h)
  rw [List.getLast?_eq_head?_reverse] at hl ⊢
  obtain ⟨ls, hls⟩ := List.head?_eq_some_iff.1 hl
  rw [hls] at hall
  obtain ⟨c, m', hc, -, hm⟩ := List.forall₂_cons_left_iff.1 hall
  exact ⟨c, by rw [hm]; rfl, hc⟩

/-- The first and the last letter of a phrase. -/
def EndsInLetters (m : List Char) : Prop :=
  (∃ c, m.head? = some c ∧ (c.isAlpha = true ∨ c ∈ foldedLetters)) ∧
    ∃ c, m.getLast? = some c ∧ (c.isAlpha = true ∨ c ∈ foldedLetters)

lemma endsInLetters_of {m s r : List Char} {l l' c c' : Char} (hm : m = s ++ r) (hfirst : s.head? = some c)
    (hc : sameLetter l c = true) (hlast : m.getLast? = some c') (hc' : sameLetter l' c' = true)
    (hl : l.isAlpha = true ∧ l ≠ 'k') (hl' : l'.isAlpha = true ∧ l' ≠ 'k') : EndsInLetters m := by
  refine ⟨⟨c, ?_, sameLetter_cases hl.1 hl.2 hc⟩, c', hlast, sameLetter_cases hl'.1 hl'.2 hc'⟩
  rw [hm, List.head?_append, hfirst]
  rfl

/-- A pattern between word boundaries begins and ends with a letter. -/
lemma injection_ends {lp : String × Pattern Char} (h : lp ∈ PROMPT_INJECTION_PATTERNS) (hbounded : lp.2.bounded = true)
    {m : List Char} (hm : lp.2.core.Matches m) : EndsInLetters m := by
  simp only [PROMPT_INJECTION_PATTERNS, List.mem_cons, List.not_mem_nil, or_false] at h
  rcases h with rfl | rfl | rfl
  · obtain ⟨s₁, t₁, rfl, h₁, s₂, t₂, rfl, -, s₃, t₃, rfl, -, s₄, t₄, rfl, -, s₅, s₆, rfl, -, h₆⟩ := hm
    obtain ⟨c, hc, hfirst⟩ := word_first h₁ (by decide : "ignore".toList.head? = some 'i')
    obtain ⟨c', hc', hlast⟩ := word_last h₆ (by decide : "instructions".toList.getLast? = some 's')
    exact endsInLetters_of rfl hc hfirst (by simp [hc']) hlast (by decide) (by decide)
  · cases hbounded
  · obtain ⟨s₁, t₁, rfl, h₁, s₂, t₂, rfl, -, s₃, t₃, rfl, -, s₄, t₄, rfl, -, s₅, t₅, rfl, -, s₆, s₇, rfl, -, h₇⟩ := hm
    obtain ⟨c, hc, hfirst⟩ := word_first h₁ (by decide : "you".toList.head? = some 'y')
    rcases h₇ with h₇ | h₇
    · obtain ⟨c', hc', hlast⟩ := word_last h₇ (by decide : "a".toList.getLast? = some 'a')
      exact endsInLetters_of rfl hc hfirst (by simp [hc']) hlast (by decide) (by decide)
    · obtain ⟨c', hc', hlast⟩ := word_last h₇ (by decide : "an".toList.getLast? = some 'n')
      exact endsInLetters_of rfl hc hfirst (by simp [hc']) hlast (by decide) (by decide)

/-! ## E-mail addresses -/

lemma email_greedy : emailCore.Greedy Char.isAlpha :=
  Greedy.seq (Greedy.seq (Greedy.seq (Greedy.seq (Greedy.seq (Greedy.seq (greedy_star _) _) _) _) _) _) _

/-- An e-mail address may begin with one more letter. -/
lemma email_longer {c : Char} {m : List Char} (hc : isLocal c = true) (hm : emailCore.Matches m) :
    emailCore.Matches (c :: m) := by
  obtain ⟨s₁, t, rfl, ⟨a, b, rfl, ⟨d, rfl, hd⟩, hb⟩, ht⟩ := hm
  refine ⟨c :: ([d] ++ b), t, rfl, ⟨[c], [d] ++ b, rfl, ⟨c, rfl, hc⟩, ?_⟩, ht⟩
  exact List.forall_mem_cons.2 ⟨hd, hb⟩

/-! ## What no pass overlaps -/

section Tables

variable (u : CharTable)

lemma ignoreCase_within {P : Char → Prop} {s : String} (h : ∀ l ∈ s.toList, ∀ c, sameLetter l c = true → P c) :
    (textIgnoreCase s).Within P := by
  rw [textIgnoreCase]
  generalize s.toList = l at h
  induction l with
  | nil => trivial
  | cons c l ih =>
    rw [List.forall_mem_cons] at h
    exact ⟨h.1, ih h.2⟩

/-- A phrase has no key letter. -/
lemma phrase_not_key {lp : String × Pattern Char} (h : lp ∈ PROMPT_INJECTION_PATTERNS) (hbounded : lp.2.bounded = true) :
    lp.2.core.Within (¬ IsKey u ·) := by
  have hword : ∀ s : String, (∀ l ∈ s.toList, l.isAlpha = true ∧ l ≠ 'k') → (textIgnoreCase s).Within (¬ IsKey u ·) :=
    fun s hs => ignoreCase_within fun l hl c hc => letter_not_key u (sameLetter_cases (hs l hl).1 (hs l hl).2 hc)
  have hspaces : (plus isSpace).Within (¬ IsKey u ·) := ⟨fun _ => space_not_key u, fun _ => space_not_key u⟩
  simp only [PROMPT_INJECTION_PATTERNS, List.mem_cons, List.not_mem_nil, or_false] at h
  rcases h with rfl | rfl | rfl
  · exact ⟨hword _ (by decide), hspaces, ⟨⟨hword _ (by decide), hspaces⟩, trivial⟩,
      ⟨hword _ (by decide), hword _ (by decide), hword _ (by decide)⟩, hspaces, hword _ (by decide)⟩
  · cases hbounded
  · exact ⟨hword _ (by decide), hspaces, hword _ (by decide), hspaces, hword _ (by decide), hspaces, hword _ (by decide),
      hword _ (by decide)⟩

/-- **No number overlaps a phrase.** -/
theorem phrase_avoids {lp number : String × Pattern Char} (h : lp ∈ PROMPT_INJECTION_PATTERNS)
    (hbounded : lp.2.bounded = true) (hnumber : number ∈ numberPatterns u) {m : List Char} (hm : lp.2.core.Matches m) :
    number.2.Avoids m := by
  intro m' hm'
  obtain ⟨⟨c, hc, hfirst⟩, d, hd, hlast⟩ := injection_ends h hbounded hm
  have hchars := (numbers_within u number hnumber).forall_mem hm'
  refine ⟨fun c' hc' hmem => ?_, fun d' hd' hmem => ?_, fun hin => ?_⟩
  · obtain rfl := Option.some.inj (hc.symm.trans hc')
    exact letter_not_number u hfirst (hchars c hmem)
  · obtain rfl := Option.some.inj (hd.symm.trans hd')
    exact letter_not_number u hlast (hchars d hmem)
  · obtain ⟨e, he, hdigit⟩ := (numbers_need u number hnumber).exists_mem hm'
    exact (phrase_not_key u h hbounded).forall_mem hm e (hin.subset he) (Or.inr hdigit)

lemma phrase_wordlike {lp : String × Pattern Char} (h : lp ∈ PROMPT_INJECTION_PATTERNS) (hbounded : lp.2.bounded = true) :
    lp.2.Wordlike u.word := by
  intro m hm
  obtain ⟨⟨c, hc, hfirst⟩, d, hd, hlast⟩ := injection_ends h hbounded hm
  rw [hc, hd]
  exact ⟨letter_word u hfirst, letter_word u hlast⟩

lemma bracket_not_key {c : Char} (h : c ∈ brackets) : ¬ IsKey u c := by
  rintro (rfl | hd)
  · exact absurd h (by decide)
  · exact isDecimal_noBracket u hd h

lemma text_within {P : Char → Prop} {s : String} (h : ∀ c ∈ s.toList, P c) : (text s).Within P := by
  rw [text]
  generalize s.toList = l at h
  induction l with
  | nil => trivial
  | cons c l ih =>
    rw [List.forall_mem_cons] at h
    refine ⟨fun d hd => ?_, ih h.2⟩
    obtain rfl : d = c := by simpa using hd
    exact h.1

/-- A control token stands in brackets, and has no key letter. -/
lemma token_shape {lp : String × Pattern Char} (h : lp ∈ PROMPT_INJECTION_PATTERNS) (hbounded : lp.2.bounded = false)
    {m : List Char} (hm : lp.2.core.Matches m) : (∃ c ∈ brackets, m.head? = some c) ∧
      (∃ c ∈ brackets, m.getLast? = some c) ∧ ∀ c ∈ m, ¬ IsKey u c := by
  have hspaces : (star isSpace).Within (¬ IsKey u ·) := fun _ => space_not_key u
  have htext : ∀ s : String, (∀ c ∈ s.toList, c.isAlpha = true ∨ c ∈ brackets) → (text s).Within (¬ IsKey u ·) :=
    fun s hs => text_within fun c hc => (hs c hc).elim (fun ha => letter_not_key u (Or.inl ha)) (bracket_not_key u)
  simp only [PROMPT_INJECTION_PATTERNS, List.mem_cons, List.not_mem_nil, or_false] at h
  rcases h with rfl | rfl | rfl
  · cases hbounded
  · have hwithin : forgedControlTokenCore.Within (¬ IsKey u ·) :=
      ⟨⟨htext _ (by decide), hspaces, ⟨htext _ (by decide), htext _ (by decide), htext _ (by decide)⟩, hspaces,
        htext _ (by decide)⟩, htext _ (by decide), hspaces, htext _ (by decide), hspaces, htext _ (by decide)⟩
    refine ⟨?_, ?_, hwithin.forall_mem hm⟩
    · rcases hm with ⟨o, t, rfl, ho, -⟩ | ⟨o, t, rfl, ho, -⟩
      · rw [text_matches_iff.1 ho]
        exact ⟨'<', by decide, rfl⟩
      · rw [text_matches_iff.1 ho]
        exact ⟨'[', by decide, rfl⟩
    · rcases hm with ⟨o, t, rfl, -, s, t', rfl, -, n, t'', rfl, -, s', c, rfl, -, hc⟩ |
        ⟨o, t, rfl, -, s, t', rfl, -, n, t'', rfl, -, s', c, rfl, -, hc⟩
      · rw [text_matches_iff.1 hc]
        exact ⟨'>', by decide, by simp⟩
      · rw [text_matches_iff.1 hc]
        exact ⟨']', by decide, by simp⟩
  · cases hbounded

/-- **Nothing overlaps a control token.** -/
theorem token_avoids {lp pii : String × Pattern Char} (h : lp ∈ PROMPT_INJECTION_PATTERNS)
    (hbounded : lp.2.bounded = false) (hpii : pii ∈ PII_PATTERNS u) {m : List Char} (hm : lp.2.core.Matches m) :
    pii.2.Avoids m := by
  intro m' hm'
  obtain ⟨⟨c, hc, hfirst⟩, ⟨d, hd, hlast⟩, hkey⟩ := token_shape u h hbounded hm
  have hchars := noBracket_of_matches u pii hpii m' hm'
  refine ⟨fun c' hc' hmem => ?_, fun d' hd' hmem => ?_, fun hin => ?_⟩
  · obtain rfl := Option.some.inj (hfirst.symm.trans hc')
    exact hchars c hmem hc
  · obtain rfl := Option.some.inj (hlast.symm.trans hd')
    exact hchars d hmem hd
  · obtain ⟨e, he, hkey'⟩ := needs_key u pii hpii m' hm'
    exact hkey e (hin.subset he) hkey'

/-! ## What is found in a masked text -/

/-- A phrase in the text that no e-mail address overlaps.  At each end there is a word boundary, or an address directly
beside a letter that it could not take. -/
def PhraseStands (text : String) : Prop :=
  ∃ lp ∈ PROMPT_INJECTION_PATTERNS, lp.2.bounded = true ∧ ∃ before phrase behind,
    addressScan u text = before ++ (phrase.map .keep ++ behind) ∧ lp.2.core.Matches phrase ∧
    (boundary u.word (before.flatMap Piece.text).getLast? phrase.head? = true ∨
      Pattern.BehindHit before ∧ ∃ c ∈ foldedLetters, phrase.head? = some c) ∧
    (boundary u.word phrase.getLast? (behind.flatMap Piece.text).head? = true ∨
      Pattern.BeforeHit behind ∧ ∃ c ∈ foldedLetters, phrase.getLast? = some c)

/-- A control token is found in the text. -/
def TokenFound (text : String) : Prop :=
  ∃ lp ∈ PROMPT_INJECTION_PATTERNS, lp.2.bounded = false ∧ search u lp.2 text = true

variable {u} {text : String}

/-- An address takes all the letters it can, and so only a folded letter stands directly beside one. -/
lemma foundApart_phrase_iff {lp : String × Pattern Char} (h : lp ∈ PROMPT_INJECTION_PATTERNS)
    (hbounded : lp.2.bounded = true) : emailPattern.FoundApart u.word lp.2 text.toList ↔ ∃ before phrase behind,
      addressScan u text = before ++ (phrase.map .keep ++ behind) ∧ lp.2.core.Matches phrase ∧
      (boundary u.word (before.flatMap Piece.text).getLast? phrase.head? = true ∨
        Pattern.BehindHit before ∧ ∃ c ∈ foldedLetters, phrase.head? = some c) ∧
      (boundary u.word phrase.getLast? (behind.flatMap Piece.text).head? = true ∨
        Pattern.BeforeHit behind ∧ ∃ c ∈ foldedLetters, phrase.getLast? = some c) := by
  constructor
  · rintro ⟨before, phrase, behind, hscan, hm, hedges⟩
    obtain ⟨hleft, hright⟩ := hedges hbounded
    obtain ⟨⟨c, hc, hfirst⟩, d, hd, hlast⟩ := injection_ends h hbounded hm
    refine ⟨before, phrase, behind, hscan, hm, ?_, ?_⟩
    · refine hleft.symm.imp_right fun hhit => ⟨hhit, c, hfirst.resolve_left fun halpha => ?_, hc⟩
      obtain ⟨ps, m, rfl⟩ := hhit
      obtain ⟨rest, rfl⟩ := List.head?_eq_some_iff.1 hc
      rw [Pattern.behind_hit rfl email_greedy hscan] at halpha
      cases halpha
    · refine hright.symm.imp_right fun hhit => ⟨hhit, d, hlast.resolve_left fun halpha => ?_, hd⟩
      obtain ⟨m, ps, rfl⟩ := hhit
      obtain ⟨rest, rfl⟩ := List.getLast?_eq_some_iff.1 hd
      obtain ⟨hm', hlonger⟩ := Pattern.before_hit rfl hscan
      exact hlonger (email_longer (isLocal_of_isAlpha halpha) hm')
  · rintro ⟨before, phrase, behind, hscan, hm, hleft, hright⟩
    exact ⟨before, phrase, behind, hscan, hm, fun _ => ⟨hleft.symm.imp_left And.left, hright.symm.imp_left And.left⟩⟩

/-- **What is found in a masked text**: the control tokens of the text, and the phrases that stand apart from its e-mail
addresses. -/
theorem injected_mask_iff_stands : Injected u (mask u text) ↔ TokenFound u text ∨ PhraseStands u text := by
  have hapart : ∀ lp ∈ PROMPT_INJECTION_PATTERNS,
      (∃ f ∈ leftovers u.word (passes (PII_PATTERNS u)) text.toList, ¬ lp.2.Clean u.word f) ↔
        emailPattern.FoundApart u.word lp.2 text.toList := by
    intro lp hlp
    have hpasses : passes (PII_PATTERNS u) = ⟨emailPattern, marker "email"⟩ :: passes (numberPatterns u) := rfl
    rw [hpasses]
    refine unclean_leftover_iff (phrase_wordlike u hlp) (fun pass hpass => ?_) fun pass hpass m hm => ?_
    · obtain ⟨number, hnumber, rfl⟩ := List.mem_map.1 hpass
      exact numbers_bounded u number hnumber
    · obtain ⟨number, hnumber, rfl⟩ := List.mem_map.1 hpass
      cases hbounded : lp.2.bounded with
      | true => exact phrase_avoids u hlp hbounded hnumber hm
      | false => exact token_avoids u hlp hbounded (List.mem_of_mem_tail hnumber) hm
  have htoken : ∀ lp ∈ PROMPT_INJECTION_PATTERNS, lp.2.bounded = false →
      (emailPattern.FoundApart u.word lp.2 text.toList ↔ search u lp.2 text = true) := by
    intro lp hlp hbounded
    rw [search, ← Bool.not_eq_false, Pattern.search_eq_false_iff]
    constructor
    · rintro ⟨before, m, behind, hscan, hm, -⟩ hclean
      have htext := (Pattern.scanned_scan u.word emailPattern none text.toList).text
      rw [hscan, List.flatMap_append, List.flatMap_append, keep_text] at htext
      exact (Pattern.clean_iff_of_unbounded hbounded).1 hclean m ⟨_, _, by rw [List.append_assoc, htext]⟩ hm
    · exact Pattern.foundApart_of_avoids fun m hm =>
        token_avoids u hlp hbounded (patterns_eq u ▸ List.mem_cons_self) hm
  rw [injected_mask_iff]
  constructor
  · rintro ⟨f, hf, hinjected⟩
    obtain ⟨g, hg, rfl⟩ := List.mem_map.1 hf
    obtain ⟨lp, hlp, hunclean⟩ := (injected_iff u).1 hinjected
    rw [String.toList_ofList] at hunclean
    have hfound := (hapart lp hlp).1 ⟨g, hg, hunclean⟩
    cases hbounded : lp.2.bounded with
    | true => exact Or.inr ⟨lp, hlp, hbounded, (foundApart_phrase_iff hlp hbounded).1 hfound⟩
    | false => exact Or.inl ⟨lp, hlp, hbounded, (htoken lp hlp hbounded).1 hfound⟩
  · intro h
    obtain ⟨lp, hlp, hfound⟩ : ∃ lp ∈ PROMPT_INJECTION_PATTERNS, emailPattern.FoundApart u.word lp.2 text.toList := by
      rcases h with ⟨lp, hlp, hbounded, h⟩ | ⟨lp, hlp, hbounded, h⟩
      · exact ⟨lp, hlp, (htoken lp hlp hbounded).2 h⟩
      · exact ⟨lp, hlp, (foundApart_phrase_iff hlp hbounded).2 h⟩
    obtain ⟨f, hf, hunclean⟩ := (hapart lp hlp).2 hfound
    refine ⟨String.ofList f, List.mem_map_of_mem hf, (injected_iff u).2 ⟨lp, hlp, ?_⟩⟩
    rwa [String.toList_ofList]

end Tables

end Aimw.Guardrails
