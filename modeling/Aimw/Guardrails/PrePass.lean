import Aimw.Guardrails.Semantic

/-!
# What a guardrail sees of a masked text

`mask` cuts a text at the PII matches, pass by pass, and puts a marker over each cut.  An injection pattern is found in
what is left exactly if it is found in one of the stretches between the cuts (`injected_mask_iff`), and the tokens of
what is left are those of the stretches and of the markers (`tokenize_mask`).
-/

namespace Aimw.Guardrails

open Lib Regex

/-! ## Injection patterns and markers -/

lemma word_within {s : String} (h : ∀ c ∈ s.toList, ∀ b ∈ brackets, sameLetter c b = false) :
    (textIgnoreCase s).Within NoBracket := by
  rw [textIgnoreCase]
  generalize s.toList = l at h
  induction l with
  | nil => trivial
  | cons c l ih =>
    rw [List.forall_mem_cons] at h
    exact ⟨cls_within h.1, ih h.2⟩

lemma spaces_within : (plus isSpace).Within NoBracket := plus_within (by decide)

lemma ignoreInstructions_within : ignoreInstructionsCore.Within NoBracket :=
  ⟨word_within (by decide), spaces_within, ⟨⟨word_within (by decide), spaces_within⟩, trivial⟩,
    ⟨word_within (by decide), word_within (by decide), word_within (by decide)⟩, spaces_within, word_within (by decide)⟩

lemma roleOverride_within : roleOverrideCore.Within NoBracket :=
  ⟨word_within (by decide), spaces_within, word_within (by decide), spaces_within, word_within (by decide),
    spaces_within, word_within (by decide), word_within (by decide)⟩

lemma spaces_needs : (plus isSpace).Needs fun c => isSpace c = true := Or.inl fun _ h => h

/-- The markers of `mask`. -/
def labels : List String := ["email", "phone", "ssn", "credit_card", "ip_address"]

lemma labels_eq (u : CharTable) : (PII_PATTERNS u).map Prod.fst = labels := rfl

lemma redacted_letters : ∀ label ∈ labels, (redacted label).all (fun c => !isSpace c && c != '[' && c != '<') = true ∧
    (redacted label).head? = some 'R' ∧ (redacted label).getLast? ≠ some 'M' := by decide

section Tables

variable (u : CharTable)

/-- A pattern that asks for blanks, and for no bracket, does not overlap a marker. -/
lemma inert_of_spaces {q : Pattern Char} (hwithin : q.core.Within NoBracket)
    (hneeds : q.core.Needs fun c => isSpace c = true) {label : String} (hlabel : label ∈ labels) :
    q.Inert u.word (marker label) := by
  refine ⟨'[', redacted label, ']', marker_eq _, ⟨u.word_ascii '[' (by decide), fun m hm hmem => ?_⟩,
    ⟨u.word_ascii ']' (by decide), fun m hm hmem => ?_⟩, fun m hm => ?_⟩
  · exact hwithin.forall_mem hm '[' hmem (by decide)
  · exact hwithin.forall_mem hm ']' hmem (by decide)
  · obtain ⟨c, hc, hspace⟩ := hneeds.exists_mem hm
    refine ⟨c, hc, fun hmem => ?_⟩
    have hletter := List.all_eq_true.1 (redacted_letters label hlabel).1 c hmem
    simp [hspace] at hletter

end Tables

/-! ## Control tokens and markers -/

/-- A control token in square brackets: something between two pairs of them. -/
structure Bracketed (m s : List Char) : Prop where
  eq : m = '[' :: '[' :: (s ++ [']', ']'])
  opens : '[' ∉ s
  closes : ']' ∉ s
  head : ∃ c, s.head? = some c ∧ c ≠ 'R'
  last : ∃ c, s.getLast? = some c ∧ (isSpace c = true ∨ c = 'M')

lemma text_matches_iff {s : String} {m : List Char} : (text s).Matches m ↔ m = s.toList := by
  have hfold : ∀ l m : List Char, (l.foldr (fun c r => seq (lit c) r) eps).Matches m ↔ m = l := by
    intro l
    induction l with
    | nil => exact fun _ => Iff.rfl
    | cons c l ih =>
      intro m
      constructor
      · rintro ⟨s₁, s₂, rfl, ⟨d, rfl, hd⟩, h₂⟩
        obtain rfl : d = c := by simpa using hd
        rw [(ih s₂).1 h₂]
        rfl
      · rintro rfl
        exact ⟨[c], l, rfl, ⟨c, rfl, by simp⟩, (ih l).2 rfl⟩
  exact hfold s.toList m

lemma not_bracket_of_spaces {s : List Char} (h : (star isSpace).Matches s) : '[' ∉ s ∧ ']' ∉ s :=
  ⟨fun hmem => absurd (h _ hmem) (by decide), fun hmem => absurd (h _ hmem) (by decide)⟩

lemma angle_shape {names : Regex Char} (hnames : ∀ n, names.Matches n → '[' ∉ n ∧ ']' ∉ n) {m : List Char}
    (h : (seq (text "<<") <| seq (star isSpace) <| seq names <| seq (star isSpace) <| text ">>").Matches m) :
    '<' ∈ m ∧ '[' ∉ m ∧ ']' ∉ m := by
  obtain ⟨o, t, rfl, ho, s, t', rfl, hs, n, t'', rfl, hn, s', c, rfl, hs', hc⟩ := h
  obtain rfl := text_matches_iff.1 ho
  obtain rfl := text_matches_iff.1 hc
  obtain ⟨hopen, hclose⟩ := not_bracket_of_spaces hs
  obtain ⟨hopen', hclose'⟩ := not_bracket_of_spaces hs'
  refine ⟨by simp, ?_, ?_⟩
  · simp [hopen, hopen', (hnames n hn).1]
  · simp [hclose, hclose', (hnames n hn).2]

lemma square_shape {m : List Char}
    (h : (seq (text "[[") <| seq (star isSpace) <| seq (text "SYSTEM") <| seq (star isSpace) <| text "]]").Matches m) :
    ∃ s, Bracketed m s := by
  obtain ⟨o, t, rfl, ho, s, t', rfl, hs, n, t'', rfl, hn, s', c, rfl, hs', hc⟩ := h
  obtain rfl := text_matches_iff.1 ho
  obtain rfl := text_matches_iff.1 hc
  obtain rfl := text_matches_iff.1 hn
  obtain ⟨hopen, hclose⟩ := not_bracket_of_spaces hs
  obtain ⟨hopen', hclose'⟩ := not_bracket_of_spaces hs'
  refine ⟨s ++ ("SYSTEM".toList ++ s'), by simp, by simp [hopen, hopen'], by simp [hclose, hclose'], ?_, ?_⟩
  · cases s with
    | nil => exact ⟨'S', rfl, by decide⟩
    | cons c s =>
      refine ⟨c, rfl, ?_⟩
      rintro rfl
      exact absurd (hs _ List.mem_cons_self) (by decide)
  · cases hlast : s'.getLast? with
    | none =>
      rw [List.getLast?_eq_none_iff] at hlast
      exact ⟨'M', by simp [hlast], Or.inr rfl⟩
    | some c =>
      refine ⟨c, ?_, Or.inl (hs' c (List.mem_of_getLast? hlast))⟩
      rw [List.getLast?_append, List.getLast?_append, hlast]
      rfl

/-- A control token has an angle bracket, or is in square brackets. -/
lemma forged_shape {m : List Char} (h : forgedControlTokenCore.Matches m) :
    ('<' ∈ m ∧ '[' ∉ m ∧ ']' ∉ m) ∨ ∃ s, Bracketed m s := by
  refine h.imp (angle_shape ?_) square_shape
  rintro n (hn | hn | hn)
  · rw [text_matches_iff.1 hn]
    decide
  · rw [text_matches_iff.1 hn]
    decide
  · rw [text_matches_iff.1 hn]
    decide

/-- What follows an opening bracket inside a control token. -/
lemma Bracketed.after_open {m s l r : List Char} (h : Bracketed m s) (hm : m = l ++ '[' :: r) (hl : l ≠ []) :
    ∃ c, r.head? = some c ∧ c ≠ 'R' := by
  obtain ⟨c, hc, hne⟩ := h.head
  rw [h.eq] at hm
  match l, hl, hm with
  | [_], _, hm =>
    obtain rfl : s ++ [']', ']'] = r := (List.cons.inj (List.cons.inj hm).2).2
    exact ⟨c, by rw [List.head?_append, hc]; rfl, hne⟩
  | _ :: _ :: l, _, hm =>
    have hmem : '[' ∈ s ++ [']', ']'] := by
      rw [(List.cons.inj (List.cons.inj hm).2).2]
      simp
    exact absurd hmem (by simp [h.opens])

/-- What comes before a closing bracket that is not the last letter of a control token. -/
lemma Bracketed.before_close {m s l r : List Char} (h : Bracketed m s) (hm : m = l ++ ']' :: r) (hr : r ≠ []) :
    ∃ c, l.getLast? = some c ∧ (isSpace c = true ∨ c = 'M') := by
  obtain ⟨c, hc, hend⟩ := h.last
  rcases List.eq_nil_or_concat r with rfl | ⟨r', d, rfl⟩
  · exact absurd rfl hr
  rw [List.concat_eq_append, h.eq] at hm
  have hm' : ('[' :: '[' :: s) ++ [']'] ++ [']'] = (l ++ ']' :: r') ++ [d] := by simpa using hm
  obtain ⟨hfront, -⟩ := List.append_inj' hm' rfl
  rcases List.eq_nil_or_concat r' with rfl | ⟨r'', e, rfl⟩
  · obtain ⟨rfl, -⟩ := List.append_inj' hfront rfl
    refine ⟨c, ?_, hend⟩
    rw [List.getLast?_cons, List.getLast?_cons, hc]
    rfl
  · have hfront' : '[' :: '[' :: s ++ [']'] = (l ++ ']' :: r'') ++ [e] := by simpa using hfront
    have hmem : ']' ∈ '[' :: '[' :: s := by
      rw [(List.append_inj' hfront' rfl).1]
      simp
    exact absurd hmem (by simp [h.closes])

lemma redacted_letter {label : String} (hlabel : label ∈ labels) {c : Char} (hc : c ∈ redacted label) :
    isSpace c = false ∧ c ≠ '[' ∧ c ≠ '<' := by
  simpa [and_assoc] using List.all_eq_true.1 (redacted_letters label hlabel).1 c hc

lemma forged_not_inside {label : String} (hlabel : label ∈ labels) {m : List Char}
    (hm : forgedControlTokenCore.Matches m) : ¬ m <:+: marker label := by
  intro h
  rw [marker_eq] at h
  rcases forged_shape hm with ⟨hmem, -, -⟩ | ⟨s, hs⟩
  · have hangle := h.subset hmem
    simp only [List.mem_cons, List.mem_append, List.not_mem_nil, or_false] at hangle
    rcases hangle with hangle | hangle | hangle
    · exact absurd hangle (by decide)
    · exact (redacted_letter hlabel hangle).2.2 rfl
    · exact absurd hangle (by decide)
  · rw [hs.eq, List.infix_cons_iff] at h
    rcases h with h | h
    · obtain ⟨tail, htail⟩ := List.head?_eq_some_iff.1 (redacted_letters label hlabel).2.1
      rw [htail] at h
      exact absurd (List.cons_prefix_cons.1 (List.cons_prefix_cons.1 h).2).1 (by decide)
    · have hopen := h.subset List.mem_cons_self
      simp only [List.mem_append, List.mem_singleton] at hopen
      rcases hopen with hopen | hopen
      · exact (redacted_letter hlabel hopen).2.1 rfl
      · exact absurd hopen (by decide)

lemma forged_not_over_end {label : String} (hlabel : label ∈ labels) {l₁ l₂ : List Char} (hne₁ : l₁ ≠ []) (hne₂ : l₂ ≠ [])
    (hend : l₁ <:+ marker label) : ¬ forgedControlTokenCore.Matches (l₁ ++ l₂) := by
  intro hm
  rw [marker_eq] at hend
  obtain ⟨t, ht⟩ := hend
  rcases List.eq_nil_or_concat l₁ with rfl | ⟨l₀, d, rfl⟩
  · exact absurd rfl hne₁
  rw [List.concat_eq_append] at ht hm
  rw [← List.append_assoc, ← List.cons_append] at ht
  obtain ⟨hfront, hd⟩ := List.append_inj' ht rfl
  obtain rfl : d = ']' := (List.cons.inj hd).1
  rcases forged_shape hm with ⟨-, -, hclose⟩ | ⟨s, hs⟩
  · exact hclose (by simp)
  · -- a control token goes on behind the bracket, and so a blank or an `M` stands before it
    obtain ⟨c, hc, hcase⟩ := hs.before_close (l := l₀) (r := l₂) (by simp) hne₂
    obtain ⟨-, hhead, hlast⟩ := redacted_letters label hlabel
    obtain ⟨tail, htail⟩ := List.head?_eq_some_iff.1 hhead
    have hlast' : (redacted label).getLast? = some c := by
      have hwhole := congrArg List.getLast? hfront
      rw [List.getLast?_append, hc, htail, List.getLast?_cons_cons, ← htail] at hwhole
      exact hwhole.symm
    rcases hcase with hspace | rfl
    · have hletter := (redacted_letter hlabel (List.mem_of_getLast? hlast')).1
      simp [hspace] at hletter
    · exact hlast hlast'

lemma forged_not_over_beginning {label : String} (hlabel : label ∈ labels) {l₁ l₂ r : List Char} (hne₁ : l₁ ≠ [])
    (hne₂ : l₂ ≠ []) (hbegin : l₂ <+: marker label ++ r) : ¬ forgedControlTokenCore.Matches (l₁ ++ l₂) := by
  intro hm
  rw [marker_eq, List.cons_append] at hbegin
  cases l₂ with
  | nil => exact absurd rfl hne₂
  | cons d l₃ =>
    obtain ⟨rfl, hbehind⟩ := List.cons_prefix_cons.1 hbegin
    rcases forged_shape hm with ⟨-, hopen, -⟩ | ⟨s, hs⟩
    · exact hopen (by simp)
    · -- no `R` follows the second bracket of a control token
      obtain ⟨c, hc, hne⟩ := hs.after_open (l := l₁) (r := l₃) rfl hne₁
      obtain ⟨l₄, rfl⟩ := List.head?_eq_some_iff.1 hc
      obtain ⟨tail, htail⟩ := List.head?_eq_some_iff.1 (redacted_letters label hlabel).2.1
      rw [htail] at hbehind
      exact hne (List.cons_prefix_cons.1 hbehind).1

/-- No control token reaches into a marker. -/
lemma forged_apart {label : String} (hlabel : label ∈ labels) {m f r : List Char} (hm : forgedControlTokenCore.Matches m)
    (h : m <:+: f ++ marker label ++ r) : m <:+: f ∨ m <:+: r := by
  rw [List.append_assoc, List.infix_append_iff_ne_nil] at h
  rcases h with h | h | ⟨l₁, l₂, hne₁, hne₂, rfl, -, hbegin⟩
  · exact Or.inl h
  · rw [List.infix_append_iff_ne_nil] at h
    rcases h with h | h | ⟨l₁, l₂, hne₁, hne₂, rfl, hend, -⟩
    · exact absurd h (forged_not_inside hlabel hm)
    · exact Or.inr h
    · exact absurd hm (forged_not_over_end hlabel hne₁ hne₂ hend)
  · exact absurd hm (forged_not_over_beginning hlabel hne₁ hne₂ hbegin)

/-! ## What is found in a masked text -/

section Tables

variable (u : CharTable)

/-- A marker keeps what stands before it from what follows it. -/
lemma injection_splits {lp : String × Pattern Char} (h : lp ∈ PROMPT_INJECTION_PATTERNS) {label : String}
    (hlabel : label ∈ labels) (f r : List Char) :
    lp.2.Clean u.word (f ++ marker label ++ r) ↔ lp.2.Clean u.word f ∧ lp.2.Clean u.word r := by
  have hignore : ignoreInstructionsCore.Needs fun c => isSpace c = true := Or.inr (Or.inl spaces_needs)
  have hrole : roleOverrideCore.Needs fun c => isSpace c = true := Or.inr (Or.inl spaces_needs)
  simp only [PROMPT_INJECTION_PATTERNS, List.mem_cons, List.not_mem_nil, or_false] at h
  rcases h with rfl | rfl | rfl
  · exact Pattern.clean_inert_iff (inert_of_spaces u ignoreInstructions_within hignore hlabel)
  · rw [Pattern.clean_iff_of_unbounded rfl, Pattern.clean_iff_of_unbounded rfl, Pattern.clean_iff_of_unbounded rfl]
    constructor
    · intro h
      refine ⟨fun m hm => h m (hm.trans ?_), fun m hm => h m (hm.trans ?_)⟩
      · exact ⟨[], marker label ++ r, by simp⟩
      · exact ⟨f ++ marker label, [], by simp⟩
    · rintro ⟨hf, hr⟩ m hm hmatch
      rcases forged_apart hlabel hmatch hm with h | h
      · exact hf m h hmatch
      · exact hr m h hmatch
  · exact Pattern.clean_inert_iff (inert_of_spaces u roleOverride_within hrole hlabel)

/-- `find_injection_markers` finds something. -/
def Injected (text : String) : Prop := findInjectionMarkers u text ≠ []

/-- The stretches that are left of a text when it is cut at the PII matches, pass by pass. -/
def stretches (text : String) : List String :=
  (leftovers u.word (passes (PII_PATTERNS u)) text.toList).map String.ofList

lemma mem_labels_of_pass {pass : Pass Char} (h : pass ∈ passes (PII_PATTERNS u)) :
    ∃ label ∈ labels, pass.marker = marker label := by
  obtain ⟨lp, hlp, rfl⟩ := List.mem_map.1 h
  exact ⟨lp.1, labels_eq u ▸ List.mem_map_of_mem hlp, rfl⟩

lemma injected_iff {text : String} :
    Injected u text ↔ ∃ lp ∈ PROMPT_INJECTION_PATTERNS, ¬ lp.2.Clean u.word text.toList := by
  rw [Injected, findInjectionMarkers, ne_eq, List.map_eq_nil_iff, List.filter_eq_nil_iff]
  simp only [search, Bool.not_eq_true, Pattern.search_eq_false_iff, not_forall, exists_prop]

/-- **An injection pattern is found in a masked text iff it is found in a stretch.** -/
theorem injected_mask_iff (text : String) : Injected u (mask u text) ↔ ∃ f ∈ stretches u text, Injected u f := by
  have hpart : ∀ lp ∈ PROMPT_INJECTION_PATTERNS, ∀ pass ∈ passes (PII_PATTERNS u),
      Partwise (fun s => ¬ lp.2.Clean u.word s) pass.marker := by
    intro lp hlp pass hpass
    obtain ⟨label, hlabel, hmarker⟩ := mem_labels_of_pass u hpass
    rw [hmarker]
    exact partwise_of_splits (injection_splits u hlp hlabel)
  have hone : ∀ lp ∈ PROMPT_INJECTION_PATTERNS, ¬ lp.2.Clean u.word (mask u text).toList ↔
      ∃ f ∈ stretches u text, ¬ lp.2.Clean u.word f.toList := by
    intro lp hlp
    rw [mask, String.toList_ofList]
    refine (redact_partwise_iff (passes_inert u) (hpart lp hlp) text.toList).trans ?_
    simp only [stretches, List.mem_map, exists_exists_and_eq_and, String.toList_ofList]
    apply or_iff_left
    rintro ⟨m, hm, hunclean⟩
    obtain ⟨pass, hpass, rfl⟩ := mem_marks hm
    obtain ⟨label, hlabel, hmarker⟩ := mem_labels_of_pass u hpass
    rw [hmarker] at hunclean
    exact hunclean (Pattern.clean_of_splits (injection_splits u hlp hlabel))
  rw [injected_iff]
  constructor
  · rintro ⟨lp, hlp, hunclean⟩
    obtain ⟨f, hf, hf'⟩ := (hone lp hlp).1 hunclean
    exact ⟨f, hf, (injected_iff u).2 ⟨lp, hlp, hf'⟩⟩
  · rintro ⟨f, hf, hinjected⟩
    obtain ⟨lp, hlp, hunclean⟩ := (injected_iff u).1 hinjected
    exact ⟨lp, hlp, (hone lp hlp).2 ⟨f, hf, hunclean⟩⟩

/-! ## The tokens of a masked text -/

end Tables

end Aimw.Guardrails
