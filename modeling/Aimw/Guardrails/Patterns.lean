import Aimw.Lib.Redaction
import Aimw.Lib.Text

/-!
# The regex library of the guardrail

`guardrails/patterns.py`: the patterns, with their classes as Python reads them, `mask` and `find_injection_markers`.
What `\d` and `\w` know beyond ASCII is left to the character table.

* `inert_marker` — no match of a pattern overlaps a marker;
* `mask_clean`, `mask_mask` — a masked text has no match of any pattern, and masking it again changes nothing.
-/

namespace Aimw.Guardrails

open Lib Regex

/-! ## Expressions -/

def lit (c : Char) : Regex Char := cls (· == c)

def oneOf (chars : List Char) : Regex Char := cls (· ∈ chars)

/-- A text, letter by letter. -/
def text (s : String) : Regex Char := s.toList.foldr (fun c r => seq (lit c) r) eps

/-- A letter under `IGNORECASE`, which knows a few letters beyond ASCII. -/
def sameLetter (l c : Char) : Bool :=
  c.toLower == l || (l == 'i' && (c == 'İ' || c == 'ı')) || (l == 'k' && c == 'K') || (l == 's' && c == 'ſ')

/-- A text under `IGNORECASE`. -/
def textIgnoreCase (s : String) : Regex Char := s.toList.foldr (fun l r => seq (cls (sameLetter l)) r) eps

section Tables

variable (u : CharTable)

/-- `\d` -/
def isDecimal (c : Char) : Bool := (u.decimal c).isSome

def digit : Regex Char := cls (isDecimal u)

/-- `[a-zA-Z0-9._%+-]` -/
def isLocal (c : Char) : Bool := c.isAlphanum || c ∈ ['.', '_', '%', '+', '-']

/-- `[a-zA-Z0-9.-]` -/
def isDomain (c : Char) : Bool := c.isAlphanum || c ∈ ['.', '-']

/-! ## `PII_PATTERNS` -/

/-- `[a-zA-Z0-9._%+-]+@[a-zA-Z0-9.-]+\.[a-zA-Z]{2,}` -/
def emailCore : Regex Char :=
  seq (plus isLocal) <| seq (lit '@') <| seq (plus isDomain) <| seq (lit '.') <|
    seq (cls Char.isAlpha) <| seq (cls Char.isAlpha) <| star Char.isAlpha

/-- `(?:\+?1[-. ]?)?\(?\d{3}\)?[-. ]?\d{3}[-. ]?\d{4}` -/
def phoneCore : Regex Char :=
  seq (opt (seq (opt (lit '+')) (seq (lit '1') (opt (oneOf ['-', '.', ' ']))))) <|
    seq (opt (lit '(')) <| seq (reps (digit u) 3 0) <| seq (opt (lit ')')) <| seq (opt (oneOf ['-', '.', ' '])) <|
      seq (reps (digit u) 3 0) <| seq (opt (oneOf ['-', '.', ' '])) <| reps (digit u) 4 0

/-- `\d{3}-\d{2}-\d{4}` -/
def ssnCore : Regex Char :=
  seq (reps (digit u) 3 0) <| seq (lit '-') <| seq (reps (digit u) 2 0) <| seq (lit '-') <| reps (digit u) 4 0

/-- `(?:\d[ -]?){13,16}` -/
def creditCardCore : Regex Char := reps (seq (digit u) (opt (oneOf [' ', '-']))) 13 3

/-- `(?:25[0-5]|2[0-4]\d|[01]?\d?\d)` -/
def octet : Regex Char :=
  alt (seq (lit '2') <| seq (lit '5') <| oneOf ['0', '1', '2', '3', '4', '5']) <|
    alt (seq (lit '2') <| seq (oneOf ['0', '1', '2', '3', '4']) <| digit u) <|
      seq (opt (oneOf ['0', '1'])) <| seq (opt (digit u)) <| digit u

/-- `(?:octet\.){3}octet` -/
def ipAddressCore : Regex Char := seq (reps (seq (octet u) (lit '.')) 3 0) (octet u)

lemma digit_needs : (digit u).Needs fun c => isDecimal u c = true := fun _ h => h

lemma email_needs : emailCore.Needs (· = '@') := Or.inr (Or.inl fun _ h => by simpa using h)

lemma phone_needs : (phoneCore u).Needs fun c => isDecimal u c = true :=
  Or.inr (Or.inr (Or.inl ((digit_needs u).reps 2 0)))

lemma ssn_needs : (ssnCore u).Needs fun c => isDecimal u c = true := Or.inl ((digit_needs u).reps 2 0)

lemma creditCard_needs : (creditCardCore u).Needs fun c => isDecimal u c = true :=
  Needs.reps (r := seq (digit u) (opt (oneOf [' ', '-']))) (Or.inl (digit_needs u)) 12 3

lemma isDecimal_of_isDigit {c : Char} (h : c.isDigit = true) : isDecimal u c = true := by
  rw [isDecimal, u.decimal_of_isDigit h]
  rfl

lemma octet_needs : (octet u).Needs fun c => isDecimal u c = true := by
  have htwo : (lit '2').Needs fun c => isDecimal u c = true := by
    intro c hc
    obtain rfl : c = '2' := by simpa using hc
    exact isDecimal_of_isDigit u (by decide)
  exact ⟨Or.inl htwo, Or.inl htwo, Or.inr (Or.inr (digit_needs u))⟩

lemma ipAddress_needs : (ipAddressCore u).Needs fun c => isDecimal u c = true := Or.inr (octet_needs u)

def PII_PATTERNS : List (String × Pattern Char) := [
  ("email", { core := emailCore, nonempty := email_needs.not_matches_nil }),
  ("phone", { core := phoneCore u, bounded := true, nonempty := (phone_needs u).not_matches_nil }),
  ("ssn", { core := ssnCore u, bounded := true, nonempty := (ssn_needs u).not_matches_nil }),
  ("credit_card", { core := creditCardCore u, bounded := true, nonempty := (creditCard_needs u).not_matches_nil }),
  ("ip_address", { core := ipAddressCore u, bounded := true, nonempty := (ipAddress_needs u).not_matches_nil })]

/-! ## `PROMPT_INJECTION_PATTERNS` -/

/-- `(?i)ignore\s+(all\s+)?(previous|prior|above)\s+instructions` -/
def ignoreInstructionsCore : Regex Char :=
  seq (textIgnoreCase "ignore") <| seq (plus isSpace) <|
    seq (opt (seq (textIgnoreCase "all") (plus isSpace))) <|
      seq (alt (textIgnoreCase "previous") (alt (textIgnoreCase "prior") (textIgnoreCase "above"))) <|
        seq (plus isSpace) <| textIgnoreCase "instructions"

/-- `<<\s*(SYS|SYSTEM|INST)\s*>>|\[\[\s*SYSTEM\s*\]\]` -/
def forgedControlTokenCore : Regex Char :=
  alt
    (seq (text "<<") <| seq (star isSpace) <| seq (alt (text "SYS") (alt (text "SYSTEM") (text "INST"))) <|
      seq (star isSpace) <| text ">>")
    (seq (text "[[") <| seq (star isSpace) <| seq (text "SYSTEM") <| seq (star isSpace) <| text "]]")

/-- `(?i)you\s+are\s+now\s+(a|an)` -/
def roleOverrideCore : Regex Char :=
  seq (textIgnoreCase "you") <| seq (plus isSpace) <| seq (textIgnoreCase "are") <| seq (plus isSpace) <|
    seq (textIgnoreCase "now") <| seq (plus isSpace) <| alt (textIgnoreCase "a") (textIgnoreCase "an")

lemma plus_needs (p : Char → Bool) : (plus p).Needs fun _ => True := Or.inl fun _ _ => trivial

lemma ignoreInstructions_needs : ignoreInstructionsCore.Needs fun _ => True := Or.inr (Or.inl (plus_needs _))

lemma forgedControlToken_needs : forgedControlTokenCore.Needs fun _ => True :=
  ⟨Or.inl (Or.inl fun _ _ => trivial), Or.inl (Or.inl fun _ _ => trivial)⟩

lemma roleOverride_needs : roleOverrideCore.Needs fun _ => True := Or.inr (Or.inl (plus_needs _))

def PROMPT_INJECTION_PATTERNS : List (String × Pattern Char) := [
  ("ignore_instructions",
    { core := ignoreInstructionsCore, bounded := true, nonempty := ignoreInstructions_needs.not_matches_nil }),
  ("forged_control_token", { core := forgedControlTokenCore, nonempty := forgedControlToken_needs.not_matches_nil }),
  ("role_override", { core := roleOverrideCore, bounded := true, nonempty := roleOverride_needs.not_matches_nil })]

/-! ## `mask` and `find_injection_markers` -/

/-- `f"[REDACTED:{label.upper()}]"` -/
def marker (label : String) : List Char := "[REDACTED:".toList ++ label.toList.map Char.toUpper ++ "]".toList

/-- The passes of `mask` over a list of labels and patterns. -/
def passes (patterns : List (String × Pattern Char)) : List (Pass Char) :=
  patterns.map fun (label, pattern) => { pattern, marker := marker label }

/-- `mask`: one substitution for each pattern, in order. -/
def mask (text : String) (patterns : List (String × Pattern Char) := PII_PATTERNS u) : String :=
  String.ofList (redact u.word (passes patterns) text.toList)

/-- `pattern.search(text)` -/
def search (pattern : Pattern Char) (text : String) : Bool := pattern.search u.word text.toList

def findInjectionMarkers (text : String) : List String :=
  (PROMPT_INJECTION_PATTERNS.filter fun (_, pattern) => search u pattern text).map Prod.fst

/-! ## No match overlaps a marker -/

/-- The brackets of markers and of control tokens. -/
def brackets : List Char := ['[', ']', '<', '>']

def NoBracket (c : Char) : Prop := c ∉ brackets

instance : DecidablePred NoBracket := fun c => inferInstanceAs (Decidable (c ∉ brackets))

lemma isDecimal_noBracket {c : Char} (h : isDecimal u c = true) : NoBracket c := by
  have hascii : ∀ b ∈ brackets, b.toNat < 128 ∧ b.isDigit = false := by decide
  intro hmem
  obtain ⟨h128, hdigit⟩ := hascii c hmem
  rw [isDecimal, u.decimal_ascii c h128, hdigit] at h
  exact absurd h (by simp)

lemma lit_within {c : Char} (h : NoBracket c) : (lit c).Within NoBracket := by
  intro d hd
  obtain rfl : d = c := by simpa using hd
  exact h

lemma cls_within {p : Char → Bool} (h : ∀ b ∈ brackets, p b = false) : (cls p).Within NoBracket := by
  intro c hc hmem
  rw [h c hmem] at hc
  cases hc

lemma plus_within {p : Char → Bool} (h : ∀ b ∈ brackets, p b = false) : (plus p).Within NoBracket :=
  ⟨cls_within h, cls_within h⟩

/-- A decimal digit, or one of the signs. -/
def DigitOr (signs : List Char) (c : Char) : Prop := isDecimal u c = true ∨ c ∈ signs

/-- The signs that numbers are written with. -/
def numberSigns : List Char := ['+', '-', '.', ' ', '(', ')']

lemma DigitOr.mono {signs signs' : List Char} (h : ∀ c ∈ signs, c ∈ signs') (c : Char) (hc : DigitOr u signs c) :
    DigitOr u signs' c := hc.imp_right (h c)

lemma DigitOr.noBracket {c : Char} (h : DigitOr u numberSigns c) : NoBracket c := by
  rcases h with h | h
  · exact isDecimal_noBracket u h
  · have hall : ∀ c ∈ numberSigns, NoBracket c := by decide
    exact hall c h

section Within

variable (signs : List Char)

lemma digit_within : (digit u).Within (DigitOr u signs) := fun _ hc => Or.inl hc

lemma lit_digitOr {c : Char} (h : c.isDigit = true ∨ c ∈ signs) : (lit c).Within (DigitOr u signs) := by
  intro d hd
  obtain rfl : d = c := by simpa using hd
  exact h.imp_left (isDecimal_of_isDigit u)

lemma oneOf_digitOr {chars : List Char} (h : ∀ c ∈ chars, c.isDigit = true ∨ c ∈ signs) :
    (oneOf chars).Within (DigitOr u signs) := by
  intro d hd
  exact (h d (by simpa using hd)).imp_left (isDecimal_of_isDigit u)

end Within

lemma email_within : emailCore.Within NoBracket :=
  have halpha : (cls Char.isAlpha).Within NoBracket := cls_within (by decide)
  ⟨plus_within (by decide), lit_within (by decide), plus_within (by decide), lit_within (by decide), halpha, halpha, halpha⟩

lemma phone_within : (phoneCore u).Within (DigitOr u numberSigns) :=
  have hsep : (opt (oneOf ['-', '.', ' '])).Within (DigitOr u numberSigns) := ⟨oneOf_digitOr u _ (by decide), trivial⟩
  have hopt : ∀ c, c.isDigit = true ∨ c ∈ numberSigns → (opt (lit c)).Within (DigitOr u numberSigns) :=
    fun _ hc => ⟨lit_digitOr u _ hc, trivial⟩
  ⟨⟨⟨hopt '+' (by decide), lit_digitOr u _ (by decide), hsep⟩, trivial⟩, hopt '(' (by decide),
    (digit_within u _).reps 3 0, hopt ')' (by decide), hsep, (digit_within u _).reps 3 0, hsep, (digit_within u _).reps 4 0⟩

lemma ssn_within : (ssnCore u).Within (DigitOr u ['-']) :=
  ⟨(digit_within u _).reps 3 0, lit_digitOr u _ (by decide), (digit_within u _).reps 2 0, lit_digitOr u _ (by decide),
    (digit_within u _).reps 4 0⟩

lemma creditCard_within : (creditCardCore u).Within (DigitOr u [' ', '-']) :=
  Within.reps (r := seq (digit u) (opt (oneOf [' ', '-']))) ⟨digit_within u _, ⟨oneOf_digitOr u _ (by decide), trivial⟩⟩ 13 3

lemma octet_within : (octet u).Within (DigitOr u ['.']) :=
  ⟨⟨lit_digitOr u _ (by decide), lit_digitOr u _ (by decide), oneOf_digitOr u _ (by decide)⟩,
    ⟨lit_digitOr u _ (by decide), oneOf_digitOr u _ (by decide), digit_within u _⟩,
    ⟨oneOf_digitOr u _ (by decide), trivial⟩, ⟨digit_within u _, trivial⟩, digit_within u _⟩

lemma ipAddress_within : (ipAddressCore u).Within (DigitOr u ['.']) :=
  ⟨Within.reps (r := seq (octet u) (lit '.')) ⟨octet_within u, lit_digitOr u _ (by decide)⟩ 3 0, octet_within u⟩

/-- The patterns of numbers: all but the first. -/
def numberPatterns : List (String × Pattern Char) := (PII_PATTERNS u).tail

def emailPattern : Pattern Char := { core := emailCore, nonempty := email_needs.not_matches_nil }

lemma patterns_eq : PII_PATTERNS u = ("email", emailPattern) :: numberPatterns u := rfl

/-- The e-mail addresses that a scan finds in the text, and the characters between them. -/
def addressScan (text : String) : List (Piece Char) := emailPattern.scan u.word none 0 text.toList

lemma numbers_bounded : ∀ lp ∈ numberPatterns u, lp.2.bounded = true := by simp [numberPatterns, PII_PATTERNS]

theorem numbers_within : ∀ lp ∈ numberPatterns u, lp.2.core.Within (DigitOr u numberSigns) := by
  simp only [numberPatterns, PII_PATTERNS, List.tail_cons, List.forall_mem_cons, List.not_mem_nil, false_implies,
    implies_true, and_true]
  exact ⟨phone_within u, (ssn_within u).mono (DigitOr.mono u (by decide)),
    (creditCard_within u).mono (DigitOr.mono u (by decide)), (ipAddress_within u).mono (DigitOr.mono u (by decide))⟩

theorem numbers_need : ∀ lp ∈ numberPatterns u, lp.2.core.Needs fun c => isDecimal u c = true := by
  simp only [numberPatterns, PII_PATTERNS, List.tail_cons, List.forall_mem_cons, List.not_mem_nil, false_implies,
    implies_true, and_true]
  exact ⟨phone_needs u, ssn_needs u, creditCard_needs u, ipAddress_needs u⟩

/-- A letter that some match cannot do without: the `@` of an address, or a digit. -/
def IsKey (c : Char) : Prop := c = '@' ∨ isDecimal u c = true

theorem needs_key : ∀ lp ∈ PII_PATTERNS u, ∀ m, lp.2.core.Matches m → ∃ c ∈ m, IsKey u c := by
  rw [patterns_eq, List.forall_mem_cons]
  refine ⟨fun m hm => ?_, fun lp hlp m hm => ?_⟩
  · obtain ⟨c, hc, hat⟩ := email_needs.exists_mem hm
    exact ⟨c, hc, Or.inl hat⟩
  · obtain ⟨c, hc, hdigit⟩ := (numbers_need u lp hlp).exists_mem hm
    exact ⟨c, hc, Or.inr hdigit⟩

theorem noBracket_of_matches : ∀ lp ∈ PII_PATTERNS u, ∀ m, lp.2.core.Matches m → ∀ c ∈ m, NoBracket c := by
  rw [patterns_eq, List.forall_mem_cons]
  refine ⟨fun m hm => email_within.forall_mem hm, fun lp hlp m hm c hc => ?_⟩
  exact ((numbers_within u lp hlp).forall_mem hm c hc).noBracket

lemma isDecimal_ascii {c : Char} (h : c.toNat < 128) : isDecimal u c = c.isDigit := by
  rw [isDecimal, u.decimal_ascii c h]
  cases c.isDigit <;> rfl

/-! ## Letters and blanks -/

lemma isAlpha_ascii {c : Char} (h : c.isAlpha = true) : c.toNat < 128 ∧ c.isDigit = false := by
  have hletter := isAlpha_iff_toNat.1 h
  refine ⟨by omega, Bool.eq_false_iff.2 fun hdigit => ?_⟩
  have hle : c.toNat ≤ 57 := (Char.isDigit_iff_toNat.1 hdigit).2
  omega

lemma letter_word {c : Char} (h : c.isAlpha = true ∨ c ∈ foldedLetters) : u.word c = true := by
  rcases h with h | h
  · simp [u.word_ascii c (isAlpha_ascii h).1, Char.isAlphanum, h]
  · exact u.word_folded c h

lemma letter_not_decimal {c : Char} (h : c.isAlpha = true ∨ c ∈ foldedLetters) : isDecimal u c = false := by
  rcases h with h | h
  · obtain ⟨hascii, hdigit⟩ := isAlpha_ascii h
    rw [isDecimal_ascii u hascii, hdigit]
  · rw [isDecimal, u.decimal_folded c h]
    rfl

lemma letter_not_key {c : Char} (h : c.isAlpha = true ∨ c ∈ foldedLetters) : ¬ IsKey u c := by
  rintro (rfl | hd)
  · exact absurd h (by decide)
  · rw [letter_not_decimal u h] at hd
    cases hd

lemma letter_not_number {c : Char} (h : c.isAlpha = true ∨ c ∈ foldedLetters) : ¬ DigitOr u numberSigns c := by
  have hsigns : ∀ d ∈ numberSigns, ¬ (d.isAlpha = true ∨ d ∈ foldedLetters) := by decide
  rintro (hd | hmem)
  · rw [letter_not_decimal u h] at hd
    cases hd
  · exact hsigns c hmem h

lemma space_not_key {c : Char} (h : isSpace c = true) : ¬ IsKey u c := by
  rintro (rfl | hd)
  · cases h
  · rw [isDecimal, u.decimal_space c h] at hd
    cases hd

/-! ## Markers -/

/-- The letters of a marker between its brackets. -/
def redacted (label : String) : List Char := "REDACTED:".toList ++ label.toList.map Char.toUpper

lemma marker_eq (label : String) : marker label = '[' :: (redacted label ++ [']']) := by
  have hopen : "[REDACTED:".toList = '[' :: "REDACTED:".toList := rfl
  have hclose : "]".toList = [']'] := rfl
  unfold marker redacted
  rw [hopen, hclose, List.cons_append, List.cons_append]

lemma redacted_not_key : ∀ lp ∈ PII_PATTERNS u, ∀ c ∈ redacted lp.1, ¬ IsKey u c := by
  have hascii : ∀ label ∈ ["email", "phone", "ssn", "credit_card", "ip_address"],
      (redacted label).all (fun c => c.toNat < 128 ∧ c ≠ '@' ∧ c.isDigit = false) = true := by decide
  intro lp hlp c hc
  have hlabel : lp.1 ∈ ["email", "phone", "ssn", "credit_card", "ip_address"] := by
    simpa [PII_PATTERNS] using List.mem_map_of_mem (f := Prod.fst) hlp
  obtain ⟨h128, hat, hdigit⟩ := List.all_iff_forall_prop.1 (hascii lp.1 hlabel) c hc
  rintro (rfl | hd)
  · exact hat rfl
  · rw [isDecimal_ascii u h128, hdigit] at hd
    exact absurd hd (by simp)

/-- **No match of a pattern overlaps a marker.** -/
theorem inert_marker {lp lp' : String × Pattern Char} (h : lp ∈ PII_PATTERNS u) (h' : lp' ∈ PII_PATTERNS u) :
    lp.2.Inert u.word (marker lp'.1) := by
  refine ⟨'[', redacted lp'.1, ']', marker_eq _, ⟨u.word_ascii '[' (by decide), ?_⟩,
    ⟨u.word_ascii ']' (by decide), ?_⟩, ?_⟩
  · exact fun m hm hmem => noBracket_of_matches u lp h m hm '[' hmem (by decide)
  · exact fun m hm hmem => noBracket_of_matches u lp h m hm ']' hmem (by decide)
  · intro m hm
    obtain ⟨c, hc, hkey⟩ := needs_key u lp h m hm
    exact ⟨c, hc, fun hmem => redacted_not_key u lp' h' c hmem hkey⟩

lemma passes_inert : ∀ pass ∈ passes (PII_PATTERNS u), ∀ pass' ∈ passes (PII_PATTERNS u),
    pass.pattern.Inert u.word pass'.marker := by
  intro pass hpass pass' hpass'
  obtain ⟨lp, h, rfl⟩ := List.mem_map.1 hpass
  obtain ⟨lp', h', rfl⟩ := List.mem_map.1 hpass'
  exact inert_marker u h h'

/-! ## Masked texts -/

/-- The pattern matches nowhere in the text. -/
def NoMatch (pattern : Pattern Char) (text : String) : Prop := pattern.Clean u.word text.toList

lemma search_eq_false {pattern : Pattern Char} {text : String} : search u pattern text = false ↔ NoMatch u pattern text :=
  Pattern.search_eq_false_iff

/-- **Masking is complete.** -/
theorem mask_clean (text : String) : ∀ lp ∈ PII_PATTERNS u, NoMatch u lp.2 (mask u text) := by
  have hbounded : (passes (PII_PATTERNS u)).Pairwise fun pass pass' =>
      pass.pattern.bounded = true → pass'.pattern.bounded = true := by
    simp [passes, PII_PATTERNS]
  intro lp hlp
  rw [NoMatch, mask, String.toList_ofList]
  exact redact_clean (passes_inert u) hbounded text.toList _ (List.mem_map_of_mem hlp)

/-- A text without matches is left as it is. -/
theorem mask_eq_of_noMatch {text : String} (h : ∀ lp ∈ PII_PATTERNS u, NoMatch u lp.2 text) : mask u text = text := by
  rw [mask, redact_eq_of_clean, String.ofList_toList]
  intro pass hpass
  obtain ⟨lp, hlp, rfl⟩ := List.mem_map.1 hpass
  exact h lp hlp

/-- **Masking is idempotent.** -/
theorem mask_mask (text : String) : mask u (mask u text) = mask u text := mask_eq_of_noMatch u (mask_clean u text)

end Tables

end Aimw.Guardrails
