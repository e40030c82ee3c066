import Aimw.Guardrails.Patterns
import Aimw.Lib.Leaks

/-!
# Characters and their places

`mask` on characters that carry their position in the original text, and what the matches of the patterns can have to do
with each other.

* `number_firm` — numbers of different patterns that meet do so at a sign between digits;
* `NoNumberBeside` — no number stands directly beside an e-mail address: then the addresses make no numbers
  (`email_isolates`), and what goes beyond one is left behind (`email_tears`);
* `NumbersApart` — the numbers between the addresses stand apart: then these are what the later passes take away
  (`mem_leftovers_iff_not_covered`).
-/

namespace Aimw.Guardrails

open Lib Regex

/-! ## Tracking -/

/-- A character and its position in the original text; the characters of a marker have none. -/
abbrev Tracked : Type := Char × Option ℕ

section Tables

variable (u : CharTable) (text : String)

def track : List Tracked := text.toList.zipIdx.map fun ci => (ci.1, some ci.2)

def trackedWord : Tracked → Bool := u.word ∘ Prod.fst

def trackedPass (lp : String × Pattern Char) : Pass Tracked where
  pattern := lp.2.comap Prod.fst
  marker := (marker lp.1).map fun c => (c, none)

def trackedPasses : List (Pass Tracked) := (PII_PATTERNS u).map trackedPass

/-- The matches that are found in the original text. -/
def matchesOf (pattern : Pattern Char) : List (List Tracked) :=
  (pattern.comap Prod.fst).found (trackedWord u) (track text)

lemma track_fst : (track text).map Prod.fst = text.toList := by
  simp only [track, List.map_map]
  exact List.zipIdx_map_fst 0 text.toList

lemma track_snd : (track text).map Prod.snd = (List.range' 0 text.toList.length).map some := by
  rw [← List.zipIdx_map_snd 0 text.toList, track, List.map_map, List.map_map]
  rfl

lemma positions_nodup : ((track text).map Prod.snd).Nodup := by
  rw [track_snd]
  exact (List.nodup_range' _).map (Option.some_injective ℕ)

lemma track_nodup : (track text).Nodup := (positions_nodup text).of_map Prod.snd

/-- The tracked matches are those that scanning the text finds. -/
theorem matchesOf_fst (pattern : Pattern Char) :
    (matchesOf u text pattern).map (List.map Prod.fst) = pattern.found u.word text.toList := by
  rw [← track_fst text]
  exact Pattern.found_comap (track text)

/-- The e-mail addresses of the tracked text. -/
def trackedEmail : Pattern Tracked := emailPattern.comap Prod.fst

/-- What stands between the e-mail addresses of the text. -/
def gaps : List (List Tracked) := trackedEmail.between (trackedWord u) (track text)

/-- The matches that are found in a part of the text alone. -/
def matchesIn (g : List Tracked) (pattern : Pattern Char) : List (List Tracked) :=
  (pattern.comap Prod.fst).found (trackedWord u) g

lemma leftovers_fst (patterns : List (String × Pattern Char)) (s : List Tracked) :
    (leftovers (trackedWord u) (patterns.map trackedPass) s).map (List.map Prod.fst) =
      leftovers u.word (passes patterns) (s.map Prod.fst) := by
  induction patterns generalizing s with
  | nil => rfl
  | cons lp patterns ih =>
    have hbetween : ((lp.2.comap Prod.fst).between (trackedWord u) s).map (List.map Prod.fst) =
        lp.2.between u.word (s.map Prod.fst) := Pattern.between_comap s
    show (((lp.2.comap Prod.fst).between (trackedWord u) s).flatMap _).map _ =
      (lp.2.between u.word (s.map Prod.fst)).flatMap _
    rw [← hbetween, List.map_flatMap, List.flatMap_map]
    exact List.flatMap_congr fun g _ => ih g

/-- The matches that are found in the text stand apart: each lies inside a match of an earlier pattern, or it overlaps
no match of an earlier pattern and has a word character wherever it touches one. -/
def MatchesApart : Prop :=
  Apart (trackedWord u) ((PII_PATTERNS u).map fun lp => lp.2.comap Prod.fst) (track text)

instance : Decidable (MatchesApart u text) :=
  inferInstanceAs (Decidable (Apart (trackedWord u) ((PII_PATTERNS u).map fun lp => lp.2.comap Prod.fst) (track text)))

lemma trackedPasses_patterns :
    (trackedPasses u).map Pass.pattern = (PII_PATTERNS u).map fun lp => lp.2.comap Prod.fst := by
  rw [trackedPasses, List.map_map]
  rfl

/-! ## The ends of numbers and addresses -/

lemma digits_need (n : ℕ) : ((digit u).reps (n + 1) 0).Needs fun _ => True :=
  ((digit_needs u).reps n 0).mono fun _ _ => trivial

lemma phone_starts : (phoneCore u).Starts (DigitOr u ['+', '(']) :=
  have hone : (lit '1').Needs fun _ => True := fun _ _ => trivial
  ⟨⟨⟨⟨lit_digitOr u _ (by decide), trivial⟩, Or.inr ⟨lit_digitOr u _ (by decide), Or.inl hone⟩⟩, trivial⟩,
    Or.inr ⟨⟨lit_digitOr u _ (by decide), trivial⟩,
      Or.inr ⟨Starts.reps (r := digit u) (digit_within u _) 3 0, Or.inl (digits_need u 2)⟩⟩⟩

lemma phone_stops (signs : List Char) : (phoneCore u).Stops (DigitOr u signs) :=
  have hlast : ((digit u).reps 4 0).Stops (DigitOr u signs) := Stops.reps (r := digit u) (digit_within u _) 4 0
  (Stops.seq <| Stops.seq <| Stops.seq <| Stops.seq <| Stops.seq <| Stops.seq <| Stops.seq ⟨hlast, digits_need u 3⟩).1

lemma ssn_starts (signs : List Char) : (ssnCore u).Starts (DigitOr u signs) :=
  ⟨Starts.reps (r := digit u) (digit_within u _) 3 0, Or.inl (digits_need u 2)⟩

lemma ssn_stops (signs : List Char) : (ssnCore u).Stops (DigitOr u signs) :=
  have hlast : ((digit u).reps 4 0).Stops (DigitOr u signs) := Stops.reps (r := digit u) (digit_within u _) 4 0
  (Stops.seq <| Stops.seq <| Stops.seq <| Stops.seq ⟨hlast, digits_need u 3⟩).1

lemma creditCard_starts (signs : List Char) : (creditCardCore u).Starts (DigitOr u signs) :=
  have hdigit : (digit u).Needs fun _ => True := fun _ _ => trivial
  Starts.reps (r := seq (digit u) (opt (oneOf [' ', '-']))) ⟨digit_within u _, Or.inl hdigit⟩ 13 3

lemma creditCard_stops : (creditCardCore u).Stops (DigitOr u [' ', '-']) :=
  Stops.reps (r := seq (digit u) (opt (oneOf [' ', '-'])))
    ⟨⟨oneOf_digitOr u _ (by decide), trivial⟩, Or.inr (digit_within u _)⟩ 13 3

lemma email_stops : emailCore.Stops fun c => c.isAlpha = true :=
  have halpha : (cls Char.isAlpha).Stops fun c => c.isAlpha = true := fun _ h => h
  have hletters : (seq (cls Char.isAlpha) (star Char.isAlpha)).Stops fun c => c.isAlpha = true :=
    ⟨fun _ h => h, Or.inr halpha⟩
  (Stops.seq <| Stops.seq <| Stops.seq <| Stops.seq <| Stops.seq ⟨hletters, Or.inl fun _ _ => trivial⟩).1

lemma word_of_isDecimal {c : Char} (h : isDecimal u c = true) : u.word c = true := by
  obtain ⟨d, hd⟩ := Option.isSome_iff_exists.1 h
  exact u.decimal_word c d hd

lemma firm_of {p q : Pattern Char} {ends signs : List Char} (hstarts : p.core.Starts (DigitOr u ends))
    (hstops : p.core.Stops (DigitOr u ends)) (hq : q.core.Within (DigitOr u signs)) (hdiff : ∀ c ∈ ends, c ∉ signs) :
    Firm u.word p q := by
  intro k hk d hd hword m hm hmem
  have hno : ¬ isDecimal u d = true := fun h => by simp [word_of_isDecimal u h] at hword
  have hend : DigitOr u ends d := hd.elim (hstarts.head hk d) (hstops.last hk d)
  exact hdiff d (hend.resolve_left hno) ((hq.forall_mem hm d hmem).resolve_left hno)

/-- **Numbers of different patterns meet at digits only**: a sign at the end of one is in no later one. -/
theorem number_firm : (numberPatterns u).Pairwise fun lp lp' => Firm u.word lp.2 lp'.2 := by
  simp only [numberPatterns, PII_PATTERNS, List.tail_cons, List.pairwise_cons, List.forall_mem_cons, List.not_mem_nil,
    false_implies, implies_true, and_true, List.Pairwise.nil]
  refine ⟨⟨?_, ?_, ?_⟩, ⟨?_, ?_⟩, ?_⟩
  · exact firm_of u (phone_starts u) (phone_stops u _) (ssn_within u) (by decide)
  · exact firm_of u (phone_starts u) (phone_stops u _) (creditCard_within u) (by decide)
  · exact firm_of u (phone_starts u) (phone_stops u _) (ipAddress_within u) (by decide)
  · exact firm_of u (ssn_starts u []) (ssn_stops u []) (creditCard_within u) (by decide)
  · exact firm_of u (ssn_starts u []) (ssn_stops u []) (ipAddress_within u) (by decide)
  · exact firm_of u (creditCard_starts u _) (creditCard_stops u) (ipAddress_within u) (by decide)

lemma numbers_tracked_bounded : ∀ pass ∈ (numberPatterns u).map trackedPass, pass.pattern.bounded = true := by
  intro pass hpass
  obtain ⟨lp, hlp, rfl⟩ := List.mem_map.1 hpass
  exact numbers_bounded u lp hlp

/-! ## Numbers between addresses -/

/-- The numbers that are found between the addresses, in each gap alone, stand apart. -/
def NumbersApart : Prop :=
  ∀ g ∈ gaps u text, Apart (trackedWord u) ((numberPatterns u).map fun lp => lp.2.comap Prod.fst) g

instance : Decidable (NumbersApart u text) := inferInstanceAs (Decidable
  (∀ g ∈ gaps u text, Apart (trackedWord u) ((numberPatterns u).map fun lp => lp.2.comap Prod.fst) g))

/-- The character lies in an e-mail address, or in a number that stands between the addresses. -/
def Covered (t : Tracked) : Prop :=
  (∃ k ∈ matchesOf u text emailPattern, t ∈ k) ∨
    ∃ g ∈ gaps u text, ∃ lp ∈ numberPatterns u, ∃ k ∈ matchesIn u g lp.2, t ∈ k

instance (t : Tracked) : Decidable (Covered u text t) := inferInstanceAs (Decidable
  ((∃ k ∈ matchesOf u text emailPattern, t ∈ k) ∨
    ∃ g ∈ gaps u text, ∃ lp ∈ numberPatterns u, ∃ k ∈ matchesIn u g lp.2, t ∈ k))

variable {u text} in
/-- Of a gap, the later passes leave what lies in none of its numbers. -/
theorem mem_leftovers_gap (h : NumbersApart u text) {g : List Tracked} (hg : g ∈ gaps u text) {t : Tracked} :
    t ∈ (leftovers (trackedWord u) ((numberPatterns u).map trackedPass) g).flatten ↔
      t ∈ g ∧ ∀ lp ∈ numberPatterns u, ∀ k ∈ matchesIn u g lp.2, t ∉ k := by
  have hnodup : g.Nodup := (track_nodup text).sublist (Pattern.between_isInfix hg).sublist
  have hapart : Apart (trackedWord u) (((numberPatterns u).map trackedPass).map Pass.pattern) g := by
    rw [List.map_map]
    exact h g hg
  rw [mem_leftovers_iff hnodup (insulated_of_bounded (numbers_tracked_bounded u) g) hapart, List.forall_mem_map]
  rfl

lemma trackedPasses_cons : trackedPasses u =
    trackedPass ("email", emailPattern) :: (numberPatterns u).map trackedPass := rfl

variable {u text} in
/-- What is left of a text, if the numbers between its addresses stand apart. -/
theorem mem_leftovers_iff_not_covered (h : NumbersApart u text) {t : Tracked} (ht : t ∈ track text) :
    t ∈ (leftovers (trackedWord u) (trackedPasses u) (track text)).flatten ↔ ¬ Covered u text t := by
  rw [trackedPasses_cons, leftovers_cons_iff]
  constructor
  · rintro ⟨g, hg, hleft⟩ hcovered
    obtain ⟨htg, hno⟩ := (mem_leftovers_gap h hg).1 hleft
    rcases hcovered with ⟨k, hk, htk⟩ | ⟨g', hg', lp, hlp, k, hk, htk⟩
    · exact Pattern.not_mem_of_between (track_nodup text) hg htg hk htk
    · obtain rfl := Pattern.eq_of_mem_between (track_nodup text) hg hg' htg (subset_of_mem_found hk htk)
      exact hno lp hlp k hk htk
  · intro hcovered
    obtain ⟨g, hg, htg⟩ := Pattern.exists_between_of_not_mem ht fun k hk htk => hcovered (Or.inl ⟨k, hk, htk⟩)
    exact ⟨g, hg, (mem_leftovers_gap h hg).2 ⟨htg, fun lp hlp k hk htk => hcovered (Or.inr ⟨g, hg, lp, hlp, k, hk, htk⟩)⟩⟩

/-! ## Numbers beside addresses -/

/-- A text that, read alone, begins with a number. -/
def BeginsWithNumber (g : List Char) : Prop := ∃ lp ∈ numberPatterns u, (lp.2.matchAt u.word none g).isSome

/-- A text that ends with a number and its last digit. -/
def EndsWithNumber (g : List Char) : Prop :=
  g.getLast?.any u.word = true ∧ ∃ lp ∈ numberPatterns u, ∃ n ∈ List.range g.length,
    (g.drop n).length ∈ lp.2.core.ends (g.drop n) ∧ (n = 0 ∨ boundary u.word (g.take n).getLast? (g.drop n).head? = true)

instance (g : List Char) : Decidable (BeginsWithNumber u g) :=
  inferInstanceAs (Decidable (∃ lp ∈ numberPatterns u, (lp.2.matchAt u.word none g).isSome))

instance (g : List Char) : Decidable (EndsWithNumber u g) :=
  inferInstanceAs (Decidable (g.getLast?.any u.word = true ∧ ∃ lp ∈ numberPatterns u, ∃ n ∈ List.range g.length,
    (g.drop n).length ∈ lp.2.core.ends (g.drop n) ∧
      (n = 0 ∨ boundary u.word (g.take n).getLast? (g.drop n).head? = true)))

/-- No number begins directly behind an e-mail address, or ends directly before one. -/
def NoNumberBeside : Prop :=
  (∀ mf ∈ (Pattern.segments (addressScan u text)).2, ¬ BeginsWithNumber u mf.2) ∧
    ∀ mf ∈ (Pattern.segments (addressScan u text).reverse).2, ¬ EndsWithNumber u mf.2.reverse

instance : Decidable (NoNumberBeside u text) :=
  inferInstanceAs (Decidable ((∀ mf ∈ (Pattern.segments (addressScan u text)).2, ¬ BeginsWithNumber u mf.2) ∧
    ∀ mf ∈ (Pattern.segments (addressScan u text).reverse).2, ¬ EndsWithNumber u mf.2.reverse))

variable {u text}

lemma NoNumberBeside.behind (h : NoNumberBeside u text) {ps₁ ps₂ : List (Piece Char)} {k g : List Char}
    (hscan : addressScan u text = ps₁ ++ .hit k :: (g.map .keep ++ ps₂)) (hps₂ : Pattern.AtHit ps₂) :
    ¬ BeginsWithNumber u g := by
  have hmem := Pattern.mem_segments ps₁ (g.map .keep ++ ps₂) k
  rw [← hscan, Pattern.segments_keep, hps₂.segments_fst, List.append_nil] at hmem
  exact h.1 _ hmem

lemma NoNumberBeside.before (h : NoNumberBeside u text) {ps₁ ps₂ : List (Piece Char)} {k g : List Char}
    (hscan : addressScan u text = ps₁ ++ (g.map .keep ++ .hit k :: ps₂)) (hps₁ : ps₁ = [] ∨ Pattern.BehindHit ps₁) :
    ¬ EndsWithNumber u g := by
  have hat : Pattern.AtHit ps₁.reverse := by
    rcases hps₁ with rfl | ⟨ps, m, rfl⟩
    · exact Or.inl rfl
    · exact Or.inr ⟨m, ps.reverse, List.reverse_concat⟩
  have hmem := Pattern.mem_segments ps₂.reverse (g.reverse.map .keep ++ ps₁.reverse) k
  rw [Pattern.segments_keep, hat.segments_fst, List.append_nil] at hmem
  have hback := h.2 (k, g.reverse) (by rw [hscan]; simpa using hmem)
  rwa [List.reverse_reverse] at hback

lemma addressScan_eq : addressScan u text =
    (trackedEmail.scan (trackedWord u) none 0 (track text)).map (Piece.map Prod.fst) := by
  have hcomap : (trackedEmail.scan (trackedWord u) none 0 (track text)).map (Piece.map Prod.fst) =
      emailPattern.scan u.word none 0 ((track text).map Prod.fst) := Pattern.scan_comap none 0 (track text)
  rw [addressScan, hcomap, track_fst]

lemma keep_map (g : List Tracked) : (g.map Piece.keep).map (Piece.map Prod.fst) = (g.map Prod.fst).map Piece.keep := by
  rw [List.map_map, List.map_map]
  rfl

lemma NoNumberBeside.tracked_behind (h : NoNumberBeside u text) {ps₁ ps₂ : List (Piece Tracked)} {k g : List Tracked}
    (hscan : trackedEmail.scan (trackedWord u) none 0 (track text) = ps₁ ++ .hit k :: (g.map .keep ++ ps₂))
    (hps₂ : Pattern.AtHit ps₂) : ¬ BeginsWithNumber u (g.map Prod.fst) := by
  have hplain : addressScan u text = ps₁.map (Piece.map Prod.fst) ++
      .hit (k.map Prod.fst) :: ((g.map Prod.fst).map .keep ++ ps₂.map (Piece.map Prod.fst)) := by
    rw [addressScan_eq, hscan, List.map_append, List.map_cons, List.map_append, keep_map]
    rfl
  refine h.behind hplain ?_
  rcases hps₂ with rfl | ⟨m, ps, rfl⟩
  · exact Or.inl rfl
  · exact Or.inr ⟨_, _, rfl⟩

lemma NoNumberBeside.tracked_before (h : NoNumberBeside u text) {ps₁ ps₂ : List (Piece Tracked)} {k g : List Tracked}
    (hscan : trackedEmail.scan (trackedWord u) none 0 (track text) = ps₁ ++ (g.map .keep ++ .hit k :: ps₂))
    (hps₁ : ps₁ = [] ∨ Pattern.BehindHit ps₁) : ¬ EndsWithNumber u (g.map Prod.fst) := by
  have hplain : addressScan u text = ps₁.map (Piece.map Prod.fst) ++
      ((g.map Prod.fst).map .keep ++ .hit (k.map Prod.fst) :: ps₂.map (Piece.map Prod.fst)) := by
    rw [addressScan_eq, hscan, List.map_append, List.map_append, keep_map]
    rfl
  refine h.before hplain ?_
  rcases hps₁ with rfl | ⟨ps, m, rfl⟩
  · exact Or.inl rfl
  · exact Or.inr ⟨_, _, List.map_append⟩

lemma matches_number {lp : String × Pattern Char} {m : List Tracked} (hm : (lp.2.comap Prod.fst).core.Matches m) :
    lp.2.core.Matches (m.map Prod.fst) := (matches_comap Prod.fst lp.2.core m).1 hm

lemma digitOr_of_mem {lp : String × Pattern Char} (hlp : lp ∈ numberPatterns u) {m : List Tracked}
    (hm : (lp.2.comap Prod.fst).core.Matches m) {t : Tracked} (ht : t ∈ m) : DigitOr u numberSigns t.1 :=
  (numbers_within u lp hlp).forall_mem (matches_number hm) t.1 (List.mem_map_of_mem ht)

lemma beginsWithNumber {lp : String × Pattern Char} (hlp : lp ∈ numberPatterns u) {m r : List Tracked}
    (hfits : (lp.2.comap Prod.fst).Fits (trackedWord u) none m r.head?) :
    BeginsWithNumber u ((m ++ r).map Prod.fst) := by
  have hcomap : (lp.2.comap Prod.fst).matchAt (trackedWord u) none (m ++ r) =
      lp.2.matchAt u.word none ((m ++ r).map Prod.fst) := Pattern.matchAt_comap none (m ++ r)
  refine ⟨lp, hlp, Option.isSome_iff_ne_none.2 fun hnone => ?_⟩
  rw [← hcomap] at hnone
  exact Pattern.not_fits_of_matchAt hnone m r rfl hfits

lemma endsWithNumber {lp : String × Pattern Char} (hlp : lp ∈ numberPatterns u) {l m : List Tracked} {t : Tracked}
    (hm : (lp.2.comap Prod.fst).core.Matches (m ++ [t]))
    (hedge : l = [] ∨ boundary (trackedWord u) l.getLast? (m ++ [t]).head? = true) (hword : trackedWord u t = true) :
    EndsWithNumber u ((l ++ (m ++ [t])).map Prod.fst) := by
  have hmatch : (m ++ [t]).length ∈ lp.2.core.ends ((m ++ [t]).map Prod.fst) :=
    mem_ends_iff.2 ⟨by simp, by rw [List.take_of_length_le (by simp)]; exact matches_number hm⟩
  refine ⟨by simpa [trackedWord] using hword, lp, hlp, l.length, by simp, ?_, ?_⟩
  · simpa using hmatch
  · refine hedge.imp List.length_eq_zero_iff.2 fun hedge => ?_
    simpa [trackedWord, Pattern.boundary_comap] using hedge

/-- No number begins or ends directly beside an address. -/
theorem email_isolates (h : NoNumberBeside u text) {lp : String × Pattern Char} (hlp : lp ∈ numberPatterns u) :
    Pattern.Isolates (trackedWord u) trackedEmail (lp.2.comap Prod.fst) (track text) where
  opens ps₁ k g ps₂ hscan hps₂ m r hg hfits _ := by
    subst hg
    exact absurd (beginsWithNumber hlp hfits) (h.tracked_behind hscan hps₂)
  closes ps₁ g k ps₂ hscan hps₁ x l m hg hfits hb := by
    obtain ⟨m, t, rfl⟩ := (List.eq_nil_or_concat' m).resolve_left hfits.ne_nil
    obtain ⟨hopen, hclose⟩ := hfits.2 hb
    have hword : trackedWord u t = true := by
      rw [List.getLast?_concat] at hclose
      simpa [boundary] using hclose
    have hedge : l = [] ∨ boundary (trackedWord u) l.getLast? (m ++ [t]).head? = true := by
      refine or_iff_not_imp_left.2 fun hl => ?_
      obtain ⟨l, d, rfl⟩ := (List.eq_nil_or_concat' l).resolve_left hl
      rwa [List.getLast?_concat, Option.some_or, ← List.getLast?_concat] at hopen
    subst hg
    exact absurd (endsWithNumber hlp hfits.1 hedge hword) (h.tracked_before hscan hps₁)

theorem trackedPasses_insulated (h : NoNumberBeside u text) :
    Insulated (trackedWord u) (trackedPasses u) (track text) := by
  refine ⟨fun later hlater => ?_, fun g _ => insulated_of_bounded (numbers_tracked_bounded u) g⟩
  obtain ⟨lp, hlp, rfl⟩ := List.mem_map.1 hlater
  exact email_isolates h hlp

lemma matches_of_mem_found {p : Pattern Tracked} {m : List Tracked} {s : List Tracked}
    (hm : m ∈ p.found (trackedWord u) s) : p.core.Matches m := by
  obtain ⟨A, B, hscan⟩ := List.append_of_mem (Pattern.mem_found.1 hm)
  exact (Pattern.scan_hit hscan).1

/-- An address ends with a letter. -/
lemma email_last {k : List Tracked} (hk : k ∈ trackedEmail.found (trackedWord u) (track text)) {t : Tracked}
    (ht : k.getLast? = some t) : t.1.isAlpha = true := by
  refine email_stops.last ((matches_comap Prod.fst emailCore k).1 (matches_of_mem_found hk)) t.1 ?_
  rw [List.getLast?_map, ht]
  rfl

/-- A number that goes beyond an address leaves a sign behind in front of it. -/
theorem email_tears (h : NoNumberBeside u text) {lp : String × Pattern Char} (hlp : lp ∈ numberPatterns u) :
    Pattern.Tears (trackedWord u) (trackedPass ("email", emailPattern)) ((numberPatterns u).map trackedPass)
      (lp.2.comap Prod.fst) (track text) := by
  intro m hm k hk t ht htk t' ht' htk' hbeside
  have hletter : ∀ t ∈ m, ¬ t.1.isAlpha = true := fun t ht halpha =>
    letter_not_number u (Or.inl halpha) (digitOr_of_mem hlp (matches_of_mem_found hm) ht)
  have hk' : k ∈ trackedEmail.found (trackedWord u) (track text) := hk
  rcases Pattern.beside_hit (track_nodup text) hk' htk htk' hbeside with ⟨A, piece, B, hscan, hlast, -⟩ |
    ⟨A, piece, B, hscan, -, hlast⟩
  · have hpiece : piece ∈ trackedEmail.scan (trackedWord u) none 0 (track text) := by simp [hscan]
    cases piece with
    | hit k' => exact absurd (email_last (Pattern.mem_found.2 hpiece) hlast) (hletter t ht)
    | keep t'' =>
      obtain rfl : t'' = t := Option.some.inj hlast
      obtain ⟨A, l, rfl, hbefore⟩ := Pattern.trail_split A
      have hscan' : trackedEmail.scan (trackedWord u) none 0 (track text) =
          A ++ ((l ++ [t'']).map .keep ++ .hit k :: B) := by
        rw [hscan]
        simp
      have hleft : t'' ∈ (leftovers (trackedWord u) ((numberPatterns u).map trackedPass) (l ++ [t''])).flatten := by
        refine Pattern.mem_leftovers_last (numbers_tracked_bounded u) fun pass hpass l' m' hl hm' hedge => ?_
        obtain ⟨number, hnumber, rfl⟩ := List.mem_map.1 hpass
        refine Bool.eq_false_iff.2 fun hword => h.tracked_before hscan' hbefore ?_
        rw [hl, List.append_assoc]
        exact endsWithNumber hnumber hm' hedge hword
      exact leftovers_cons_iff.2 ⟨_, Pattern.mem_between hscan' hbefore (Or.inr ⟨k, B, rfl⟩), hleft⟩
  · exact absurd (email_last hk hlast) (hletter t' ht')

end Tables

end Aimw.Guardrails
