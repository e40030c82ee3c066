import Aimw.Lib.Scan

/-!
# Redaction

A text is redacted in passes; each writes a marker over the matches of a pattern, in what the passes before it
have written.

* `scan_inert`, `redact_inert` — a marker that no match overlaps keeps what stands before it from what follows;
* `Scanned.clean_segments` — the segments between the matches of a pattern are clean of it, and stay clean of the
  patterns that the whole text was clean of;
* `redact_clean` — a redacted text is clean of every pattern;
* `redact_partwise_iff` — what can be told of the redacted text can be told of what is left when the text itself is cut
  at the matches, pass by pass, or of a marker;
* `marker_mem_marks_iff` — a marker is written if its pattern is found in what the passes before it have left;
* `Enclosed.partwise` — an infix between two letters that stand nowhere else in it is told by parts;
* `mem_redact_iff_leftover` — a letter survives if it is in what is left;
* `redact_comap` — letters that carry something more, such as their position, are redacted alike.
-/

namespace Aimw.Lib

variable {α β : Type}

namespace Pattern

variable {word : α → Bool} {p q : Pattern α} {x y : Option α} {s : List α} {ps : List (Piece α)}

/-! ## Segments -/

/-- The text before the first match, and each match with the text that follows it. -/
def segments : List (Piece α) → List α × List (List α × List α)
  | [] => ([], [])
  | .keep c :: ps => (c :: (segments ps).1, (segments ps).2)
  | .hit m :: ps => ([], (m, (segments ps).1) :: (segments ps).2)

lemma flatMap_out (marker : List α) (ps : List (Piece α)) :
    ps.flatMap (Piece.out marker) = (segments ps).1 ++ (segments ps).2.flatMap fun mf => marker ++ mf.2 := by
  induction ps with
  | nil => rfl
  | cons piece ps ih =>
    cases piece with
    | keep c => simp [segments, Piece.out, ih]
    | hit m => simp [segments, Piece.out, ih]

variable (word p s) in
/-- The segments of a text, without the matches. -/
def between : List (List α) :=
  (segments (p.scan word none 0 s)).1 :: (segments (p.scan word none 0 s)).2.map Prod.snd

/-- The first segment ends where the text ends, or at a match. -/
lemma Scanned.lead_prefix (h : p.Scanned word x s ps) : ∃ t, s = (segments ps).1 ++ t ∧
    (t = [] ∨ (p.bounded = true → boundary word ((segments ps).1.getLast?.or x) t.head? = true)) := by
  induction h with
  | nil x => exact ⟨[], rfl, Or.inl rfl⟩
  | @keep x c s ps _ _ ih =>
    obtain ⟨t, hs, hedge⟩ := ih
    refine ⟨t, congrArg (c :: ·) hs, hedge.imp_right fun hb => ?_⟩
    rw [segments, getLast?_cons_or]
    exact hb
  | @hit x m s ps hfits _ _ =>
    refine ⟨m ++ s, rfl, Or.inr fun hb => ?_⟩
    obtain ⟨c, m', rfl⟩ := List.exists_cons_of_ne_nil hfits.ne_nil
    exact (hfits.2 hb).1

/-- A match at the end of a text is still one when the text goes on behind a word boundary. -/
lemma Fits.extend {m r t : List α} (h : q.Fits word x m r.head?)
    (hedge : t = [] ∨ (q.bounded = true → boundary word ((m ++ r).getLast?) t.head? = true)) :
    q.Fits word x m (r ++ t).head? := by
  cases r with
  | cons c r => exact h
  | nil =>
    rcases hedge with rfl | hb
    · exact h
    · refine ⟨h.1, fun hq => ⟨(h.2 hq).1, ?_⟩⟩
      simpa using hb hq

/-- A text that is clean behind a word boundary is clean by itself. -/
lemma CleanFrom.isolate {f : List α} (h : q.CleanFrom word x f)
    (hedge : f = [] ∨ (q.bounded = true → boundary word x f.head? = true)) : q.Clean word f := by
  intro l m r hf hfits
  cases l with
  | cons c l =>
    apply h (c :: l) m r hf
    rw [getLast?_cons_or] at hfits ⊢
    exact hfits
  | nil =>
    refine h [] m r hf ⟨hfits.1, fun hq => ⟨?_, (hfits.2 hq).2⟩⟩
    obtain ⟨c, m', rfl⟩ := List.exists_cons_of_ne_nil hfits.ne_nil
    rcases hedge with rfl | hb
    · exact absurd hf (by simp)
    · rw [hf] at hb
      exact hb hq

/-- **The segments between the matches of `p` are clean of `p`, and of what the text was clean of.** -/
theorem Scanned.clean_segments (h : p.Scanned word x s ps) (hq : q = p ∨ q.CleanFrom word x s)
    (hbounded : q.bounded = true → p.bounded = true) :
    q.CleanFrom word x (segments ps).1 ∧ ∀ mf ∈ (segments ps).2, q.Clean word mf.2 := by
  induction h with
  | nil x => exact ⟨cleanFrom_nil, by simp [segments]⟩
  | @keep x c s ps hno hscan ih =>
    obtain ⟨hlead, hrest⟩ := ih (hq.imp_right fun h => (cleanFrom_cons.1 h).2)
    refine ⟨cleanFrom_cons.2 ⟨fun m r hs hfits => ?_, hlead⟩, hrest⟩
    -- a match at the head of the segment is one of the whole text
    obtain ⟨t, rfl, hedge⟩ := hscan.lead_prefix
    have hs' : c :: ((segments ps).1 ++ t) = m ++ (r ++ t) := by
      rw [← List.append_assoc, ← hs]
      rfl
    have hedge' : t = [] ∨ (q.bounded = true → boundary word ((m ++ r).getLast?) t.head? = true) := by
      refine hedge.imp_right fun hb hqb => ?_
      rw [← hs, List.getLast?_cons]
      have hlast := hb (hbounded hqb)
      revert hlast
      cases (segments ps).1.getLast? <;> exact id
    have hwhole := hfits.extend hedge'
    rcases hq with rfl | hclean
    · exact hno m (r ++ t) hs' hwhole
    · exact hclean [] m (r ++ t) hs' hwhole
  | @hit x m s ps hfits hscan ih =>
    have hq' : q = p ∨ q.CleanFrom word m.getLast? s := by
      refine hq.imp_right fun h => ?_
      have hrest := h.append_right
      obtain ⟨c, m', rfl⟩ := List.exists_cons_of_ne_nil hfits.ne_nil
      rwa [List.getLast?_cons, Option.some_or, ← List.getLast?_cons] at hrest
    obtain ⟨hlead, hrest⟩ := ih hq'
    refine ⟨cleanFrom_nil, ?_⟩
    rw [segments, List.forall_mem_cons]
    refine ⟨hlead.isolate ?_, hrest⟩
    obtain ⟨t, rfl, -⟩ := hscan.lead_prefix
    cases hf : (segments ps).1 with
    | nil => exact Or.inl rfl
    | cons c f =>
      refine Or.inr fun hqb => ?_
      have hb := (hfits.2 (hbounded hqb)).2
      rw [hf] at hb
      exact hb

/-! ## Markers that no match overlaps -/

section Inert

variable (word p)

/-- A letter that belongs to no word and to no match. -/
def Barrier (b : α) : Prop := word b = false ∧ ∀ m, p.core.Matches m → b ∉ m

/-- A text in barriers, in which no match has room. -/
def Inert (marker : List α) : Prop :=
  ∃ a w b, marker = a :: (w ++ [b]) ∧ p.Barrier word a ∧ p.Barrier word b ∧ ∀ m, p.core.Matches m → ∃ c ∈ m, c ∉ w

end Inert

lemma matchAt_congr (hxy : x.any word = y.any word) : p.matchAt word x s = p.matchAt word y s := by
  simp only [matchAt, boundary, hxy]

lemma scan_congr (hxy : x.any word = y.any word) (k : ℕ) : p.scan word x k s = p.scan word y k s := by
  cases s with
  | nil => cases k <;> rfl
  | cons c s =>
    cases k with
    | zero => rw [scan, scan, matchAt_congr hxy]
    | succ k => rfl

lemma matchAt_barrier {b : α} (hb : p.Barrier word b) (f r : List α) :
    p.matchAt word x (f ++ b :: r) = p.matchAt word x f := by
  -- no match reaches the barrier
  have hshort : ∀ n ∈ p.core.ends (f ++ b :: r), n ≤ f.length := by
    intro n hn
    by_contra hlt
    apply hb.2 _ (Regex.mem_ends_iff.1 hn).2
    rw [List.take_append, List.mem_append]
    obtain ⟨k, hk⟩ := Nat.exists_eq_add_of_lt (not_le.1 hlt)
    rw [show n - f.length = k + 1 by omega, List.take_succ_cons]
    exact Or.inr List.mem_cons_self
  have hends : p.core.ends (f ++ b :: r) = p.core.ends f := by
    rw [← Regex.ends_append p.core f (b :: r)]
    exact (List.filter_eq_self.2 fun n hn => by simpa using hshort n hn).symm
  rw [matchAt, matchAt, hends]
  refine List.find?_congr fun n hn => ?_
  obtain ⟨hle, hm⟩ := Regex.mem_ends_iff.1 hn
  cases f with
  | nil => exact absurd hm (by simpa using p.nonempty)
  | cons c f =>
    have hend : ∀ z : Option α,
        boundary word z ((c :: f ++ b :: r).drop n).head? = boundary word z ((c :: f).drop n).head? := by
      intro z
      rw [List.drop_append_of_le_length hle]
      cases (c :: f).drop n with
      | nil => simp [boundary, hb.1]
      | cons d l => rfl
    rw [hend, List.take_append_of_le_length hle]
    rfl

lemma scan_barrier {b : α} (hb : p.Barrier word b) (f r : List α) {k : ℕ} (hk : k ≤ f.length) :
    p.scan word x k (f ++ b :: r) = p.scan word x k f ++ .keep b :: p.scan word none 0 r := by
  induction f generalizing x k with
  | nil =>
    obtain rfl := Nat.le_zero.1 hk
    have hno : p.matchAt word x (b :: r) = none := by
      rw [← List.nil_append (b :: r), matchAt_barrier hb, matchAt, List.find?_eq_none]
      intro n hn
      exact absurd (Regex.mem_ends_iff.1 hn).2 (by simpa using p.nonempty)
    have hnone : (some b).any word = (none : Option α).any word := hb.1
    simp only [List.nil_append, scan, hno, scan_congr hnone]
  | cons c f ih =>
    cases k with
    | succ k => exact ih (by simpa using hk)
    | zero =>
      have hmatch := matchAt_barrier (x := x) hb (c :: f) r
      rw [List.cons_append] at hmatch ⊢
      rw [scan, scan, hmatch]
      cases hn : p.matchAt word x (c :: f) with
      | none => simp only [ih (Nat.zero_le _), List.cons_append]
      | some n =>
        obtain ⟨hpos, hle, -⟩ := fits_of_matchAt hn
        have hle' : n - 1 ≤ f.length := by
          rw [List.length_cons] at hle
          omega
        have htake : (c :: (f ++ b :: r)).take n = (c :: f).take n := by
          rw [← List.cons_append, List.take_append_of_le_length hle]
        simp only [ih hle', htake, List.cons_append]

/-- A letter that belongs to no word and to no match splits what is found. -/
theorem found_barrier {b : α} (hb : p.Barrier word b) (f r : List α) :
    p.found word (f ++ b :: r) = p.found word f ++ p.found word r := by
  rw [found, scan_barrier hb f r (Nat.zero_le _), List.filterMap_append]
  rfl

lemma scan_narrow {w : List α} (hw : ∀ m, p.core.Matches m → ∃ c ∈ m, c ∉ w) : p.scan word x 0 w = w.map .keep := by
  apply scan_eq_of_clean
  intro l m r hs hfits
  obtain ⟨c, hc, hnot⟩ := hw m hfits.1
  apply hnot
  rw [hs]
  simp [hc]

/-- **A scan takes what stands before an inert text and what follows it apart.** -/
theorem scan_inert {marker : List α} (h : p.Inert word marker) (f r : List α) :
    p.scan word none 0 (f ++ marker ++ r) =
      p.scan word none 0 f ++ marker.map .keep ++ p.scan word none 0 r := by
  obtain ⟨a, w, b, rfl, ha, hb, hw⟩ := h
  rw [show f ++ a :: (w ++ [b]) ++ r = f ++ a :: (w ++ b :: r) by simp, scan_barrier ha f _ (Nat.zero_le _),
    scan_barrier hb w r (Nat.zero_le _), scan_narrow hw]
  simp

theorem sub_inert {marker : List α} (h : p.Inert word marker) (marker' f r : List α) :
    p.sub word marker' (f ++ marker ++ r) = p.sub word marker' f ++ marker ++ p.sub word marker' r := by
  have hmarker : (marker.map Piece.keep).flatMap (Piece.out marker') = marker := by
    rw [List.flatMap_map]
    exact List.flatMap_singleton' marker
  rw [sub, scan_inert h, List.flatMap_append, List.flatMap_append, hmarker]
  rfl

theorem clean_inert_iff {marker : List α} (h : p.Inert word marker) {f r : List α} :
    p.Clean word (f ++ marker ++ r) ↔ p.Clean word f ∧ p.Clean word r := by
  have hmarker : (marker.map Piece.keep).any Piece.isHit = false := by simp [Piece.isHit]
  rw [← search_eq_false_iff, ← search_eq_false_iff, ← search_eq_false_iff, search, scan_inert h, List.any_append,
    List.any_append, hmarker, Bool.or_false, Bool.or_eq_false_iff]
  rfl

lemma Inert.comap {f : β → α} {g : α → β} (hfg : ∀ a, f (g a) = a) {marker : List α} (h : p.Inert word marker) :
    (p.comap f).Inert (word ∘ f) (marker.map g) := by
  obtain ⟨a, w, b, rfl, ha, hb, hw⟩ := h
  have hbarrier : ∀ c, p.Barrier word c → (p.comap f).Barrier (word ∘ f) (g c) := by
    rintro c ⟨hword, havoid⟩
    refine ⟨by rw [Function.comp_apply, hfg, hword], fun m hm hmem => ?_⟩
    apply havoid (m.map f) ((Regex.matches_comap f p.core m).1 hm)
    exact hfg c ▸ List.mem_map_of_mem hmem
  refine ⟨g a, w.map g, g b, by simp, hbarrier a ha, hbarrier b hb, fun m hm => ?_⟩
  obtain ⟨c, hc, hnot⟩ := hw (m.map f) ((Regex.matches_comap f p.core m).1 hm)
  obtain ⟨d, hd, rfl⟩ := List.mem_map.1 hc
  refine ⟨d, hd, fun hmem => hnot ?_⟩
  obtain ⟨e, he, rfl⟩ := List.mem_map.1 hmem
  rwa [hfg]

lemma segments_map {f : β → α} (ps : List (Piece β)) : segments (ps.map (Piece.map f)) =
    ((segments ps).1.map f, (segments ps).2.map fun mf => (mf.1.map f, mf.2.map f)) := by
  induction ps with
  | nil => rfl
  | cons piece ps ih =>
    cases piece with
    | keep c => rw [List.map_cons, Piece.map, segments, ih, segments, List.map_cons]
    | hit m => rw [List.map_cons, Piece.map, segments, ih, segments, List.map_nil, List.map_cons]

lemma between_comap {f : β → α} (s : List β) :
    ((p.comap f).between (word ∘ f) s).map (List.map f) = p.between word (s.map f) := by
  rw [between, between, ← Option.map_none (f := f), ← scan_comap, segments_map]
  simp only [List.map_cons, List.map_map]
  rfl

/-- A text of segments and inert markers is clean if its segments are. -/
lemma clean_flatMap {marker : List α} (h : p.Inert word marker) (f : List α) (rest : List (List α × List α)) :
    p.Clean word (f ++ rest.flatMap fun mf => marker ++ mf.2) ↔ p.Clean word f ∧ ∀ mf ∈ rest, p.Clean word mf.2 := by
  induction rest generalizing f with
  | nil => simp
  | cons mf rest ih =>
    rw [List.flatMap_cons, List.append_assoc, ← List.append_assoc, clean_inert_iff h, ih, List.forall_mem_cons]

/-- A substitution makes a text clean of its pattern, and keeps it clean of others. -/
theorem clean_sub {marker : List α} (hmarker : q.Inert word marker) (hq : q = p ∨ q.Clean word s)
    (hbounded : q.bounded = true → p.bounded = true) : q.Clean word (p.sub word marker s) := by
  rw [sub, flatMap_out, clean_flatMap hmarker]
  exact (scanned_scan word p none s).clean_segments hq hbounded

end Pattern

/-! ## Passes -/

/-- One pass: the marker to write over the matches of a pattern. -/
structure Pass (α : Type) where
  pattern : Pattern α
  marker : List α

variable {word : α → Bool} {passes : List (Pass α)} {s : List α}

/-- A text after the passes. -/
def redact (word : α → Bool) (passes : List (Pass α)) (s : List α) : List α :=
  passes.foldl (fun s pass => pass.pattern.sub word pass.marker s) s

lemma redact_clean_of_clean {q : Pattern α} (hmarkers : ∀ pass ∈ passes, q.Inert word pass.marker)
    (hbounded : ∀ pass ∈ passes, q.bounded = true → pass.pattern.bounded = true) (hclean : q.Clean word s) :
    q.Clean word (redact word passes s) := by
  induction passes generalizing s with
  | nil => exact hclean
  | cons pass passes ih =>
    rw [List.forall_mem_cons] at hmarkers hbounded
    exact ih hmarkers.2 hbounded.2 (Pattern.clean_sub hmarkers.1 (Or.inr hclean) hbounded.1)

/-- **A redacted text is clean of every pattern**, if no match overlaps a marker and no pattern that stands between
word boundaries comes before one that does not. -/
theorem redact_clean (hinert : ∀ pass ∈ passes, ∀ pass' ∈ passes, pass.pattern.Inert word pass'.marker)
    (hbounded : passes.Pairwise fun pass pass' => pass.pattern.bounded = true → pass'.pattern.bounded = true)
    (s : List α) : ∀ pass ∈ passes, pass.pattern.Clean word (redact word passes s) := by
  induction passes generalizing s with
  | nil => simp
  | cons first passes ih =>
    obtain ⟨hfirst, hbounded⟩ := List.pairwise_cons.1 hbounded
    rw [List.forall_mem_cons]
    constructor
    · show first.pattern.Clean word (redact word passes (first.pattern.sub word first.marker s))
      refine redact_clean_of_clean (fun pass h => ?_) hfirst ?_
      · exact hinert first List.mem_cons_self pass (List.mem_cons_of_mem first h)
      · exact Pattern.clean_sub (hinert first List.mem_cons_self first List.mem_cons_self) (Or.inl rfl) id
    · refine ih (fun pass h pass' h' => ?_) hbounded _
      exact hinert pass (List.mem_cons_of_mem first h) pass' (List.mem_cons_of_mem first h')

lemma redact_eq_of_clean (h : ∀ pass ∈ passes, pass.pattern.Clean word s) : redact word passes s = s := by
  induction passes with
  | nil => rfl
  | cons pass passes ih =>
    rw [List.forall_mem_cons] at h
    rw [redact, List.foldl_cons, Pattern.sub_eq_of_clean h.1]
    exact ih h.2

theorem redact_inert {marker : List α} (h : ∀ pass ∈ passes, pass.pattern.Inert word marker) (f r : List α) :
    redact word passes (f ++ marker ++ r) = redact word passes f ++ marker ++ redact word passes r := by
  induction passes generalizing f r with
  | nil => rfl
  | cons pass passes ih =>
    rw [List.forall_mem_cons] at h
    simp only [redact, List.foldl_cons, Pattern.sub_inert h.1]
    exact ih h.2 _ _

/-- Redacting letters that carry something more is redacting the letters. -/
theorem redact_comap {f : β → α} {marker : Pass α → List β} (hmarker : ∀ pass ∈ passes, (marker pass).map f = pass.marker)
    (s : List β) :
    (redact (word ∘ f) (passes.map fun pass => ⟨pass.pattern.comap f, marker pass⟩) s).map f =
      redact word passes (s.map f) := by
  induction passes generalizing s with
  | nil => rfl
  | cons pass passes ih =>
    rw [List.forall_mem_cons] at hmarker
    simp only [redact, List.map_cons, List.foldl_cons] at ih ⊢
    rw [ih hmarker.2, Pattern.sub_comap, hmarker.1]

/-! ## What survives -/

/-- The segments between the matches of the first pattern in a text, those between the matches of the second in each of
them, and so on. -/
def leftovers (word : α → Bool) : List (Pass α) → List α → List (List α)
  | [], s => [s]
  | pass :: passes, s => (pass.pattern.between word s).flatMap (leftovers word passes)

/-- The markers that are written over the matches. -/
def marks (word : α → Bool) : List (Pass α) → List α → List (List α)
  | [], _ => []
  | pass :: passes, s =>
    (pass.pattern.found word s).map (fun _ => pass.marker) ++ (pass.pattern.between word s).flatMap (marks word passes)

/-- A text with a marker in it has `D` exactly if one of its three parts has. -/
def Partwise (D : List α → Prop) (marker : List α) : Prop := ∀ f r, D (f ++ marker ++ r) ↔ D f ∨ D marker ∨ D r

lemma filterMap_match? (ps : List (Piece α)) : ps.filterMap Piece.match? = (Pattern.segments ps).2.map Prod.fst := by
  induction ps with
  | nil => rfl
  | cons piece ps ih =>
    cases piece with
    | keep c => exact ih
    | hit m => exact congrArg (m :: ·) ih

lemma redact_flatMap_inert {marker : List α} (h : ∀ pass ∈ passes, pass.pattern.Inert word marker) (f : List α)
    (rest : List (List α × List α)) : redact word passes (f ++ rest.flatMap fun mf => marker ++ mf.2) =
      redact word passes f ++ rest.flatMap fun mf => marker ++ redact word passes mf.2 := by
  induction rest generalizing f with
  | nil => simp
  | cons mf rest ih =>
    rw [List.flatMap_cons, List.append_assoc, ← List.append_assoc, redact_inert h, ih]
    simp

/-- A marker that keeps the matches before it from those behind it is clean. -/
lemma Pattern.clean_of_splits {q : Pattern α} {marker : List α}
    (h : ∀ f r, q.Clean word (f ++ marker ++ r) ↔ q.Clean word f ∧ q.Clean word r) : q.Clean word marker := by
  have hempty := h [] []
  rw [List.nil_append, List.append_nil] at hempty
  exact hempty.2 ⟨Pattern.cleanFrom_nil, Pattern.cleanFrom_nil⟩

lemma partwise_of_splits {q : Pattern α} {marker : List α}
    (h : ∀ f r, q.Clean word (f ++ marker ++ r) ↔ q.Clean word f ∧ q.Clean word r) :
    Partwise (fun s => ¬ q.Clean word s) marker := by
  have hclean := Pattern.clean_of_splits h
  intro f r
  simp only [h, hclean, not_true_eq_false, false_or, not_and_or]

lemma Partwise.flatMap {D : List α → Prop} {marker : List α} (h : Partwise D marker) (g : List α → List α) (f : List α)
    (rest : List (List α × List α)) :
    D (f ++ rest.flatMap fun mf => marker ++ g mf.2) ↔ D f ∨ ∃ mf ∈ rest, D marker ∨ D (g mf.2) := by
  induction rest generalizing f with
  | nil => simp
  | cons mf rest ih =>
    rw [List.flatMap_cons, List.append_assoc, ← List.append_assoc, h, ih]
    simp only [List.mem_cons, exists_eq_or_imp, or_assoc]

/-- A text between two different brackets, with neither of them inside. -/
structure Enclosed (a b : α) (m : List α) : Prop where
  ne : a ≠ b
  inside : ∃ w, m = a :: (w ++ [b]) ∧ a ∉ w ∧ b ∉ w

section Enclosed

variable {a b : α} {m m' l r : List α}

lemma Enclosed.not_mem_behind (h : Enclosed a b m) (hm : m = l ++ r) (hl : l ≠ []) : a ∉ r := by
  obtain ⟨w, rfl, ha, -⟩ := h.inside
  obtain ⟨c, l, rfl⟩ := List.exists_cons_of_ne_nil hl
  obtain ⟨-, hw⟩ := List.cons.inj hm
  intro hmem
  have hmem' : a ∈ w ++ [b] := hw ▸ List.mem_append_right l hmem
  rcases List.mem_append.1 hmem' with hmem' | hmem'
  · exact ha hmem'
  · exact h.ne (List.mem_singleton.1 hmem')

lemma Enclosed.not_mem_before (h : Enclosed a b m) (hm : m = l ++ r) (hr : r ≠ []) : b ∉ l := by
  obtain ⟨w, rfl, -, hb⟩ := h.inside
  obtain ⟨r, c, rfl⟩ := (List.eq_nil_or_concat r).resolve_left hr
  rw [List.concat_eq_append, ← List.append_assoc, ← List.cons_append] at hm
  obtain ⟨hw, -⟩ := List.append_inj' hm rfl
  intro hmem
  have hmem' : b ∈ a :: w := hw ▸ List.mem_append_left r hmem
  rcases List.mem_cons.1 hmem' with hmem' | hmem'
  · exact h.ne hmem'.symm
  · exact hb hmem'

lemma Enclosed.ne_nil (h : Enclosed a b m) : m ≠ [] := by
  obtain ⟨w, rfl, -⟩ := h.inside
  exact List.cons_ne_nil _ _

/-- Two enclosed texts do not overlap. -/
theorem Enclosed.partwise (h : Enclosed a b m) (h' : Enclosed a b m') : Partwise (m <:+: ·) m' := by
  intro f r
  obtain ⟨w, hm', -⟩ := h'.inside
  constructor
  · intro hin
    rw [List.append_assoc, List.infix_append_iff_ne_nil, List.infix_append_iff_ne_nil] at hin
    rcases hin with hf | (hm | hr | ⟨l₁, l₂, hne₁, hne₂, hsplit, hend, -⟩) | ⟨l₁, l₂, hne₁, hne₂, hsplit, -, hbegin⟩
    · exact Or.inl hf
    · exact Or.inr (Or.inl hm)
    · exact Or.inr (Or.inr hr)
    · -- a part that ends where the other text ends has its closing bracket
      refine absurd ?_ (h.not_mem_before hsplit hne₂)
      obtain ⟨t, ht⟩ := hend
      have hlast := congrArg List.getLast? ht
      rw [hm', ← List.cons_append, List.getLast?_concat, List.getLast?_append_of_ne_nil _ hne₁] at hlast
      exact List.mem_of_getLast? hlast
    · refine absurd ?_ (h.not_mem_behind hsplit hne₁)
      obtain ⟨c, l₂, rfl⟩ := List.exists_cons_of_ne_nil hne₂
      rw [hm', List.cons_append] at hbegin
      rw [(List.cons_prefix_cons.1 hbegin).1]
      exact List.mem_cons_self
  · have hleft : f <:+: f ++ m' ++ r := ⟨[], m' ++ r, by simp⟩
    have hmiddle : m' <:+: f ++ m' ++ r := ⟨f, r, rfl⟩
    have hright : r <:+: f ++ m' ++ r := ⟨f ++ m', [], by simp⟩
    rintro (hf | hm | hr)
    · exact hf.trans hleft
    · exact hm.trans hmiddle
    · exact hr.trans hright

end Enclosed

/-- **What can be told by parts of a redacted text** can be told of what is left over, or of a marker. -/
theorem redact_partwise_iff (hinert : ∀ pass ∈ passes, ∀ pass' ∈ passes, pass.pattern.Inert word pass'.marker)
    {D : List α → Prop} (hD : ∀ pass ∈ passes, Partwise D pass.marker) (s : List α) : D (redact word passes s) ↔
      (∃ f ∈ leftovers word passes s, D f) ∨ ∃ marker ∈ marks word passes s, D marker := by
  induction passes generalizing s with
  | nil => simp [redact, leftovers, marks]
  | cons first passes ih =>
    have hlater : ∀ pass ∈ passes, pass.pattern.Inert word first.marker := fun pass h =>
      hinert pass (List.mem_cons_of_mem first h) first List.mem_cons_self
    have ih := ih (fun pass h pass' h' => hinert pass (List.mem_cons_of_mem first h) pass' (List.mem_cons_of_mem first h'))
      fun pass h => hD pass (List.mem_cons_of_mem first h)
    rw [redact, List.foldl_cons, Pattern.sub, Pattern.flatMap_out]
    refine (iff_of_eq (congrArg D (redact_flatMap_inert hlater _ _))).trans ?_
    rw [(hD first List.mem_cons_self).flatMap]
    simp only [ih, leftovers, marks, Pattern.between, Pattern.found, filterMap_match?, List.map_map, List.mem_append,
      List.mem_flatMap, List.mem_map, List.mem_cons]
    constructor
    · rintro ((⟨f, hf, hDf⟩ | ⟨m, hm, hDm⟩) | ⟨mf, hmf, hDm | ⟨f, hf, hDf⟩ | ⟨m, hm, hDm⟩⟩)
      · exact Or.inl ⟨f, ⟨_, Or.inl rfl, hf⟩, hDf⟩
      · exact Or.inr ⟨m, Or.inr ⟨_, Or.inl rfl, hm⟩, hDm⟩
      · exact Or.inr ⟨first.marker, Or.inl ⟨mf, hmf, rfl⟩, hDm⟩
      · exact Or.inl ⟨f, ⟨mf.2, Or.inr ⟨mf, hmf, rfl⟩, hf⟩, hDf⟩
      · exact Or.inr ⟨m, Or.inr ⟨mf.2, Or.inr ⟨mf, hmf, rfl⟩, hm⟩, hDm⟩
    · rintro (⟨f, ⟨_, rfl | ⟨mf, hmf, rfl⟩, hf⟩, hDf⟩ | ⟨m, ⟨mf, hmf, rfl⟩ | ⟨_, rfl | ⟨mf, hmf, rfl⟩, hm⟩, hDm⟩)
      · exact Or.inl (Or.inl ⟨f, hf, hDf⟩)
      · exact Or.inr ⟨mf, hmf, Or.inr (Or.inl ⟨f, hf, hDf⟩)⟩
      · exact Or.inr ⟨mf, hmf, Or.inl hDm⟩
      · exact Or.inl (Or.inr ⟨m, hm, hDm⟩)
      · exact Or.inr ⟨mf, hmf, Or.inr (Or.inr ⟨m, hm, hDm⟩)⟩

lemma mem_marks {s m : List α} (h : m ∈ marks word passes s) : ∃ pass ∈ passes, pass.marker = m := by
  induction passes generalizing s with
  | nil => cases h
  | cons first passes ih =>
    rcases List.mem_append.1 h with h | h
    · obtain ⟨-, -, rfl⟩ := List.mem_map.1 h
      exact ⟨first, List.mem_cons_self, rfl⟩
    · obtain ⟨f, -, hm⟩ := List.mem_flatMap.1 h
      obtain ⟨pass, hpass, rfl⟩ := ih hm
      exact ⟨pass, List.mem_cons_of_mem first hpass, rfl⟩

lemma Pattern.Scanned.segments_isInfix {p : Pattern α} {x : Option α} {ps : List (Piece α)}
    (h : p.Scanned word x s ps) :
    (segments ps).1 <+: s ∧ ∀ mf ∈ (segments ps).2, mf.2 <:+: s := by
  induction h with
  | nil x => exact ⟨List.prefix_rfl, by simp [segments]⟩
  | @keep x c s ps _ _ ih =>
    exact ⟨List.cons_prefix_cons.2 ⟨rfl, ih.1⟩, fun mf hmf => (ih.2 mf hmf).trans (List.suffix_cons c s).isInfix⟩
  | @hit x m s ps _ _ ih =>
    have htail : s <:+: m ++ s := (List.suffix_append m s).isInfix
    refine ⟨List.nil_prefix, ?_⟩
    rw [segments, List.forall_mem_cons]
    exact ⟨ih.1.isInfix.trans htail, fun mf hmf => (ih.2 mf hmf).trans htail⟩

lemma Pattern.between_isInfix {p : Pattern α} {f : List α} (h : f ∈ p.between word s) : f <:+: s := by
  obtain ⟨hlead, hrest⟩ := (Pattern.scanned_scan word p none s).segments_isInfix
  rcases List.mem_cons.1 h with rfl | h
  · exact hlead.isInfix
  · obtain ⟨mf, hmf, rfl⟩ := List.mem_map.1 h
    exact hrest mf hmf

/-- What is left over is a part of the text. -/
lemma leftover_isInfix {s f : List α} (h : f ∈ leftovers word passes s) : f <:+: s := by
  induction passes generalizing s with
  | nil =>
    obtain rfl := List.mem_singleton.1 h
    exact List.infix_rfl
  | cons pass passes ih =>
    obtain ⟨g, hg, hf⟩ := List.mem_flatMap.1 h
    exact (ih hf).trans (Pattern.between_isInfix hg)

/-- What a text is clean of, what is left over is clean of. -/
lemma clean_leftover {q : Pattern α} (hbounded : ∀ pass ∈ passes, q.bounded = true → pass.pattern.bounded = true)
    {s f : List α} (hclean : q.Clean word s) (h : f ∈ leftovers word passes s) : q.Clean word f := by
  induction passes generalizing s with
  | nil =>
    obtain rfl := List.mem_singleton.1 h
    exact hclean
  | cons pass passes ih =>
    rw [List.forall_mem_cons] at hbounded
    obtain ⟨g, hg, hf⟩ := List.mem_flatMap.1 h
    refine ih hbounded.2 ?_ hf
    obtain ⟨hlead, hrest⟩ := (Pattern.scanned_scan word pass.pattern none s).clean_segments (Or.inr hclean) hbounded.1
    rcases List.mem_cons.1 hg with rfl | hg
    · exact hlead
    · obtain ⟨mf, hmf, rfl⟩ := List.mem_map.1 hg
      exact hrest mf hmf

lemma mem_marks_append {before after : List (Pass α)} {s m : List α} :
    m ∈ marks word (before ++ after) s ↔
      m ∈ marks word before s ∨ ∃ f ∈ leftovers word before s, m ∈ marks word after f := by
  induction before generalizing s with
  | nil => simp [marks, leftovers]
  | cons first before ih =>
    simp only [List.cons_append, marks, leftovers, List.mem_append, List.mem_flatMap, ih]
    constructor
    · rintro (h | ⟨g, hg, h | ⟨f, hf, h⟩⟩)
      · exact Or.inl (Or.inl h)
      · exact Or.inl (Or.inr ⟨g, hg, h⟩)
      · exact Or.inr ⟨f, ⟨g, hg, hf⟩, h⟩
    · rintro ((h | ⟨g, hg, h⟩) | ⟨f, ⟨g, hg, hf⟩, h⟩)
      · exact Or.inl h
      · exact Or.inr ⟨g, hg, Or.inl h⟩
      · exact Or.inr ⟨g, hg, Or.inr ⟨f, hf, h⟩⟩

lemma Pattern.found_ne_nil_iff {p : Pattern α} : p.found word s ≠ [] ↔ p.search word s = true := by
  unfold Pattern.found Pattern.search
  rw [ne_eq, List.filterMap_eq_nil_iff, not_forall, List.any_eq_true]
  refine exists_congr fun piece => ?_
  cases piece with
  | keep c => simp [Piece.match?, Piece.isHit]
  | hit m => simp [Piece.match?, Piece.isHit]

/-- **A marker is written iff its pattern is found in a piece that the passes before it leave.** -/
theorem marker_mem_marks_iff {before after : List (Pass α)} {pass : Pass α}
    (hbefore : ∀ other ∈ before, other.marker ≠ pass.marker) (hafter : ∀ other ∈ after, other.marker ≠ pass.marker)
    (s : List α) : pass.marker ∈ marks word (before ++ pass :: after) s ↔
      ∃ f ∈ leftovers word before s, pass.pattern.search word f = true := by
  have hnot : ∀ {others : List (Pass α)} {f : List α}, (∀ other ∈ others, other.marker ≠ pass.marker) →
      pass.marker ∉ marks word others f := by
    intro others f hothers hmem
    obtain ⟨other, hother, heq⟩ := mem_marks hmem
    exact hothers other hother heq
  rw [mem_marks_append, or_iff_right (hnot hbefore)]
  refine exists_congr fun f => and_congr_right fun _ => ?_
  have hlater : pass.marker ∉ (pass.pattern.between word f).flatMap (marks word after) := by
    rw [List.mem_flatMap]
    rintro ⟨g, -, hg⟩
    exact hnot hafter hg
  rw [marks, List.mem_append, or_iff_left hlater, ← Pattern.found_ne_nil_iff]
  cases pass.pattern.found word f with
  | nil => simp
  | cons m ms => simp

/-- A letter survives the passes iff it is left over. -/
theorem mem_redact_iff_leftover (hinert : ∀ pass ∈ passes, ∀ pass' ∈ passes, pass.pattern.Inert word pass'.marker)
    {c : α} (hc : ∀ pass ∈ passes, c ∉ pass.marker) (s : List α) :
    c ∈ redact word passes s ↔ c ∈ (leftovers word passes s).flatten := by
  have hpart : ∀ pass ∈ passes, Partwise (c ∈ ·) pass.marker := by
    intro pass _ f r
    simp only [List.mem_append, or_assoc]
  rw [redact_partwise_iff hinert hpart, List.mem_flatten]
  apply or_iff_left
  rintro ⟨m, hm, hmem⟩
  obtain ⟨pass, hpass, rfl⟩ := mem_marks hm
  exact hc pass hpass hmem

/-- A scan splits a text into its matches and the segments between them. -/
lemma Pattern.Scanned.perm {p : Pattern α} {x : Option α} {ps : List (Piece α)} (h : p.Scanned word x s ps) :
    ((ps.filterMap Piece.match?).flatten ++ ((segments ps).1 :: (segments ps).2.map Prod.snd).flatten).Perm s := by
  induction h with
  | nil x => exact .nil
  | keep _ _ ih => exact List.perm_middle.trans (ih.cons _)
  | @hit x m s ps _ _ ih =>
    show ((m :: ps.filterMap Piece.match?).flatten ++ ((segments ps).1 :: (segments ps).2.map Prod.snd).flatten).Perm _
    rw [List.flatten_cons, List.append_assoc]
    exact ih.append_left m

end Aimw.Lib
