import Aimw.Lib.Isolation

/-!
# Matches that stand apart

The passes of a redaction, told of the matches that scans of the whole text find.  Letters are told apart by their
place: no letter stands twice in a text.

* `Clear` — a match does not overlap another, and does not end beside it with a letter that belongs to no word;
* `mem_found_between_iff` — what is found in the segments between the matches of a pattern.
-/

namespace Aimw.Lib

variable {α : Type}

/-- `c` and `d` stand side by side. -/
def Beside (s : List α) (c d : α) : Prop := [c, d] <:+: s ∨ [d, c] <:+: s

/-- `m` does not overlap `k`, and what of it stands beside `k` are letters of words. -/
def Clear (word : α → Bool) (s k m : List α) : Prop := ∀ c ∈ m, c ∉ k ∧ ∀ d ∈ k, Beside s c d → word c = true

/-- A match directly behind one that it is clear of begins with a letter of a word. -/
lemma Clear.opens {word : α → Bool} {s k m : List α} (h : Clear word s k m) (hs : k ++ m <:+: s) (hk : k ≠ [])
    (hm : m ≠ []) : boundary word none m.head? = true := by
  obtain ⟨c, m, rfl⟩ := List.exists_cons_of_ne_nil hm
  obtain ⟨k, d, rfl⟩ := (List.eq_nil_or_concat' k).resolve_left hk
  have hbeside : [d, c] <:+: s := List.IsInfix.trans ⟨k, m, by simp⟩ hs
  simpa [boundary] using (h c List.mem_cons_self).2 d (by simp) (Or.inr hbeside)

/-- A match directly before one that it is clear of ends with a letter of a word. -/
lemma Clear.closes {word : α → Bool} {s k m : List α} (h : Clear word s k m) (hs : m ++ k <:+: s) (hk : k ≠ [])
    (hm : m ≠ []) : boundary word m.getLast? none = true := by
  obtain ⟨m, c, rfl⟩ := (List.eq_nil_or_concat' m).resolve_left hm
  obtain ⟨d, k, rfl⟩ := List.exists_cons_of_ne_nil hk
  have hbeside : [c, d] <:+: s := List.IsInfix.trans ⟨m, k, by simp⟩ hs
  simpa [boundary] using (h c (by simp)).2 d List.mem_cons_self (Or.inl hbeside)

namespace Pattern

variable {word : α → Bool} {p q : Pattern α} {x : Option α} {s : List α} {ps : List (Piece α)}

/-! ## Matches and segments -/

lemma mem_found {m : List α} : m ∈ p.found word s ↔ .hit m ∈ p.scan word none 0 s := by
  rw [found, List.mem_filterMap]
  constructor
  · rintro ⟨piece, hpiece, hm⟩
    cases piece with
    | keep c => cases hm
    | hit m' =>
      obtain rfl := Option.some.inj hm
      exact hpiece
  · exact fun h => ⟨_, h, rfl⟩

lemma search_iff_found : p.search word s = true ↔ ∃ m, m ∈ p.found word s := by
  simp only [mem_found, search, List.any_eq_true]
  constructor
  · rintro ⟨piece, hpiece, hhit⟩
    cases piece with
    | keep c => cases hhit
    | hit m => exact ⟨m, hpiece⟩
  · rintro ⟨m, hm⟩
    exact ⟨_, hm, rfl⟩

lemma scan_hit {A B : List (Piece α)} {k : List α} (h : q.scan word x 0 s = A ++ .hit k :: B) :
    q.Fits word ((A.flatMap Piece.text).getLast?.or x) k (B.flatMap Piece.text).head? := by
  have hrest := (scan_append h).2
  rcases scan_cases word q ((A.flatMap Piece.text).getLast?.or x) ((Piece.hit k :: B).flatMap Piece.text) with
    ⟨-, hscan⟩ | ⟨c, r, -, -, hscan⟩ | ⟨m, r, hs, -, -, hfits, hscan⟩
  · rw [hscan] at hrest
    cases hrest
  · rw [hscan] at hrest
    cases hrest
  · rw [hscan] at hrest
    obtain ⟨heq, -⟩ := List.cons.inj hrest
    cases heq
    obtain rfl : B.flatMap Piece.text = r := List.append_cancel_left hs
    exact hfits

lemma ne_nil_of_mem_found {m : List α} (h : m ∈ p.found word s) : m ≠ [] := by
  obtain ⟨A, B, hscan⟩ := List.append_of_mem (mem_found.1 h)
  exact (scan_hit hscan).ne_nil

lemma found_between_perm (word : α → Bool) (p : Pattern α) (s : List α) :
    ((p.found word s).flatten ++ (p.between word s).flatten).Perm s := (scanned_scan word p none s).perm

lemma not_mem_of_between (hs : s.Nodup) {g k : List α} {c : α} (hg : g ∈ p.between word s) (hc : c ∈ g)
    (hk : k ∈ p.found word s) : c ∉ k := by
  have hdisjoint := List.disjoint_of_nodup_append ((found_between_perm word p s).nodup_iff.2 hs)
  exact fun hmem => hdisjoint (List.mem_flatten_of_mem hk hmem) (List.mem_flatten_of_mem hg hc)

lemma not_mem_of_keep (hs : s.Nodup) {ps₁ ps₂ : List (Piece α)} {g k : List α} {c : α}
    (hscan : p.scan word none 0 s = ps₁ ++ (g.map .keep ++ ps₂)) (hc : c ∈ g) (hk : k ∈ p.found word s) : c ∉ k := by
  obtain ⟨l, r, hg, -, -⟩ := exists_between hscan
  exact not_mem_of_between hs hg (by simp [hc]) hk

lemma exists_between_of_not_mem {c : α} (hc : c ∈ s) (hno : ∀ k ∈ p.found word s, c ∉ k) :
    ∃ g ∈ p.between word s, c ∈ g := by
  rcases List.mem_append.1 ((found_between_perm word p s).mem_iff.2 hc) with h | h
  · obtain ⟨k, hk, hmem⟩ := List.mem_flatten.1 h
    exact absurd hmem (hno k hk)
  · exact List.mem_flatten.1 h

lemma eq_of_mem_between (hs : s.Nodup) {g g' : List α} {c : α} (hg : g ∈ p.between word s) (hg' : g' ∈ p.between word s)
    (hc : c ∈ g) (hc' : c ∈ g') : g = g' := by
  have hnodup := ((found_between_perm word p s).nodup_iff.2 hs).of_append_right
  have : Std.Symm (@List.Disjoint α) := ⟨fun _ _ h => h.symm⟩
  by_contra hne
  exact (List.nodup_flatten.1 hnodup).2.forall hg hg' hne hc hc'

lemma subset_of_hit_mem {m : List α} (h : .hit m ∈ ps) : m ⊆ ps.flatMap Piece.text :=
  fun _ hc => List.mem_flatMap.2 ⟨_, h, hc⟩

/-! ## Segments alone -/

/-- A match of `q` that begins or ends a segment between matches of `p`, alone in it, does so in the text. -/
structure Isolates (word : α → Bool) (p q : Pattern α) (s : List α) : Prop where
  opens : ∀ ps₁ k g ps₂, p.scan word none 0 s = ps₁ ++ .hit k :: (g.map .keep ++ ps₂) → AtHit ps₂ →
    ∀ m r, g = m ++ r → q.Fits word none m r.head? → q.bounded = true → boundary word k.getLast? m.head? = true
  closes : ∀ ps₁ g k ps₂, p.scan word none 0 s = ps₁ ++ (g.map .keep ++ .hit k :: ps₂) → (ps₁ = [] ∨ BehindHit ps₁) →
    ∀ x l m, g = l ++ m → q.Fits word (l.getLast?.or x) m none → q.bounded = true →
      boundary word m.getLast? k.head? = true

/-- At the matches of a pattern that asks for them there are word boundaries. -/
lemma isolates_of_bounded (hp : p.bounded = true) : Isolates word p q s where
  opens ps₁ k g ps₂ h _ m r hg hfits _ := by
    obtain ⟨c, m, rfl⟩ := List.exists_cons_of_ne_nil hfits.ne_nil
    subst hg
    exact ((scan_hit h).2 hp).2
  closes ps₁ g k ps₂ h _ x l m hg hfits _ := by
    rw [← List.append_assoc] at h
    have hedge := ((scan_hit h).2 hp).1
    have hlast : ((ps₁ ++ g.map Piece.keep).flatMap Piece.text).getLast? = m.getLast? := by
      rw [List.flatMap_append, keep_text, hg, ← List.append_assoc, List.getLast?_append_of_ne_nil _ hfits.ne_nil]
    rwa [hlast, Option.or_none] at hedge

/-- Every match of `q` lies inside a match of `p` or clear of all of them. -/
def Settled (word : α → Bool) (p q : Pattern α) (s : List α) : Prop :=
  ∀ m ∈ q.found word s, (∃ k ∈ p.found word s, m ⊆ k) ∨ ∀ k ∈ p.found word s, Clear word s k m

/-- A scan can be cut beside the matches of a pattern that its own matches do not overlap. -/
lemma Settled.cut (hs : s.Nodup) (hsettled : Settled word p q s) {ps₁ ps₂ : List (Piece α)}
    (hscan : p.scan word none 0 s = ps₁ ++ ps₂) (hborder : (ps₁ = [] ∨ BehindHit ps₁) ∨ AtHit ps₂) :
    ∃ A B, q.scan word none 0 s = A ++ B ∧ A.flatMap Piece.text = ps₁.flatMap Piece.text ∧
      B.flatMap Piece.text = ps₂.flatMap Piece.text := by
  have htext : (q.scan word none 0 s).flatMap Piece.text = ps₁.flatMap Piece.text ++ ps₂.flatMap Piece.text := by
    rw [← (scan_append hscan).1]
    exact scan_text (Nat.zero_le _)
  rcases text_append_cases htext with hcut | ⟨A, m₁, m₂, B, hq, hne₁, hne₂, hleft, hright⟩
  · exact hcut
  exfalso
  have hdisjoint : List.Disjoint (ps₁.flatMap Piece.text) (ps₂.flatMap Piece.text) := by
    rw [(scan_append hscan).1] at hs
    exact List.disjoint_of_nodup_append hs
  have hfound : m₁ ++ m₂ ∈ q.found word s := mem_found.2 (by rw [hq]; simp)
  obtain ⟨m₁, d, rfl⟩ := (List.eq_nil_or_concat' m₁).resolve_left hne₁
  obtain ⟨c, m₂, rfl⟩ := List.exists_cons_of_ne_nil hne₂
  -- the match has a letter of a match of `p`, and so it lies inside one, on one side of the cut
  obtain ⟨k, hk, e, he, hek⟩ : ∃ k ∈ p.found word s, ∃ e ∈ m₁ ++ [d] ++ c :: m₂, e ∈ k := by
    rcases hborder with (rfl | ⟨ps, k, rfl⟩) | rfl | ⟨k, ps, rfl⟩
    · simp at hleft
    · have hk : k ∈ p.found word s := mem_found.2 (by rw [hscan]; simp)
      obtain ⟨k', e, rfl⟩ := (List.eq_nil_or_concat' k).resolve_left (ne_nil_of_mem_found hk)
      refine ⟨_, hk, d, by simp, ?_⟩
      have hlast := congrArg List.getLast? hleft
      simp [Piece.text] at hlast
      simp [hlast]
    · simp at hright
    · have hk : k ∈ p.found word s := mem_found.2 (by rw [hscan]; simp)
      obtain ⟨e, k', rfl⟩ := List.exists_cons_of_ne_nil (ne_nil_of_mem_found hk)
      refine ⟨_, hk, c, by simp, ?_⟩
      have hhead := congrArg List.head? hright
      simp [Piece.text] at hhead
      simp [hhead]
  rcases hsettled _ hfound with ⟨k', hk', hsub⟩ | hclear
  · have hd : d ∈ k' := hsub (by simp)
    have hc : c ∈ k' := hsub (by simp)
    have hdleft : d ∈ ps₁.flatMap Piece.text := by rw [hleft]; simp
    have hcright : c ∈ ps₂.flatMap Piece.text := by rw [hright]; simp
    have hmem := mem_found.1 hk'
    rw [hscan, List.mem_append] at hmem
    rcases hmem with hmem | hmem
    · exact hdisjoint (subset_of_hit_mem hmem hc) hcright
    · exact hdisjoint hdleft (subset_of_hit_mem hmem hd)
  · exact (hclear k hk e he).1 hek

lemma last_text {ps : List (Piece α)} {k : List α} (hk : k ≠ []) :
    ((ps ++ [Piece.hit k]).flatMap Piece.text).getLast? = k.getLast? := by
  rw [List.flatMap_append, List.flatMap_singleton]
  exact List.getLast?_append_of_ne_nil _ hk

lemma head_text {ps : List (Piece α)} {k : List α} (hk : k ≠ []) :
    ((Piece.hit k :: ps).flatMap Piece.text).head? = k.head? := by
  rw [List.flatMap_cons, Piece.text, List.head?_append_of_ne_nil _ hk]

/-- The pieces between two cuts of a scan. -/
lemma exists_between_cuts {A C D B : List (Piece α)} {g : List α} (hAC : q.scan word x 0 s = A ++ C)
    (hDB : q.scan word x 0 s = D ++ B) (hD : D.flatMap Piece.text = A.flatMap Piece.text ++ g) :
    ∃ E, C = E ++ B ∧ E.flatMap Piece.text = g := by
  rcases List.append_eq_append_iff.1 (hAC.symm.trans hDB) with ⟨E, rfl, rfl⟩ | ⟨E, rfl, rfl⟩
  · refine ⟨E, rfl, ?_⟩
    rw [List.flatMap_append] at hD
    exact List.append_cancel_left hD
  · rw [List.flatMap_append, List.append_assoc] at hD
    obtain ⟨hnil, rfl⟩ := List.append_eq_nil_iff.1 (List.self_eq_append_right.1 hD)
    have hE : E = [] := eq_nil_of_text (scan_append hDB).2.symm hnil
    exact ⟨[], by rw [hE]; rfl, rfl⟩

/-- A segment is scanned alone as in the text. -/
lemma Settled.scan_segment (hs : s.Nodup) (hsettled : Settled word p q s) (hiso : Isolates word p q s)
    {ps₁ ps₂ : List (Piece α)} {g : List α} (hscan : p.scan word none 0 s = ps₁ ++ (g.map .keep ++ ps₂))
    (hbefore : ps₁ = [] ∨ BehindHit ps₁) (hbehind : AtHit ps₂) :
    ∃ A B, q.scan word none 0 s = A ++ (q.scan word none 0 g ++ B) ∧ A.flatMap Piece.text = ps₁.flatMap Piece.text ∧
      B.flatMap Piece.text = ps₂.flatMap Piece.text := by
  obtain ⟨A, C, hAC, hA, hC⟩ := hsettled.cut hs hscan (Or.inl hbefore)
  have hscan' : p.scan word none 0 s = (ps₁ ++ g.map .keep) ++ ps₂ := by rw [hscan, List.append_assoc]
  obtain ⟨D, B, hDB, hD, hB⟩ := hsettled.cut hs hscan' (Or.inr hbehind)
  rw [List.flatMap_append, keep_text] at hC hD
  obtain ⟨E, rfl, hE⟩ := exists_between_cuts hAC hDB (by rw [hD, hA])
  have hrest := (scan_append hAC).2.symm
  rw [hC, hA, Option.or_none] at hrest
  have hs' : s = ps₁.flatMap Piece.text ++ (g ++ ps₂.flatMap Piece.text) := by
    rw [(scan_append hscan).1, List.flatMap_append, keep_text]
  -- a match in the segment is clear of the matches of `p`
  have hclear : ∀ m, .hit m ∈ E → ∀ k ∈ p.found word s, Clear word s k m := by
    intro m hm
    have hfound : m ∈ q.found word s := mem_found.2 (by rw [hAC]; simp [hm])
    refine (hsettled m hfound).resolve_left ?_
    rintro ⟨k, hk, hsub⟩
    obtain ⟨c, m', rfl⟩ := List.exists_cons_of_ne_nil (ne_nil_of_mem_found hfound)
    have hc : c ∈ g := hE ▸ subset_of_hit_mem hm List.mem_cons_self
    exact not_mem_of_keep hs hscan hc hk (hsub List.mem_cons_self)
  have halone : q.scan word none 0 g = E := by
    refine scan_isolate hrest hE ?_ ?_ ?_ ?_
    · intro m r hg hfits hb
      rcases hbefore with rfl | ⟨ps, k, rfl⟩
      · exact (hfits.2 hb).1
      · have hk : k ∈ p.found word s := mem_found.2 (by rw [hscan]; simp)
        rw [last_text (ne_nil_of_mem_found hk)]
        exact hiso.opens ps k g ps₂ (by rw [hscan]; simp) hbehind m r hg hfits hb
    · intro l m hg hfits hb
      rcases hbehind with rfl | ⟨k, ps, rfl⟩
      · exact (hfits.2 hb).2
      · have hk : k ∈ p.found word s := mem_found.2 (by rw [hscan]; simp)
        rw [head_text (ne_nil_of_mem_found hk)]
        exact hiso.closes ps₁ g k ps hscan hbefore _ l m hg hfits hb
    · rintro m E rfl hb
      have hfits := scan_hit (A := []) hrest
      rcases hbefore with rfl | ⟨ps, k, rfl⟩
      · exact (hfits.2 hb).1
      · have hk : k ∈ p.found word s := mem_found.2 (by rw [hscan]; simp)
        refine (hclear m List.mem_cons_self k hk).opens ?_ (ne_nil_of_mem_found hk) hfits.ne_nil
        refine ⟨ps.flatMap Piece.text, E.flatMap Piece.text ++ ps₂.flatMap Piece.text, ?_⟩
        rw [hs', ← hE]
        simp [Piece.text]
    · rintro m E rfl hb
      have hfits := scan_hit (A := E) (B := B) (by simpa using hrest)
      rw [hB] at hfits
      rcases hbehind with rfl | ⟨k, ps, rfl⟩
      · exact (hfits.2 hb).2
      · have hk : k ∈ p.found word s := mem_found.2 (by rw [hscan]; simp)
        refine (hclear m (by simp) k hk).closes ?_ (ne_nil_of_mem_found hk) hfits.ne_nil
        refine ⟨ps₁.flatMap Piece.text ++ E.flatMap Piece.text, ps.flatMap Piece.text, ?_⟩
        rw [hs', ← hE]
        simp [Piece.text]
  exact ⟨A, B, by rw [hAC, halone], hA, hB⟩

/-- **What is found in the segments** is what is found in the text, and not inside a match of `p`. -/
theorem Settled.mem_found_between_iff (hs : s.Nodup) (hsettled : Settled word p q s) (hiso : Isolates word p q s)
    {m : List α} : (∃ g ∈ p.between word s, m ∈ q.found word g) ↔
      m ∈ q.found word s ∧ ∀ k ∈ p.found word s, ¬ m ⊆ k := by
  constructor
  · rintro ⟨g, hg, hm⟩
    obtain ⟨ps₁, ps₂, hscan, hbefore, hbehind⟩ := between_split hg
    obtain ⟨A, B, hAB, -, -⟩ := hsettled.scan_segment hs hiso hscan hbefore hbehind
    refine ⟨mem_found.2 (by rw [hAB]; simp [mem_found.1 hm]), fun k hk hsub => ?_⟩
    obtain ⟨c, m, rfl⟩ := List.exists_cons_of_ne_nil (ne_nil_of_mem_found hm)
    have hc : c ∈ g := (found_between_perm word q g).mem_iff.1
      (List.mem_append_left _ (List.mem_flatten_of_mem hm List.mem_cons_self))
    exact not_mem_of_between hs hg hc hk (hsub List.mem_cons_self)
  · rintro ⟨hm, hno⟩
    have hclear := (hsettled m hm).resolve_left fun ⟨k, hk, hsub⟩ => hno k hk hsub
    obtain ⟨c, m, rfl⟩ := List.exists_cons_of_ne_nil (ne_nil_of_mem_found hm)
    have hc : c ∈ s := (found_between_perm word q s).mem_iff.1
      (List.mem_append_left _ (List.mem_flatten_of_mem hm List.mem_cons_self))
    obtain ⟨g, hg, hcg⟩ := exists_between_of_not_mem hc fun k hk => (hclear k hk c List.mem_cons_self).1
    obtain ⟨ps₁, ps₂, hscan, hbefore, hbehind⟩ := between_split hg
    obtain ⟨A, B, hAB, hA, hB⟩ := hsettled.scan_segment hs hiso hscan hbefore hbehind
    refine ⟨g, hg, mem_found.2 ?_⟩
    have hmem := mem_found.1 hm
    have hs' : s = ps₁.flatMap Piece.text ++ (g ++ ps₂.flatMap Piece.text) := by
      rw [(scan_append hscan).1, List.flatMap_append, keep_text]
    rw [hs'] at hs
    rw [hAB, List.mem_append, List.mem_append] at hmem
    rcases hmem with hmem | hmem | hmem
    · have hleft : c ∈ ps₁.flatMap Piece.text := hA ▸ subset_of_hit_mem hmem List.mem_cons_self
      exact absurd (List.mem_append_left _ hcg) (List.disjoint_of_nodup_append hs hleft)
    · exact hmem
    · have hright : c ∈ ps₂.flatMap Piece.text := hB ▸ subset_of_hit_mem hmem List.mem_cons_self
      exact absurd hright (List.disjoint_of_nodup_append hs.of_append_right hcg)

/-- A match that has a letter in a segment is found in it. -/
lemma Settled.mem_found_segment (hs : s.Nodup) (hsettled : Settled word p q s) (hiso : Isolates word p q s)
    {g m : List α} (hm : m ∈ q.found word s) (hg : g ∈ p.between word s) {c : α} (hc : c ∈ m) (hcg : c ∈ g) :
    m ∈ q.found word g := by
  have hno : ∀ k ∈ p.found word s, ¬ m ⊆ k := fun k hk hsub => not_mem_of_between hs hg hcg hk (hsub hc)
  obtain ⟨g', hg', hmg'⟩ := (hsettled.mem_found_between_iff hs hiso).2 ⟨hm, hno⟩
  have hcg' : c ∈ g' := (found_between_perm word q g').mem_iff.1
    (List.mem_append_left _ (List.mem_flatten_of_mem hmg' hc))
  rwa [eq_of_mem_between hs hg hg' hcg hcg']

/-! ## Letters beside a match -/

lemma isInfix_of_mem_found {m : List α} (h : m ∈ p.found word s) : m <:+: s := by
  obtain ⟨A, B, hscan⟩ := List.append_of_mem (mem_found.1 h)
  refine ⟨A.flatMap Piece.text, B.flatMap Piece.text, ?_⟩
  rw [(scan_append hscan).1, List.flatMap_cons, Piece.text, List.append_assoc]

lemma Scanned.text_ne_nil (h : p.Scanned word x s ps) : ∀ piece ∈ ps, piece.text ≠ [] := by
  induction h with
  | nil x => simp
  | keep _ _ ih => exact List.forall_mem_cons.2 ⟨by simp [Piece.text], ih⟩
  | hit hfits _ ih => exact List.forall_mem_cons.2 ⟨hfits.ne_nil, ih⟩

/-- A letter stands at one place only. -/
lemma eq_of_nodup {a a' b b' : List α} {d : α} (hs : (a ++ d :: b).Nodup) (h : a ++ d :: b = a' ++ d :: b') :
    a = a' ∧ b = b' := by
  have hb : d ∉ b := (List.nodup_cons.1 hs.of_append_right).1
  have ha : d ∉ a := fun hmem => List.disjoint_of_nodup_append hs hmem List.mem_cons_self
  obtain ⟨heq, -, heq'⟩ := (List.append_cons_inj_of_notMem ha hb).1 h
  exact ⟨heq, heq'⟩

/-- The piece beside a match, where a letter of the match and another letter meet. -/
lemma beside_hit (hs : s.Nodup) {k : List α} {c d : α} (hk : k ∈ p.found word s) (hc : c ∉ k) (hd : d ∈ k)
    (hbeside : Beside s c d) :
    (∃ A piece B, p.scan word none 0 s = A ++ piece :: .hit k :: B ∧ piece.text.getLast? = some c ∧ k.head? = some d) ∨
      ∃ A piece B, p.scan word none 0 s = A ++ .hit k :: piece :: B ∧ piece.text.head? = some c ∧
        k.getLast? = some d := by
  obtain ⟨A, B, hscan⟩ := List.append_of_mem (mem_found.1 hk)
  have hpieces := (scanned_scan word p none s).text_ne_nil
  rw [hscan] at hpieces
  have htext := (scan_append hscan).1
  rw [List.flatMap_cons, Piece.text] at htext
  obtain ⟨k₁, k₂, rfl⟩ := List.append_of_mem hd
  have hplace : s = (A.flatMap Piece.text ++ k₁) ++ d :: (k₂ ++ B.flatMap Piece.text) := by rw [htext]; simp
  rcases hbeside with ⟨l, r, hlr⟩ | ⟨l, r, hlr⟩
  · left
    have hplace' : s = (l ++ [c]) ++ d :: r := by rw [← hlr]; simp
    obtain ⟨hleft, -⟩ := eq_of_nodup (hplace ▸ hs) (hplace.symm.trans hplace')
    rcases List.eq_nil_or_concat' k₁ with rfl | ⟨k₁, e, rfl⟩
    · rcases List.eq_nil_or_concat' A with rfl | ⟨A, piece, rfl⟩
      · simp at hleft
      · refine ⟨A, piece, B, by rw [hscan]; simp, ?_, rfl⟩
        have hlast := congrArg List.getLast? hleft
        rwa [List.append_nil, List.flatMap_append, List.flatMap_singleton, List.getLast?_concat,
          List.getLast?_append_of_ne_nil _ (hpieces piece (by simp))] at hlast
    · rw [← List.append_assoc] at hleft
      obtain rfl : e = c := by simpa using (List.append_inj' hleft rfl).2
      simp at hc
  · right
    have hplace' : s = l ++ d :: (c :: r) := by rw [← hlr]; simp
    obtain ⟨-, hright⟩ := eq_of_nodup (hplace ▸ hs) (hplace.symm.trans hplace')
    cases k₂ with
    | nil =>
      cases B with
      | nil => cases hright
      | cons piece B =>
        refine ⟨A, piece, B, hscan, ?_, List.getLast?_concat⟩
        have hhead := congrArg List.head? hright
        rwa [List.nil_append, List.flatMap_cons, List.head?_append_of_ne_nil _ (hpieces piece (by simp)),
          List.head?_cons] at hhead
    | cons e k₂ =>
      obtain rfl := (List.cons.inj hright).1
      simp at hc

lemma keep_of_not_mem {c : α} (hc : ∀ k ∈ p.found word s, c ∉ k) {piece : Piece α}
    (hpiece : piece ∈ p.scan word none 0 s) (hmem : c ∈ piece.text) : piece = .keep c := by
  cases piece with
  | keep e => rw [List.mem_singleton.1 hmem]
  | hit k => exact absurd hmem (hc k (mem_found.2 hpiece))

lemma head_of_not_mem {c : α} (hc : ∀ k ∈ p.found word s, c ∉ k) {A B : List (Piece α)} {t : List α}
    (hscan : p.scan word none 0 s = A ++ B) (htext : B.flatMap Piece.text = c :: t) :
    ∃ B', B = .keep c :: B' ∧ B'.flatMap Piece.text = t := by
  have hpieces := (scanned_scan word p none s).text_ne_nil
  rw [hscan] at hpieces
  cases B with
  | nil => cases htext
  | cons piece B =>
    obtain ⟨d, l, hpiece⟩ := List.exists_cons_of_ne_nil (hpieces piece (by simp))
    rw [List.flatMap_cons, hpiece] at htext
    obtain ⟨rfl, -⟩ := List.cons.inj htext
    obtain rfl := keep_of_not_mem hc (by rw [hscan]; simp) (hpiece ▸ List.mem_cons_self)
    obtain ⟨-, rfl⟩ := List.cons.inj hpiece
    exact ⟨B, rfl, (List.cons.inj htext).2⟩

/-- A scan keeps what lies in no match. -/
lemma keeps_of_not_mem {l m r : List α} (hs : s = l ++ (m ++ r)) (hne : m ≠ [])
    (hno : ∀ c ∈ m, ∀ k ∈ p.found word s, c ∉ k) :
    ∃ A B, p.scan word none 0 s = A ++ (m.map .keep ++ B) ∧ A.flatMap Piece.text = l ∧ B.flatMap Piece.text = r := by
  have hkeep : ∀ (m r : List α) (A B : List (Piece α)), (∀ c ∈ m, ∀ k ∈ p.found word s, c ∉ k) →
      p.scan word none 0 s = A ++ B → B.flatMap Piece.text = m ++ r →
      ∃ B', B = m.map .keep ++ B' ∧ B'.flatMap Piece.text = r := by
    intro m
    induction m with
    | nil => exact fun r A B _ _ htext => ⟨B, rfl, htext⟩
    | cons c m ih =>
      intro r A B hno hscan htext
      obtain ⟨hc, hno⟩ := List.forall_mem_cons.1 hno
      obtain ⟨B, rfl, hB⟩ := head_of_not_mem hc hscan htext
      rw [← List.singleton_append, ← List.append_assoc] at hscan
      obtain ⟨B, rfl, hB'⟩ := ih r _ B hno hscan hB
      exact ⟨B, rfl, hB'⟩
  have htext : (p.scan word none 0 s).flatMap Piece.text = l ++ (m ++ r) := by
    rw [scan_text (Nat.zero_le _), List.drop_zero, hs]
  rcases text_append_cases htext with ⟨A, B, hscan, hA, hB⟩ | ⟨A, m₁, m₂, B, hscan, -, hne₂, -, hright⟩
  · obtain ⟨B, rfl, hB'⟩ := hkeep m r A B hno hscan hB
    exact ⟨A, B, hscan, hA, hB'⟩
  · obtain ⟨c, m, rfl⟩ := List.exists_cons_of_ne_nil hne
    obtain ⟨d, m₂, rfl⟩ := List.exists_cons_of_ne_nil hne₂
    obtain ⟨rfl, -⟩ := List.cons.inj hright
    exact absurd (by simp) (hno c List.mem_cons_self (m₁ ++ c :: m₂) (mem_found.2 (by rw [hscan]; simp)))

/-! ## Letters that are left -/

variable {passes : List (Pass α)} {c : α} {g : List α}

/-- A letter that belongs to no word is left at the beginning of a text. -/
lemma mem_leftovers_first (hpasses : ∀ pass ∈ passes, pass.pattern.bounded = true) (hc : word c = false) (g : List α) :
    c ∈ (leftovers word passes (c :: g)).flatten := by
  induction passes generalizing g with
  | nil => simp [leftovers]
  | cons pass passes ih =>
    rw [List.forall_mem_cons] at hpasses
    obtain ⟨ps, hscan⟩ : ∃ ps, pass.pattern.scan word none 0 (c :: g) = [] ++ ([c].map .keep ++ ps) := by
      rcases scan_cases word pass.pattern none (c :: g) with ⟨hnil, -⟩ | ⟨d, r, hs, -, hscan⟩ |
        ⟨m, r, hs, hne, -, hfits, -⟩
      · cases hnil
      · obtain ⟨rfl, rfl⟩ := List.cons.inj hs
        exact ⟨_, hscan⟩
      · obtain ⟨d, m, rfl⟩ := List.exists_cons_of_ne_nil hne
        obtain ⟨rfl, -⟩ := List.cons.inj hs
        have hedge := (hfits.2 hpasses.1).1
        simp [boundary, hc] at hedge
    obtain ⟨l, r, hmem, hl, -⟩ := exists_between hscan
    obtain rfl : l = [] := hl.elim id fun h => List.getLast?_eq_none_iff.1 h.2
    obtain ⟨f, hf, hcf⟩ := List.mem_flatten.1 (ih hpasses.2 r)
    exact List.mem_flatten.2 ⟨f, List.mem_flatMap.2 ⟨_, hmem, hf⟩, hcf⟩

/-- The last letter of a text is kept if no match ends with it, or if it belongs to no word. -/
lemma scan_keeps_last {q : Pattern α} (hq : q.bounded = true)
    (hends : ∀ l m, g = l ++ m → q.core.Matches (m ++ [c]) → boundary word l.getLast? (m ++ [c]).head? = true →
      word c = false) : ∃ ps, q.scan word none 0 (g ++ [c]) = ps ++ [.keep c] := by
  have htext : (q.scan word none 0 (g ++ [c])).flatMap Piece.text = g ++ [c] := scan_text (Nat.zero_le _)
  have hpieces := (scanned_scan word q none (g ++ [c])).text_ne_nil
  rcases List.eq_nil_or_concat' (q.scan word none 0 (g ++ [c])) with hnil | ⟨ps, piece, hscan⟩
  · rw [hnil] at htext
    simp at htext
  rw [hscan] at hpieces
  rw [hscan, List.flatMap_append, List.flatMap_singleton] at htext
  obtain ⟨m, d, hpiece⟩ := (List.eq_nil_or_concat' piece.text).resolve_left (hpieces piece (by simp))
  rw [hpiece, ← List.append_assoc] at htext
  obtain ⟨hg, hd⟩ := List.append_inj' htext rfl
  obtain rfl : d = c := by simpa using hd
  cases piece with
  | keep e =>
    have hlast := congrArg List.getLast? hpiece
    rw [List.getLast?_concat] at hlast
    obtain rfl := Option.some.inj (show some e = some d from hlast)
    exact ⟨ps, hscan⟩
  | hit k =>
    obtain rfl : k = m ++ [d] := hpiece
    have hfits := scan_hit (B := []) hscan
    have hword := hends _ m hg.symm hfits.1 (by simpa using (hfits.2 hq).1)
    have hedge := (hfits.2 hq).2
    rw [List.getLast?_concat] at hedge
    simp [boundary, hword] at hedge

/-- The last letter of a text is left if nothing ends with it, or if it belongs to no word. -/
lemma mem_leftovers_last (hpasses : ∀ pass ∈ passes, pass.pattern.bounded = true)
    (hends : ∀ pass ∈ passes, ∀ l m, g = l ++ m → pass.pattern.core.Matches (m ++ [c]) →
      (l = [] ∨ boundary word l.getLast? (m ++ [c]).head? = true) → word c = false) :
    c ∈ (leftovers word passes (g ++ [c])).flatten := by
  induction passes generalizing g with
  | nil => simp [leftovers]
  | cons pass passes ih =>
    rw [List.forall_mem_cons] at hpasses hends
    have htext : (pass.pattern.scan word none 0 (g ++ [c])).flatMap Piece.text = g ++ [c] := scan_text (Nat.zero_le _)
    obtain ⟨ps, hscan⟩ := scan_keeps_last hpasses.1 fun l m hg hm hedge => hends.1 l m hg hm (Or.inr hedge)
    obtain ⟨ps₀, l, rfl, hbefore⟩ := trail_split ps
    have hscan' : pass.pattern.scan word none 0 (g ++ [c]) = ps₀ ++ ((l ++ [c]).map .keep ++ []) := by
      rw [hscan]
      simp
    have hg : g = ps₀.flatMap Piece.text ++ l := by
      rw [hscan', List.append_nil, List.flatMap_append, keep_text, ← List.append_assoc] at htext
      exact (List.append_inj' htext rfl).1.symm
    have hleft : c ∈ (leftovers word passes (l ++ [c])).flatten := by
      refine ih hpasses.2 fun later hlater l' m hl hm hedge => ?_
      refine hends.2 later hlater (ps₀.flatMap Piece.text ++ l') m (by rw [hg, hl, List.append_assoc]) hm ?_
      rcases hbefore with rfl | ⟨ps, k, rfl⟩
      · exact hedge
      · right
        rcases List.eq_nil_or_concat' l' with rfl | ⟨l', d, rfl⟩
        · -- the last segment begins at a word boundary
          rw [hl, List.append_assoc, List.singleton_append] at hscan'
          have hfits := scan_hit hscan'
          have hopen := (hfits.2 hpasses.1).2
          rw [List.append_nil, keep_text] at hopen
          rwa [List.append_nil, last_text hfits.ne_nil]
        · rw [List.getLast?_append_of_ne_nil _ (by simp)]
          exact hedge.resolve_left (by simp)
    obtain ⟨f, hf, hcf⟩ := List.mem_flatten.1 hleft
    exact List.mem_flatten.2 ⟨f, List.mem_flatMap.2 ⟨_, mem_between hscan' hbefore (Or.inl rfl), hf⟩, hcf⟩

/-- A letter that belongs to no word is left beside a match. -/
lemma mem_leftovers_beside {pass : Pass α} (hpasses : ∀ pass ∈ passes, pass.pattern.bounded = true) (hs : s.Nodup)
    (hc : word c = false) {k : List α} {d : α} (hk : k ∈ pass.pattern.found word s) (hd : d ∈ k)
    (hno : ∀ k' ∈ pass.pattern.found word s, c ∉ k') (hbeside : Beside s c d) :
    c ∈ (leftovers word (pass :: passes) s).flatten := by
  have hkeep : ∀ piece ∈ pass.pattern.scan word none 0 s, c ∈ piece.text → piece = .keep c := by
    rintro (e | k') hpiece hmem
    · rw [List.mem_singleton.1 hmem]
    · exact absurd hmem (hno k' (mem_found.2 hpiece))
  rcases beside_hit hs hk (hno k hk) hd hbeside with ⟨A, piece, B, hscan, hlast, -⟩ | ⟨A, piece, B, hscan, hhead, -⟩
  · obtain rfl := hkeep piece (by rw [hscan]; simp) (List.mem_of_getLast? hlast)
    have hscan' : pass.pattern.scan word none 0 s = A ++ ([c].map .keep ++ .hit k :: B) := by rw [hscan]; rfl
    obtain ⟨l, r, hmem, -, hr⟩ := exists_between hscan'
    obtain rfl : r = [] := hr.elim id fun h => absurd ⟨k, B, rfl⟩ h.1
    rw [List.append_nil] at hmem
    obtain ⟨f, hf, hcf⟩ := List.mem_flatten.1 (mem_leftovers_last hpasses fun _ _ _ _ _ _ _ => hc)
    exact List.mem_flatten.2 ⟨f, List.mem_flatMap.2 ⟨_, hmem, hf⟩, hcf⟩
  · obtain rfl := hkeep piece (by rw [hscan]; simp) (List.mem_of_head? hhead)
    have hscan' : pass.pattern.scan word none 0 s = (A ++ [.hit k]) ++ ([c].map .keep ++ B) := by rw [hscan]; simp
    obtain ⟨l, r, hmem, hl, -⟩ := exists_between hscan'
    obtain rfl : l = [] := hl.elim id fun h => absurd ⟨A, k, rfl⟩ h.1
    obtain ⟨f, hf, hcf⟩ := List.mem_flatten.1 (mem_leftovers_first hpasses hc r)
    exact List.mem_flatten.2 ⟨f, List.mem_flatMap.2 ⟨_, hmem, hf⟩, hcf⟩

end Pattern

end Aimw.Lib
