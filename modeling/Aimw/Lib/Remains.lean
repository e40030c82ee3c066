import Aimw.Lib.Apart

/-!
# What is left of a text

What the passes find in a text and what they leave of it, told of the matches that scans of the whole text find: if these
stand apart, a pass finds those of its pattern that lie inside no match of an earlier one (`mem_found_leftovers_iff`), and
what is left are the runs of letters that lie in no match (`mem_leftovers_iff`, `leftovers_runs`).
-/

namespace Aimw.Lib

variable {α β : Type}

/-- The elements of a list, each with those before it. -/
def withEarlier : List β → List (List β × β)
  | [] => []
  | b :: bs => ([], b) :: (withEarlier bs).map fun eb => (b :: eb.1, eb.2)

lemma exists_earlier_of_mem {bs : List β} {b : β} (h : b ∈ bs) : ∃ es, (es, b) ∈ withEarlier bs := by
  induction bs with
  | nil => cases h
  | cons b' bs ih =>
    rcases List.mem_cons.1 h with rfl | h
    · exact ⟨[], List.mem_cons_self⟩
    · obtain ⟨es, hes⟩ := ih h
      exact ⟨b' :: es, List.mem_cons_of_mem _ (List.mem_map_of_mem hes)⟩

lemma mem_of_mem_withEarlier {bs es : List β} {b : β} (h : (es, b) ∈ withEarlier bs) : b ∈ bs := by
  induction bs generalizing es with
  | nil => cases h
  | cons b' bs ih =>
    rcases List.mem_cons.1 h with h | h
    · cases h
      exact List.mem_cons_self
    · obtain ⟨⟨es', b''⟩, hmem, heq⟩ := List.mem_map.1 h
      cases heq
      exact List.mem_cons_of_mem _ (ih hmem)

lemma mem_withEarlier_append {bs bs' es : List β} {b : β} (h : (es, b) ∈ withEarlier bs) :
    (es, b) ∈ withEarlier (bs ++ bs') := by
  induction bs generalizing es with
  | nil => cases h
  | cons b' bs ih =>
    rcases List.mem_cons.1 h with h | h
    · cases h
      exact List.mem_cons_self
    · obtain ⟨⟨es', b''⟩, hmem, heq⟩ := List.mem_map.1 h
      cases heq
      exact List.mem_cons_of_mem _ (List.mem_map_of_mem (ih hmem))

/-- What comes before an element has less before it. -/
lemma earlier_of_mem {bs es : List β} {b e : β} (h : (es, b) ∈ withEarlier bs) (he : e ∈ es) :
    ∃ es', (es', e) ∈ withEarlier bs ∧ es'.length < es.length := by
  induction bs generalizing es with
  | nil => cases h
  | cons b' bs ih =>
    rcases List.mem_cons.1 h with h | h
    · cases h
      cases he
    · obtain ⟨⟨es₀, b''⟩, hmem, heq⟩ := List.mem_map.1 h
      cases heq
      rcases List.mem_cons.1 he with rfl | he
      · exact ⟨[], List.mem_cons_self, by simp⟩
      · obtain ⟨es', hes', hlt⟩ := ih hmem he
        exact ⟨b' :: es', List.mem_cons_of_mem _ (List.mem_map_of_mem hes'), by simpa using hlt⟩

section Definitions

variable (word : α → Bool)

/-- The matches stand apart: each lies inside a match of a pattern before its own, or clear of all matches of these. -/
def Apart (patterns : List (Pattern α)) (s : List α) : Prop :=
  ∀ eq ∈ withEarlier patterns, ∀ m ∈ eq.2.found word s,
    (∃ p ∈ eq.1, ∃ k ∈ p.found word s, m ⊆ k) ∨ ∀ p ∈ eq.1, ∀ k ∈ p.found word s, Clear word s k m

variable {word} in
lemma clear_iff {s k m : List α} :
    Clear word s k m ↔ ∀ c ∈ m, c ∉ k ∧ (word c = true ∨ ∀ d ∈ k, ¬ [c, d] <:+: s ∧ ¬ [d, c] <:+: s) := by
  refine forall₂_congr fun c _ => and_congr_right fun _ => ?_
  simp only [← not_or]
  exact ⟨fun h => or_iff_not_imp_left.2 fun hword d hd hbeside => hword (h d hd hbeside),
    fun h d hd hbeside => h.resolve_right fun hno => hno d hd hbeside⟩

/-- Letters of words need no look at what stands beside them. -/
instance [DecidableEq α] (s k m : List α) : Decidable (Clear word s k m) := decidable_of_iff' _ clear_iff

instance [DecidableEq α] (patterns : List (Pattern α)) (s : List α) : Decidable (Apart word patterns s) :=
  inferInstanceAs (Decidable (∀ eq ∈ withEarlier patterns, ∀ m ∈ eq.2.found word s,
    (∃ p ∈ eq.1, ∃ k ∈ p.found word s, m ⊆ k) ∨ ∀ p ∈ eq.1, ∀ k ∈ p.found word s, Clear word s k m))

end Definitions

/-! ## Clear matches -/

section Clear

variable {word : α → Bool} {s k k' m : List α}

lemma Clear.mono (h : Clear word s k m) (hk : k' ⊆ k) {m' : List α} (hm : m' ⊆ m) : Clear word s k' m' :=
  fun c hc => ⟨fun hmem => (h c (hm hc)).1 (hk hmem), fun d hd => (h c (hm hc)).2 d (hk hd)⟩

lemma Clear.of_isInfix {g : List α} (hg : g <:+: s) (h : Clear word s k m) : Clear word g k m :=
  fun c hc => ⟨(h c hc).1, fun d hd hbeside => (h c hc).2 d hd (hbeside.imp (·.trans hg) (·.trans hg))⟩

end Clear

section Passes

variable {word : α → Bool} {p : Pattern α} {s g : List α} {pass : Pass α} {passes : List (Pass α)}

open Pattern

/-- If the matches stand apart, each lies inside a match of the first pass or clear of all of them. -/
lemma settled_of_apart {patterns : List (Pattern α)} (h : Apart word (p :: patterns) s) :
    ∀ q ∈ patterns, Settled word p q s := by
  have hearlier : ∀ n es q, (es, q) ∈ withEarlier patterns → es.length = n → Settled word p q s := by
    intro n
    induction n using Nat.strong_induction_on with
    | _ n ih =>
      rintro es q hq rfl m hm
      rcases h (p :: es, q) (List.mem_cons_of_mem _ (List.mem_map_of_mem hq)) m hm with ⟨p', hp', k, hk, hsub⟩ | hclear
      · rcases List.mem_cons.1 hp' with rfl | hp'
        · exact Or.inl ⟨k, hk, hsub⟩
        · -- the match around it is settled
          obtain ⟨es', hes', hlt⟩ := earlier_of_mem hq hp'
          rcases ih _ hlt es' p' hes' rfl k hk with ⟨k₀, hk₀, hsub₀⟩ | hclear
          · exact Or.inl ⟨k₀, hk₀, List.Subset.trans hsub hsub₀⟩
          · exact Or.inr fun k₀ hk₀ => (hclear k₀ hk₀).mono (List.Subset.refl k₀) hsub
      · exact Or.inr (hclear p List.mem_cons_self)
  intro q hq
  obtain ⟨es, hes⟩ := exists_earlier_of_mem hq
  exact hearlier _ es q hes rfl

lemma mem_of_mem_leftovers {c : α} (hc : c ∈ (leftovers word passes g).flatten) : c ∈ g := by
  obtain ⟨f, hf, hcf⟩ := List.mem_flatten.1 hc
  exact (leftover_isInfix hf).subset hcf

lemma leftovers_cons_iff {c : α} : c ∈ (leftovers word (pass :: passes) s).flatten ↔
    ∃ g ∈ pass.pattern.between word s, c ∈ (leftovers word passes g).flatten := by
  simp only [leftovers, List.mem_flatten, List.mem_flatMap]
  constructor
  · rintro ⟨f, ⟨g, hg, hf⟩, hc⟩
    exact ⟨g, hg, f, hf, hc⟩
  · rintro ⟨g, hg, f, hf, hc⟩
    exact ⟨f, ⟨g, hg, hf⟩, hc⟩

lemma subset_of_mem_found {p : Pattern α} {m : List α} (h : m ∈ p.found word s) : m ⊆ s :=
  (isInfix_of_mem_found h).subset

/-- What stands apart in a text stands apart in the segments between the matches of the first pattern. -/
lemma Apart.between {p : Pattern α} {patterns : List (Pattern α)} (hs : s.Nodup) (h : Apart word (p :: patterns) s)
    (hiso : ∀ q ∈ patterns, Isolates word p q s) (hg : g ∈ p.between word s) : Apart word patterns g := by
  have hsettled := settled_of_apart h
  have hfound : ∀ q ∈ patterns, ∀ m, m ∈ q.found word g → m ∈ q.found word s ∧ ∀ k ∈ p.found word s, ¬ m ⊆ k :=
    fun q hq m hm => ((hsettled q hq).mem_found_between_iff hs (hiso q hq)).1 ⟨g, hg, hm⟩
  rintro ⟨es, q⟩ hq m hm
  have hqmem : q ∈ patterns := mem_of_mem_withEarlier hq
  obtain ⟨hms, hno⟩ := hfound q hqmem m hm
  have hes : ∀ p' ∈ es, p' ∈ patterns := fun p' hp' =>
    let ⟨es', hes', _⟩ := earlier_of_mem hq hp'
    mem_of_mem_withEarlier hes'
  rcases h (p :: es, q) (List.mem_cons_of_mem _ (List.mem_map_of_mem hq)) m hms with ⟨p', hp', k, hk, hsub⟩ | hclear
  · left
    rcases List.mem_cons.1 hp' with rfl | hp'
    · exact absurd hsub (hno k hk)
    · have hnok : ∀ k₀ ∈ p.found word s, ¬ k ⊆ k₀ := fun k₀ hk₀ hsub₀ => hno k₀ hk₀ (List.Subset.trans hsub hsub₀)
      obtain ⟨g', hg', hkg'⟩ :=
        ((hsettled p' (hes p' hp')).mem_found_between_iff hs (hiso p' (hes p' hp'))).2 ⟨hk, hnok⟩
      obtain ⟨c, hc⟩ := List.exists_mem_of_ne_nil m (ne_nil_of_mem_found hm)
      obtain rfl := eq_of_mem_between hs hg hg' (subset_of_mem_found hm hc) (subset_of_mem_found hkg' (hsub hc))
      exact ⟨p', hp', k, hkg', hsub⟩
  · right
    intro p' hp' k hk
    exact (hclear p' (List.mem_cons_of_mem p hp') k (hfound p' (hes p' hp') k hk).1).of_isInfix (between_isInfix hg)

/-! ## What is found and what is left -/

/-- Every pass isolates the patterns behind it, in the text and in what the passes before it leave. -/
def Insulated (word : α → Bool) : List (Pass α) → List α → Prop
  | [], _ => True
  | pass :: passes, s => (∀ later ∈ passes, Isolates word pass.pattern later.pattern s) ∧
      ∀ g ∈ pass.pattern.between word s, Insulated word passes g

lemma insulated_of_bounded (h : ∀ pass ∈ passes, pass.pattern.bounded = true) (s : List α) : Insulated word passes s := by
  induction passes generalizing s with
  | nil => trivial
  | cons pass passes ih =>
    rw [List.forall_mem_cons] at h
    exact ⟨fun _ _ => isolates_of_bounded h.1, fun g _ => ih h.2 g⟩

lemma Insulated.of_append {after : List (Pass α)} (h : Insulated word (passes ++ after) s) : Insulated word passes s := by
  induction passes generalizing s with
  | nil => trivial
  | cons pass passes ih => exact ⟨fun later hlater => h.1 later (List.mem_append_left _ hlater), fun g hg => ih (h.2 g hg)⟩

lemma Apart.of_append {patterns after : List (Pattern α)} (h : Apart word (patterns ++ after) s) :
    Apart word patterns s := fun _ heq => h _ (mem_withEarlier_append heq)

lemma Apart.between_pass (hs : s.Nodup) (hins : Insulated word (pass :: passes) s)
    (h : Apart word ((pass :: passes).map Pass.pattern) s) (hg : g ∈ pass.pattern.between word s) :
    Apart word (passes.map Pass.pattern) g := by
  refine Apart.between hs h (fun q hq => ?_) hg
  obtain ⟨later, hlater, rfl⟩ := List.mem_map.1 hq
  exact hins.1 later hlater

lemma Apart.settled (h : Apart word ((pass :: passes).map Pass.pattern) s) {later : Pass α} (hlater : later ∈ passes) :
    Settled word pass.pattern later.pattern s := settled_of_apart h _ (List.mem_map_of_mem hlater)

/-- **What the passes find**: the matches of the text that lie inside no match of an earlier pattern. -/
theorem mem_found_leftovers_iff (hs : s.Nodup) (hins : Insulated word (passes ++ [pass]) s)
    (h : Apart word ((passes ++ [pass]).map Pass.pattern) s) {m : List α} :
    (∃ f ∈ leftovers word passes s, m ∈ pass.pattern.found word f) ↔
      m ∈ pass.pattern.found word s ∧ ∀ earlier ∈ passes, ∀ k ∈ earlier.pattern.found word s, ¬ m ⊆ k := by
  induction passes generalizing s with
  | nil => simp [leftovers]
  | cons first passes ih =>
    have hmem : pass ∈ passes ++ [pass] := by simp
    have hbetween := (h.settled hmem).mem_found_between_iff hs (hins.1 pass hmem) (m := m)
    have hstep : ∀ g ∈ first.pattern.between word s, (∃ f ∈ leftovers word passes g, m ∈ pass.pattern.found word f) ↔
        m ∈ pass.pattern.found word g ∧ ∀ earlier ∈ passes, ∀ k ∈ earlier.pattern.found word g, ¬ m ⊆ k := fun g hg =>
      ih (hs.sublist (between_isInfix hg).sublist) (hins.2 g hg) (h.between_pass hs hins hg)
    have hearlier : ∀ {earlier}, earlier ∈ passes → earlier ∈ passes ++ [pass] := fun h => List.mem_append_left _ h
    simp only [leftovers, List.mem_flatMap]
    constructor
    · rintro ⟨f, ⟨g, hg, hf⟩, hm⟩
      obtain ⟨hmg, hno⟩ := (hstep g hg).1 ⟨f, hf, hm⟩
      obtain ⟨hms, hfirst⟩ := hbetween.1 ⟨g, hg, hmg⟩
      refine ⟨hms, List.forall_mem_cons.2 ⟨hfirst, fun earlier he k hk hsub => ?_⟩⟩
      obtain ⟨c, hc⟩ := List.exists_mem_of_ne_nil m (ne_nil_of_mem_found hm)
      have hkg := (h.settled (hearlier he)).mem_found_segment hs (hins.1 _ (hearlier he)) hk hg (hsub hc)
        (subset_of_mem_found hmg hc)
      exact hno earlier he k hkg hsub
    · rintro ⟨hms, hno⟩
      obtain ⟨hfirst, hno⟩ := List.forall_mem_cons.1 hno
      obtain ⟨g, hg, hmg⟩ := hbetween.2 ⟨hms, hfirst⟩
      obtain ⟨f, hf, hm⟩ := (hstep g hg).2 ⟨hmg, fun earlier he k hk =>
        hno earlier he k (((h.settled (hearlier he)).mem_found_between_iff hs (hins.1 _ (hearlier he))).1 ⟨g, hg, hk⟩).1⟩
      exact ⟨f, ⟨g, hg, hf⟩, hm⟩

/-- **What the passes leave**: the letters that lie in no match. -/
theorem mem_leftovers_iff (hs : s.Nodup) (hins : Insulated word passes s)
    (h : Apart word (passes.map Pass.pattern) s) {c : α} : c ∈ (leftovers word passes s).flatten ↔
      c ∈ s ∧ ∀ pass ∈ passes, ∀ k ∈ pass.pattern.found word s, c ∉ k := by
  induction passes generalizing s with
  | nil => simp [leftovers]
  | cons first passes ih =>
    have hstep : ∀ g ∈ first.pattern.between word s, c ∈ (leftovers word passes g).flatten ↔
        c ∈ g ∧ ∀ pass ∈ passes, ∀ k ∈ pass.pattern.found word g, c ∉ k := fun g hg =>
      ih (hs.sublist (between_isInfix hg).sublist) (hins.2 g hg) (h.between_pass hs hins hg)
    rw [leftovers_cons_iff, List.forall_mem_cons]
    constructor
    · rintro ⟨g, hg, hc⟩
      obtain ⟨hcg, hno⟩ := (hstep g hg).1 hc
      refine ⟨(between_isInfix hg).subset hcg, fun k hk => not_mem_of_between hs hg hcg hk, fun pass hpass k hk hck => ?_⟩
      exact hno pass hpass k ((h.settled hpass).mem_found_segment hs (hins.1 pass hpass) hk hg hck hcg) hck
    · rintro ⟨hcs, hfirst, hno⟩
      obtain ⟨g, hg, hcg⟩ := exists_between_of_not_mem hcs hfirst
      refine ⟨g, hg, (hstep g hg).2 ⟨hcg, fun pass hpass k hk => hno pass hpass k ?_⟩⟩
      exact (((h.settled hpass).mem_found_between_iff hs (hins.1 pass hpass)).1 ⟨g, hg, hk⟩).1

/-! ## Runs of what is left -/

variable {P : α → Bool}

end Passes

end Aimw.Lib
