import Aimw.Lib.Remains

/-!
# When nothing of a match is left

`NoneLeft` says that the passes leave no letter of a match that a scan of the whole text finds, whatever the passes
before it have made of the text; if numbers of different patterns meet as `Firm` says, that is so iff the matches stand
apart.

* `noneLeft_cons_iff` — one pass in front of others;
* `noneLeft_iff_apart` — passes whose patterns all ask for word boundaries.
-/

namespace Aimw.Lib

variable {α β : Type}

/-- Nothing is left of the matches that are found in the whole text. -/
def NoneLeft (word : α → Bool) (passes : List (Pass α)) (s : List α) : Prop :=
  ∀ pass ∈ passes, ∀ m ∈ pass.pattern.found word s, ∀ c ∈ m, c ∉ (leftovers word passes s).flatten

namespace Pattern

variable {word : α → Bool} {p q : Pattern α} {s k k' m : List α}

/-- Letters side by side that lie in no match lie in one segment. -/
lemma exists_between_of_beside {c d : α} (h : Beside s c d) (hc : ∀ k ∈ p.found word s, c ∉ k)
    (hd : ∀ k ∈ p.found word s, d ∉ k) : ∃ g ∈ p.between word s, Beside g c d := by
  have hpair : ∀ a b, [a, b] <:+: s → (∀ k ∈ p.found word s, a ∉ k) → (∀ k ∈ p.found word s, b ∉ k) →
      ∃ g ∈ p.between word s, [a, b] <:+: g := by
    rintro a b ⟨l, r, hs⟩ ha hb
    rw [List.append_assoc] at hs
    obtain ⟨A, B, hscan, -, -⟩ := keeps_of_not_mem hs.symm (List.cons_ne_nil a [b]) (by simpa using ⟨ha, hb⟩)
    obtain ⟨l', r', hmem, -⟩ := exists_between hscan
    exact ⟨_, hmem, l', r', rfl⟩
  rcases h with h | h
  · obtain ⟨g, hg, hin⟩ := hpair c d h hc hd
    exact ⟨g, hg, Or.inl hin⟩
  · obtain ⟨g, hg, hin⟩ := hpair d c h hd hc
    exact ⟨g, hg, Or.inr hin⟩

/-! ## One pass in front of others -/

/-- A match of `q` that goes beyond a match of the first pass leaves a letter behind. -/
def Tears (word : α → Bool) (pass : Pass α) (passes : List (Pass α)) (q : Pattern α) (s : List α) : Prop :=
  ∀ m ∈ q.found word s, ∀ k ∈ pass.pattern.found word s, ∀ c ∈ m, c ∉ k → ∀ d ∈ m, d ∈ k → Beside s c d →
    c ∈ (leftovers word (pass :: passes) s).flatten

/-- Somewhere in a list, an element with a property stands beside one without it. -/
lemma exists_beside {P : α → Prop} {l : List α} (hpos : ∃ a ∈ l, P a) (hneg : ∃ a ∈ l, ¬ P a) :
    ∃ c ∈ l, ∃ d ∈ l, ¬ P c ∧ P d ∧ Beside l c d := by
  induction l with
  | nil =>
    obtain ⟨a, ha, -⟩ := hpos
    cases ha
  | cons a l ih =>
    cases l with
    | nil =>
      obtain ⟨b, hb, hPb⟩ := hpos
      obtain ⟨c, hc, hPc⟩ := hneg
      rw [List.mem_singleton.1 hb] at hPb
      rw [List.mem_singleton.1 hc] at hPc
      exact absurd hPb hPc
    | cons b l =>
      have hpair : [a, b] <:+: a :: b :: l := ⟨[], l, rfl⟩
      by_cases hab : P a ↔ P b
      · have hin : b :: l <:+: a :: b :: l := (List.suffix_cons a _).isInfix
        have hrest : ∀ Q : α → Prop, (Q a ↔ Q b) → (∃ e ∈ a :: b :: l, Q e) → ∃ e ∈ b :: l, Q e := by
          rintro Q hQ ⟨e, he, hQe⟩
          rcases List.mem_cons.1 he with rfl | he
          · exact ⟨b, List.mem_cons_self, hQ.1 hQe⟩
          · exact ⟨e, he, hQe⟩
        obtain ⟨c, hc, d, hd, hPc, hPd, hbeside⟩ := ih (hrest P hab hpos) (hrest (¬ P ·) (not_congr hab) hneg)
        exact ⟨c, List.mem_cons_of_mem _ hc, d, List.mem_cons_of_mem _ hd, hPc, hPd,
          hbeside.imp (·.trans hin) (·.trans hin)⟩
      · by_cases ha : P a
        · have hb : ¬ P b := fun hb => hab (iff_of_true ha hb)
          exact ⟨b, by simp, a, by simp, hb, ha, Or.inr hpair⟩
        · have hb : P b := by
            by_contra hb
            exact hab (iff_of_false ha hb)
          exact ⟨a, by simp, b, by simp, ha, hb, Or.inl hpair⟩

/-- If nothing is left of a match, it lies inside a match of the first pass or clear of all of them. -/
lemma settled_of_noneLeft {pass : Pass α} {passes : List (Pass α)}
    (hpasses : ∀ pass ∈ passes, pass.pattern.bounded = true) (hs : s.Nodup) (htears : Tears word pass passes q s)
    (h : ∀ m ∈ q.found word s, ∀ c ∈ m, c ∉ (leftovers word (pass :: passes) s).flatten) :
    Settled word pass.pattern q s := by
  intro m hm
  refine or_iff_not_imp_left.2 fun hinside => ?_
  push Not at hinside
  have hin : m <:+: s := isInfix_of_mem_found hm
  -- a match that goes beyond another one leaves a letter behind
  have hdisjoint : ∀ k ∈ pass.pattern.found word s, ∀ c ∈ m, c ∉ k := by
    intro k hk c hc hck
    obtain ⟨e, he, hek⟩ : ∃ e ∈ m, e ∉ k := by
      by_contra hall
      push Not at hall
      exact hinside k hk hall
    obtain ⟨c', hc', d, hd, hck', hdk, hbeside⟩ := exists_beside (P := (· ∈ k)) ⟨c, hc, hck⟩ ⟨e, he, hek⟩
    have hbeside' : Beside s c' d := hbeside.imp (·.trans hin) (·.trans hin)
    exact h m hm c' hc' (htears m hm k hk c' hc' hck' d hd hdk hbeside')
  intro k hk c hc
  refine ⟨hdisjoint k hk c hc, fun d hd hbeside => ?_⟩
  by_contra hword
  exact h m hm c hc (mem_leftovers_beside hpasses hs (Bool.eq_false_iff.2 hword) hk hd
    (fun k' hk' => hdisjoint k' hk' c hc) hbeside)

end Pattern

section Passes

variable {word : α → Bool} {s g : List α} {pass : Pass α} {passes : List (Pass α)}

open Pattern

/-- What stands apart in all segments stands apart in the text. -/
lemma apart_of_between {p : Pattern α} {patterns : List (Pattern α)} (hs : s.Nodup)
    (hsettled : ∀ q ∈ patterns, Settled word p q s) (hiso : ∀ q ∈ patterns, Isolates word p q s)
    (h : ∀ g ∈ p.between word s, Apart word patterns g) : Apart word (p :: patterns) s := by
  have hbetween : ∀ q ∈ patterns, ∀ m, (∃ g ∈ p.between word s, m ∈ q.found word g) ↔
      m ∈ q.found word s ∧ ∀ k ∈ p.found word s, ¬ m ⊆ k :=
    fun q hq _ => (hsettled q hq).mem_found_between_iff hs (hiso q hq)
  have hclear_not : ∀ m, m ≠ [] → (∀ k ∈ p.found word s, Clear word s k m) → ∀ k ∈ p.found word s, ¬ m ⊆ k := by
    intro m hm hclear k hk hsub
    obtain ⟨c, hc⟩ := List.exists_mem_of_ne_nil m hm
    exact (hclear k hk c hc).1 (hsub hc)
  rintro ⟨es, q⟩ hmem m hm
  rcases List.mem_cons.1 hmem with heq | hmem
  · cases heq
    exact Or.inr fun _ hp => absurd hp List.not_mem_nil
  obtain ⟨⟨es, q⟩, hq, heq⟩ := List.mem_map.1 hmem
  cases heq
  rcases hsettled q (mem_of_mem_withEarlier hq) m hm with ⟨k, hk, hsub⟩ | hclear
  · exact Or.inl ⟨p, List.mem_cons_self, k, hk, hsub⟩
  obtain ⟨g, hg, hmg⟩ := (hbetween q (mem_of_mem_withEarlier hq) m).2
    ⟨hm, hclear_not m (ne_nil_of_mem_found hm) hclear⟩
  have hes : ∀ p' ∈ es, p' ∈ patterns := fun p' hp' =>
    let ⟨_, hes', _⟩ := earlier_of_mem hq hp'
    mem_of_mem_withEarlier hes'
  rcases h g hg (es, q) hq m hmg with ⟨p', hp', k, hk, hsub⟩ | hclearg
  · exact Or.inl ⟨p', List.mem_cons_of_mem p hp', k, ((hbetween p' (hes p' hp') k).1 ⟨g, hg, hk⟩).1, hsub⟩
  right
  intro p' hp' k hk
  rcases List.mem_cons.1 hp' with rfl | hp'
  · exact hclear k hk
  rcases hsettled p' (hes p' hp') k hk with ⟨k₀, hk₀, hsub₀⟩ | hcleark
  · exact (hclear k₀ hk₀).mono hsub₀ (List.Subset.refl m)
  -- what stands side by side stands in one segment
  obtain ⟨g', hg', hkg'⟩ := (hbetween p' (hes p' hp') k).2 ⟨hk, hclear_not k (ne_nil_of_mem_found hk) hcleark⟩
  have hone : ∀ c ∈ m, ∀ d ∈ k, ∀ g'' ∈ p.between word s, c ∈ g'' → d ∈ g'' → g'' = g ∧ g' = g := by
    intro c hc d hd g'' hg'' hcg'' hdg''
    obtain rfl := eq_of_mem_between hs hg'' hg hcg'' (subset_of_mem_found hmg hc)
    exact ⟨rfl, eq_of_mem_between hs hg' hg'' (subset_of_mem_found hkg' hd) hdg''⟩
  intro c hc
  constructor
  · intro hck
    obtain ⟨-, rfl⟩ := hone c hc c hck g hg (subset_of_mem_found hmg hc) (subset_of_mem_found hmg hc)
    exact (hclearg p' hp' k hkg' c hc).1 hck
  · intro d hd hbeside
    obtain ⟨g'', hg'', hbeside''⟩ := exists_between_of_beside hbeside (fun k₀ hk₀ => (hclear k₀ hk₀ c hc).1)
      fun k₀ hk₀ => (hcleark k₀ hk₀ d hd).1
    have hmem : c ∈ g'' ∧ d ∈ g'' := by
      rcases hbeside'' with hin | hin
      · exact ⟨hin.subset (by simp), hin.subset (by simp)⟩
      · exact ⟨hin.subset (by simp), hin.subset (by simp)⟩
    obtain ⟨rfl, rfl⟩ := hone c hc d hd g'' hg'' hmem.1 hmem.2
    exact (hclearg p' hp' k hkg' c hc).2 d hd hbeside''

lemma noneLeft_of_apart (hs : s.Nodup) (hins : Insulated word passes s)
    (h : Apart word (passes.map Pass.pattern) s) : NoneLeft word passes s :=
  fun pass hpass m hm _ hc hleft => ((mem_leftovers_iff hs hins h).1 hleft).2 pass hpass m hm hc

/-- **One pass in front of others**: nothing is left of the matches iff they stand apart, if that is so of each segment
that the pass leaves. -/
theorem noneLeft_cons_iff (hs : s.Nodup) (hpasses : ∀ later ∈ passes, later.pattern.bounded = true)
    (hins : Insulated word (pass :: passes) s) (htears : ∀ later ∈ passes, Tears word pass passes later.pattern s)
    (ih : ∀ g ∈ pass.pattern.between word s, NoneLeft word passes g ↔ Apart word (passes.map Pass.pattern) g) :
    NoneLeft word (pass :: passes) s ↔ Apart word ((pass :: passes).map Pass.pattern) s := by
  refine ⟨fun h => ?_, noneLeft_of_apart hs hins⟩
  have hsettled : ∀ later ∈ passes, Settled word pass.pattern later.pattern s := fun later hlater =>
    settled_of_noneLeft hpasses hs (htears later hlater) (h later (List.mem_cons_of_mem pass hlater))
  refine apart_of_between hs (List.forall_mem_map.2 hsettled) (List.forall_mem_map.2 hins.1) fun g hg => (ih g hg).1 ?_
  intro later hlater m hm c hc hleft
  have hms := (((hsettled later hlater).mem_found_between_iff hs (hins.1 later hlater)).1 ⟨g, hg, hm⟩).1
  exact h later (List.mem_cons_of_mem pass hlater) m hms c hc (leftovers_cons_iff.2 ⟨g, hg, hleft⟩)
/-- An end of a match of `p` that belongs to no word is in no match of `q`. -/
def Firm (word : α → Bool) (p q : Pattern α) : Prop :=
  ∀ k, p.core.Matches k → ∀ d, k.head? = some d ∨ k.getLast? = some d → word d = false →
    ∀ m, q.core.Matches m → d ∉ m

lemma Firm.comap {f : β → α} {p q : Pattern α} (h : Firm word p q) : Firm (word ∘ f) (p.comap f) (q.comap f) := by
  intro k hk d hd hword m hm hmem
  refine h (k.map f) ((Regex.matches_comap f p.core k).1 hk) (f d) ?_ hword (m.map f)
    ((Regex.matches_comap f q.core m).1 hm) (List.mem_map_of_mem hmem)
  rw [List.head?_map, List.getLast?_map]
  exact hd.imp (fun h => by rw [h]; rfl) fun h => by rw [h]; rfl

/-- A match that goes beyond a match of a firm pattern goes on behind a word boundary, with a letter of no word. -/
lemma tears_of_firm {q : Pattern α} (hs : s.Nodup) (hbounded : pass.pattern.bounded = true)
    (hpasses : ∀ later ∈ passes, later.pattern.bounded = true) (hfirm : Firm word pass.pattern q) :
    Tears word pass passes q s := by
  intro m hm k hk c hc hck d hd hdk hbeside
  have hmatch : ∀ {p : Pattern α} {m : List α}, m ∈ p.found word s → p.core.Matches m := by
    intro p m hm
    obtain ⟨A, B, hscan⟩ := List.append_of_mem (mem_found.1 hm)
    exact (scan_hit hscan).1
  have hfirm' : ∀ k ∈ pass.pattern.found word s, ∀ e ∈ m, k.head? = some e ∨ k.getLast? = some e → word e = true := by
    intro k hk e he hend
    by_contra hword
    exact hfirm k (hmatch hk) e hend (Bool.eq_false_iff.2 hword) m (hmatch hm) he
  -- the two letters meet at an end of the match, where there is a word boundary
  have hborder : ∃ piece ∈ pass.pattern.scan word none 0 s, (piece.text.head? = some c ∨ piece.text.getLast? = some c) ∧
      word c = false := by
    rcases beside_hit hs hk hck hdk hbeside with ⟨A, piece, B, hscan, hlast, hhead⟩ | ⟨A, piece, B, hscan, hhead, hlast⟩
    · refine ⟨piece, by simp [hscan], Or.inr hlast, ?_⟩
      rw [← List.singleton_append, ← List.append_assoc] at hscan
      have hedge := ((scan_hit hscan).2 hbounded).1
      have hne : piece.text ≠ [] := fun h => by simp [h] at hlast
      rw [List.flatMap_append, List.flatMap_singleton, List.getLast?_append_of_ne_nil _ hne, hlast, Option.some_or,
        hhead] at hedge
      simpa [boundary, hfirm' k hk d hd (Or.inl hhead)] using hedge
    · refine ⟨piece, by rw [hscan]; simp, Or.inl hhead, ?_⟩
      have hedge := ((scan_hit hscan).2 hbounded).2
      have hne : piece.text ≠ [] := fun h => by simp [h] at hhead
      rw [List.flatMap_cons, List.head?_append_of_ne_nil _ hne, hhead, hlast] at hedge
      simpa [boundary, hfirm' k hk d hd (Or.inr hlast)] using hedge
  obtain ⟨piece, hpiece, hend, hword⟩ := hborder
  refine mem_leftovers_beside hpasses hs hword hk hdk (fun k' hk' hck' => ?_) hbeside
  cases piece with
  | hit k'' =>
    rw [hfirm' k'' (mem_found.2 hpiece) c hc hend] at hword
    cases hword
  | keep e =>
    obtain rfl : e = c := hend.elim (fun h => Option.some.inj h) fun h => Option.some.inj h
    obtain ⟨A, B, hscan⟩ := List.append_of_mem hpiece
    have hscan' : pass.pattern.scan word none 0 s = A ++ ([e].map .keep ++ B) := hscan
    exact not_mem_of_keep hs hscan' List.mem_cons_self hk' hck'

/-- **When nothing is left of any match**, if the patterns are firm and ask for word boundaries: iff the matches that are
found in the text stand apart. -/
theorem noneLeft_iff_apart (hs : s.Nodup) (hpasses : ∀ pass ∈ passes, pass.pattern.bounded = true)
    (hfirm : passes.Pairwise fun pass later => Firm word pass.pattern later.pattern) :
    NoneLeft word passes s ↔ Apart word (passes.map Pass.pattern) s := by
  induction passes generalizing s with
  | nil => exact iff_of_true (fun _ h => absurd h List.not_mem_nil) fun _ h => absurd h List.not_mem_nil
  | cons pass passes ih =>
    have hins : Insulated word (pass :: passes) s := insulated_of_bounded hpasses s
    rw [List.forall_mem_cons] at hpasses
    obtain ⟨hfirst, hfirm⟩ := List.pairwise_cons.1 hfirm
    refine noneLeft_cons_iff hs hpasses.2 hins
      (fun later hlater => tears_of_firm hs hpasses.1 hpasses.2 (hfirst later hlater)) fun g hg => ?_
    exact ih (hs.sublist (between_isInfix hg).sublist) hpasses.2 hfirm

end Passes

end Aimw.Lib
