import Aimw.Guardrails.Semantic
import Aimw.Lib.Edges

/-!
# Word order

`semantic_injection_score` looks at the set of tokens of a text only.

* `tokenize_laid` — the tokens of words between separators are the words in lower case;
* `Reworded` — words reordered, repeated, or in another case;
* `score_reworded` — all of these have one score and one label.
-/

namespace Aimw.Guardrails

open Lib Regex

/-! ## Words between separators -/

/-- A word of ASCII letters and digits. -/
def IsWord (w : String) : Prop := ∀ c ∈ w.toList, c.isAlphanum = true

/-- ASCII without letters and digits. -/
def IsSeparator (sep : String) : Prop := ∀ c ∈ sep.toList, c.toNat < 128 ∧ c.isAlphanum = false

instance (w : String) : Decidable (IsWord w) := List.decidableBAll _ w.toList

instance (sep : String) : Decidable (IsSeparator sep) := List.decidableBAll _ sep.toList

/-- The text of words, each with the separator behind it. -/
def assemble : List (String × String) → String
  | [] => ""
  | (w, sep) :: parts => w ++ sep ++ assemble parts

/-- Separators stand around the words, and none of those between two words is empty. -/
structure Laid (lead : String) (parts : List (String × String)) : Prop where
  lead : IsSeparator lead
  behind : ∀ part ∈ parts, IsSeparator part.2
  between : ∀ part ∈ parts.dropLast, part.2 ≠ ""

/-- The word in lower case. -/
def lowerWord (w : String) : String := String.ofList (w.toList.map Char.toLower)

/-- The words in lower case, as a set; an empty word is none. -/
def wordSet (ws : List String) : Finset String := (ws.map lowerWord).toFinset.erase ""

/-! ## Letters -/

lemma ascii_lower : ∀ n : Fin 128, if (Char.ofNat n).isAlphanum = true then
    lower (Char.ofNat n) = [(Char.ofNat n).toLower] ∧ isTokenChar (Char.ofNat n).toLower = true
  else lower (Char.ofNat n) = [Char.ofNat n] ∧ isTokenChar (Char.ofNat n) = false := by
  decide +kernel

lemma alphanum_ascii {c : Char} (h : c.isAlphanum = true) : c.toNat < 128 := by
  -- each range ends with a letter of ASCII
  have hbelow : ∀ l : Char, l.toNat < 128 → c.val ≤ l.val → c.toNat < 128 := fun l hl hc => lt_of_le_of_lt hc hl
  rcases Bool.or_eq_true_iff.1 h with halpha | hdigit
  · rcases Bool.or_eq_true_iff.1 halpha with hupper | hlower
    · exact hbelow 'Z' (by decide) (of_decide_eq_true hupper).2
    · exact hbelow 'z' (by decide) (of_decide_eq_true (Bool.and_eq_true_iff.1 hlower).2)
  · exact hbelow '9' (by decide) (of_decide_eq_true (Bool.and_eq_true_iff.1 hdigit).2)

lemma alphanum_lower {c : Char} (h : c.isAlphanum = true) :
    lower c = [c.toLower] ∧ isTokenChar c.toLower = true := by
  have hall := ascii_lower ⟨c.toNat, alphanum_ascii h⟩
  rwa [Char.ofNat_toNat, if_pos h] at hall

lemma separator_lower {c : Char} (hascii : c.toNat < 128) (h : c.isAlphanum = false) :
    lower c = [c] ∧ isTokenChar c = false := by
  have hall := ascii_lower ⟨c.toNat, hascii⟩
  rwa [Char.ofNat_toNat, if_neg (Bool.eq_false_iff.1 h)] at hall

lemma flatMap_lower_separator {sep : String} (h : IsSeparator sep) : sep.toList.flatMap lower = sep.toList := by
  rw [List.flatMap_congr fun c hc => (separator_lower (h c hc).1 (h c hc).2).1]
  exact List.flatMap_singleton' _

lemma flatMap_lower_word {w : String} (h : IsWord w) : w.toList.flatMap lower = w.toList.map Char.toLower := by
  rw [List.flatMap_congr fun c hc => (alphanum_lower (h c hc)).1]
  exact List.flatMap_pure_eq_map _ _

/-! ## Tokens -/

/-- The tokens of a text in the order in which they stand. -/
def tokenList (s : List Char) : List (List Char) := TOKEN_RE.found (fun _ => false) (s.flatMap lower)

lemma tokenize_eq (u : CharTable) (text : String) :
    tokenize u text = ((tokenList text.toList).map String.ofList).toFinset := by
  rw [tokenize, tokens, tokenList, Pattern.found_of_unbounded rfl fun _ => false]

lemma separator_barrier {sep : String} (h : IsSeparator sep) :
    ∀ b ∈ sep.toList, TOKEN_RE.Barrier (fun _ => false) b := by
  intro b hb
  refine ⟨rfl, fun m hm hmem => ?_⟩
  have hwithin : (plus isTokenChar).Within fun c => isTokenChar c = true := ⟨fun _ h => h, fun _ h => h⟩
  have htoken := hwithin.forall_mem hm b hmem
  rw [(separator_lower (h b hb).1 (h b hb).2).2] at htoken
  cases htoken

/-- A separator takes the tokens before it and behind it apart. -/
lemma tokenList_separator {sep : String} (h : IsSeparator sep) (f r : List Char) (hne : sep ≠ "" ∨ f = [] ∨ r = []) :
    tokenList (f ++ (sep.toList ++ r)) = tokenList f ++ tokenList r := by
  unfold tokenList
  rw [List.flatMap_append, List.flatMap_append, flatMap_lower_separator h]
  by_cases hempty : sep = ""
  · subst hempty
    rcases hne with hne | rfl | rfl
    · exact absurd rfl hne
    · rfl
    · simp only [List.flatMap_nil, List.append_nil, String.toList_empty]
      exact (List.append_nil _).symm
  · exact Pattern.found_barriers (separator_barrier h) (by simpa using hempty) _ _

/-- A word is one token, unless it is empty. -/
lemma tokenList_word {w : String} (h : IsWord w) :
    tokenList w.toList = if w = "" then [] else [w.toList.map Char.toLower] := by
  rw [tokenList, flatMap_lower_word h]
  split_ifs with hempty
  · subst hempty
    rfl
  · refine Pattern.found_plus rfl rfl ?_ (by simpa using hempty)
    intro c hc
    obtain ⟨d, hd, rfl⟩ := List.mem_map.1 hc
    exact (alphanum_lower (h d hd)).2

lemma tokenList_assemble {parts : List (String × String)} (hbehind : ∀ part ∈ parts, IsSeparator part.2)
    (hbetween : ∀ part ∈ parts.dropLast, part.2 ≠ "") :
    tokenList (assemble parts).toList = parts.flatMap fun part => tokenList part.1.toList := by
  induction parts with
  | nil => rfl
  | cons part parts ih =>
    obtain ⟨w, sep⟩ := part
    obtain ⟨hsep, hbehind⟩ := List.forall_mem_cons.1 hbehind
    have hgap : sep ≠ "" ∨ w.toList = [] ∨ (assemble parts).toList = [] := by
      cases parts with
      | nil => exact Or.inr (Or.inr rfl)
      | cons next parts => exact Or.inl (hbetween (w, sep) List.mem_cons_self)
    have hrest : ∀ part ∈ parts.dropLast, part.2 ≠ "" := by
      intro part hpart
      cases parts with
      | nil => cases hpart
      | cons next parts => exact hbetween part (List.mem_cons_of_mem _ hpart)
    rw [assemble, String.toList_append, String.toList_append, List.append_assoc,
      tokenList_separator hsep _ _ hgap, ih hbehind hrest, List.flatMap_cons]

/-- **The tokens of a text are its words in lower case.** -/
theorem tokenize_laid (u : CharTable) {lead : String} {parts : List (String × String)} (hlaid : Laid lead parts)
    (hwords : ∀ w ∈ parts.map Prod.fst, IsWord w) :
    tokenize u (lead ++ assemble parts) = wordSet (parts.map Prod.fst) := by
  have hlist : tokenList (lead ++ assemble parts).toList = parts.flatMap fun part => tokenList part.1.toList := by
    have hlead := tokenList_separator hlaid.lead [] (assemble parts).toList (Or.inr (Or.inl rfl))
    rw [String.toList_append, ← tokenList_assemble hlaid.behind hlaid.between]
    exact hlead
  have hempty : ∀ w, lowerWord w = "" ↔ w = "" := by
    intro w
    rw [lowerWord, String.ofList_eq_empty_iff, List.map_eq_nil_iff, String.toList_eq_nil_iff]
  ext t
  rw [wordSet, tokenize_eq, hlist, List.mem_toFinset, List.map_flatMap, List.mem_flatMap, Finset.mem_erase, List.mem_toFinset,
    List.map_map, List.mem_map]
  constructor
  · rintro ⟨part, hpart, ht⟩
    rw [tokenList_word (hwords _ (List.mem_map_of_mem hpart))] at ht
    split_ifs at ht with hw
    · cases ht
    · obtain rfl : t = lowerWord part.1 := List.mem_singleton.1 ht
      exact ⟨fun h => hw ((hempty _).1 h), part, hpart, rfl⟩
  · rintro ⟨hne, part, hpart, rfl⟩
    refine ⟨part, hpart, ?_⟩
    rw [tokenList_word (hwords _ (List.mem_map_of_mem hpart)), if_neg fun h => hne ((hempty _).2 h)]
    exact List.mem_singleton_self _

/-! ## Rewordings -/

/-- Words reordered, repeated, or written in another case. -/
inductive Reworded : List String → List String → Prop
  | refl (ws : List String) : Reworded ws ws
  | reorder {ws ws' : List String} : ws.Perm ws' → Reworded ws ws'
  | again {ws : List String} {w : String} : w ∈ ws → Reworded ws (w :: ws)
  | recase {w w' : String} (before after : List String) :
      w.toList.map Char.toLower = w'.toList.map Char.toLower → Reworded (before ++ w :: after) (before ++ w' :: after)
  | trans {ws ws' ws'' : List String} : Reworded ws ws' → Reworded ws' ws'' → Reworded ws ws''

lemma isAlphanum_of_toLower {c : Char} (h : c.toLower.isAlphanum = true) : c.isAlphanum = true := by
  unfold Char.toLower at h
  split_ifs at h with hc
  · have hupper : c.isUpper = true := decide_eq_true hc
    have halpha : c.isAlpha = true := Bool.or_eq_true_iff.2 (Or.inl hupper)
    exact Bool.or_eq_true_iff.2 (Or.inl halpha)
  · exact h

lemma isWord_recase {w w' : String} (h : w.toList.map Char.toLower = w'.toList.map Char.toLower) (hw : IsWord w) :
    IsWord w' := by
  intro c hc
  have hmem : c.toLower ∈ w.toList.map Char.toLower := h ▸ List.mem_map_of_mem hc
  obtain ⟨d, hd, heq⟩ := List.mem_map.1 hmem
  apply isAlphanum_of_toLower
  have htoken := (alphanum_lower (hw d hd)).2
  rw [heq] at htoken
  rcases Bool.or_eq_true_iff.1 htoken with hlower | hdigit
  · have halpha : c.toLower.isAlpha = true := Bool.or_eq_true_iff.2 (Or.inr hlower)
    exact Bool.or_eq_true_iff.2 (Or.inl halpha)
  · exact Bool.or_eq_true_iff.2 (Or.inr hdigit)

/-- A rewording has the same words, but for their case. -/
theorem Reworded.same {ws ws' : List String} (h : Reworded ws ws') (hws : ∀ w ∈ ws, IsWord w) :
    (∀ w ∈ ws', IsWord w) ∧ (ws'.map lowerWord).toFinset = (ws.map lowerWord).toFinset := by
  induction h with
  | refl ws => exact ⟨hws, rfl⟩
  | reorder hperm => exact ⟨fun w hw => hws w (hperm.mem_iff.2 hw), (List.toFinset_eq_of_perm _ _ (hperm.map _)).symm⟩
  | again hw =>
    refine ⟨List.forall_mem_cons.2 ⟨hws _ hw, hws⟩, ?_⟩
    rw [List.map_cons, List.toFinset_cons]
    exact Finset.insert_eq_self.2 (List.mem_toFinset.2 (List.mem_map_of_mem hw))
  | @recase w w' before after hcase =>
    have hlower : lowerWord w' = lowerWord w := congrArg String.ofList hcase.symm
    refine ⟨fun v hv => ?_, by rw [List.map_append, List.map_append, List.map_cons, List.map_cons, hlower]⟩
    rcases List.mem_append.1 hv with hv | hv
    · exact hws v (List.mem_append_left _ hv)
    · rcases List.mem_cons.1 hv with rfl | hv
      · exact isWord_recase hcase (hws w (by simp))
      · exact hws v (by simp [hv])
  | trans _ _ ih ih' =>
    obtain ⟨hwords, hsame⟩ := ih hws
    obtain ⟨hwords', hsame'⟩ := ih' hwords
    exact ⟨hwords', hsame'.trans hsame⟩

/-! ## Scores -/

lemma jaccard_nonneg (a b : Finset String) : 0 ≤ jaccard a b := by
  unfold jaccard
  split_ifs
  · exact le_rfl
  · positivity

lemma jaccard_le_one (a b : Finset String) : jaccard a b ≤ 1 := by
  unfold jaccard
  split_ifs
  · exact zero_le_one
  · refine div_le_one_of_le₀ ?_ (Nat.cast_nonneg _)
    exact Nat.cast_le.2 (Finset.card_le_card (Finset.inter_subset_union))

lemma jaccard_pos_iff {a b : Finset String} : 0 < jaccard a b ↔ ¬ Disjoint a b := by
  rw [Finset.disjoint_iff_inter_eq_empty]
  unfold jaccard
  split_ifs with hempty
  · refine iff_of_false (lt_irrefl 0) (not_not.2 ?_)
    rcases hempty with rfl | rfl
    · exact Finset.empty_inter b
    · exact Finset.inter_empty a
  · constructor
    · intro hpos hinter
      rw [hinter, Finset.card_empty, Nat.cast_zero, zero_div] at hpos
      exact lt_irrefl 0 hpos
    · intro hinter
      obtain ⟨t, ht⟩ := Finset.nonempty_iff_ne_empty.2 hinter
      refine div_pos (Nat.cast_pos.2 (Finset.card_pos.2 ⟨t, ht⟩)) (Nat.cast_pos.2 (Finset.card_pos.2 ⟨t, ?_⟩))
      exact Finset.inter_subset_union ht

/-- The best score and the best label so far: a score between 0 and 1, and no label without a score. -/
structure BestSoFar (best : ℚ × Option String) : Prop where
  nonneg : 0 ≤ best.1
  le_one : best.1 ≤ 1
  unlabelled : best.2 = none → best.1 = 0

lemma BestSoFar.better {tokens : Finset String} {best : ℚ × Option String} (h : BestSoFar best)
    (intent : String × Finset String) : BestSoFar (better tokens best intent) := by
  unfold Guardrails.better
  split_ifs
  · exact ⟨jaccard_nonneg _ _, jaccard_le_one _ _, fun hnone => by cases hnone⟩
  · exact h

lemma BestSoFar.foldl {tokens : Finset String} {best : ℚ × Option String} (h : BestSoFar best)
    (intents : List (String × Finset String)) : BestSoFar (intents.foldl (Guardrails.better tokens) best) := by
  induction intents generalizing best with
  | nil => exact h
  | cons intent intents ih => exact ih (h.better intent)

/-- A label is kept, and the first intent that shares a token gives one. -/
lemma BestSoFar.foldl_label {tokens : Finset String} {best : ℚ × Option String} (h : BestSoFar best)
    (intents : List (String × Finset String)) : (intents.foldl (Guardrails.better tokens) best).2 = none ↔
      best.2 = none ∧ ∀ intent ∈ intents, Disjoint tokens intent.2 := by
  induction intents generalizing best with
  | nil => simp
  | cons intent intents ih =>
    rw [List.foldl_cons, ih (h.better intent), List.forall_mem_cons]
    unfold Guardrails.better
    split_ifs with hbetter
    · refine iff_of_false (fun hnone => by cases hnone.1) fun ⟨_, hdisjoint, _⟩ => ?_
      exact jaccard_pos_iff.1 (h.nonneg.trans_lt hbetter) hdisjoint
    · refine and_congr_right fun hnone => (and_iff_right ?_).symm
      rw [h.unlabelled hnone, gt_iff_lt, jaccard_pos_iff, not_not] at hbetter
      exact hbetter

lemma bestSoFar_start : BestSoFar (0, none) := ⟨le_rfl, zero_le_one, fun _ => rfl⟩

/-- An intent that shares a token with a text has a word of the text. -/
lemma disjoint_wordSet_iff {ws : List String} {intent : String × Finset String} (hintent : intent ∈ INJECTION_INTENTS) :
    Disjoint (wordSet ws) intent.2 ↔ ∀ w ∈ ws, lowerWord w ∉ intent.2 := by
  have hnonempty : ∀ intent ∈ INJECTION_INTENTS, "" ∉ intent.2 := by decide
  rw [Finset.disjoint_left]
  constructor
  · intro h w hw hmem
    refine h (Finset.mem_erase.2 ⟨?_, List.mem_toFinset.2 (List.mem_map_of_mem hw)⟩) hmem
    rintro hempty
    exact hnonempty intent hintent (hempty ▸ hmem)
  · intro h t ht
    obtain ⟨w, hw, rfl⟩ := List.mem_map.1 (List.mem_toFinset.1 (Finset.mem_of_mem_erase ht))
    exact h w hw

/-- **The semantic check sees through word order**: words reordered, repeated or written in another case, between any
separators, have one score and one label, those of the set of the words in lower case; there is a label iff an intent
has one of these words; and the threshold test goes the same way. -/
theorem score_reworded (u : CharTable) {lead lead' : String} {parts parts' : List (String × String)}
    (hwords : ∀ w ∈ parts.map Prod.fst, IsWord w) (hlaid : Laid lead parts) (hlaid' : Laid lead' parts')
    (hreworded : Reworded (parts.map Prod.fst) (parts'.map Prod.fst)) :
    (tokenize u (lead ++ assemble parts) = wordSet (parts.map Prod.fst) ∧
      tokenize u (lead' ++ assemble parts') = wordSet (parts.map Prod.fst)) ∧
      (semanticInjectionScore u (lead ++ assemble parts) =
          INJECTION_INTENTS.foldl (better (wordSet (parts.map Prod.fst))) (0, none) ∧
        semanticInjectionScore u (lead ++ assemble parts) = semanticInjectionScore u (lead' ++ assemble parts')) ∧
      (0 ≤ (semanticInjectionScore u (lead ++ assemble parts)).1 ∧
        (semanticInjectionScore u (lead ++ assemble parts)).1 ≤ 1) ∧
      ((semanticInjectionScore u (lead ++ assemble parts)).2 = none ↔
        ∀ intent ∈ INJECTION_INTENTS, ∀ w ∈ parts.map Prod.fst, lowerWord w ∉ intent.2) ∧
      ∀ (guardrail : SemanticGuardrail) (context : ExecutionContext),
        (guardrail.similarityThreshold ≤ (semanticInjectionScore u (lead ++ assemble parts)).1 ∧
          ∃ e, guardrail.inspectInput u (lead ++ assemble parts) context = .error e ∧
            guardrail.inspectInput u (lead' ++ assemble parts') context = .error e) ∨
        ((semanticInjectionScore u (lead ++ assemble parts)).1 < guardrail.similarityThreshold ∧
          guardrail.inspectInput u (lead ++ assemble parts) context =
            guardrail.inner.inspectInput (lead ++ assemble parts) context ∧
          guardrail.inspectInput u (lead' ++ assemble parts') context =
            guardrail.inner.inspectInput (lead' ++ assemble parts') context) := by
  obtain ⟨hwords', hsame⟩ := hreworded.same hwords
  have htokens := tokenize_laid u hlaid hwords
  have htokens' : tokenize u (lead' ++ assemble parts') = wordSet (parts.map Prod.fst) := by
    rw [tokenize_laid u hlaid' hwords', wordSet, wordSet, hsame]
  have hbest : BestSoFar (semanticInjectionScore u (lead ++ assemble parts)) := bestSoFar_start.foldl INJECTION_INTENTS
  have hwordScore : semanticInjectionScore u (lead ++ assemble parts) =
      INJECTION_INTENTS.foldl (better (wordSet (parts.map Prod.fst))) (0, none) := by
    rw [semanticInjectionScore, htokens]
  have hscore : semanticInjectionScore u (lead ++ assemble parts) =
      semanticInjectionScore u (lead' ++ assemble parts') := by
    rw [hwordScore, semanticInjectionScore, htokens']
  refine ⟨⟨htokens, htokens'⟩, ⟨hwordScore, hscore⟩, ⟨hbest.nonneg, hbest.le_one⟩, ?_, fun guardrail context => ?_⟩
  · refine (bestSoFar_start.foldl_label INJECTION_INTENTS).trans ((and_iff_right rfl).trans ?_)
    rw [htokens]
    exact forall₂_congr fun intent hintent => disjoint_wordSet_iff hintent
  · unfold SemanticGuardrail.inspectInput
    rw [← hscore]
    generalize semanticInjectionScore u (lead ++ assemble parts) = best
    obtain ⟨score, label⟩ := best
    dsimp only
    by_cases hreached : guardrail.similarityThreshold ≤ score
    · refine Or.inl ⟨hreached, ?_⟩
      rw [if_pos hreached, if_pos hreached]
      exact ⟨_, rfl, rfl⟩
    · rw [if_neg hreached, if_neg hreached]
      exact Or.inr ⟨not_le.1 hreached, rfl, rfl⟩

theorem score_reworded_paraphrase :
    semanticInjectionScore .ascii "ignore previous" = (2 / 5, some "override_instructions") ∧
      semanticInjectionScore .ascii "> PREVIOUS, previous: ignore!" = (2 / 5, some "override_instructions") := by
  have hreworded : Reworded ["ignore", "previous"] ["PREVIOUS", "previous", "ignore"] := by
    have hreorder : Reworded ["ignore", "previous"] ["previous", "ignore"] := .reorder (.swap _ _ [])
    have hagain : Reworded ["previous", "ignore"] ["previous", "previous", "ignore"] := .again List.mem_cons_self
    have hcase : Reworded ["previous", "previous", "ignore"] ["PREVIOUS", "previous", "ignore"] :=
      .recase [] ["previous", "ignore"] (by decide)
    exact .trans hreorder (.trans hagain hcase)
  have hlaid : Laid "" [("ignore", " "), ("previous", "")] := ⟨by decide, by decide, by decide⟩
  have hlaid' : Laid "> " [("PREVIOUS", ", "), ("previous", ": "), ("ignore", "!")] :=
    ⟨by decide, by decide, by decide⟩
  obtain ⟨-, ⟨hwords, hsame⟩, -⟩ := score_reworded .ascii (by decide) hlaid hlaid' hreworded
  have hscore : semanticInjectionScore .ascii "ignore previous" = (2 / 5, some "override_instructions") :=
    hwords.trans (by decide +kernel)
  exact ⟨hscore, hsame.symm.trans hscore⟩

end Aimw.Guardrails
