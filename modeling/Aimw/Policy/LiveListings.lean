import Aimw.Policy.Listings
import Aimw.Policy.Revocation

/-!
# Listings while the rules change

`DbBackedToolRegistry.get_permitted_tools` reads four tables for every tool and in no transaction, while other
connections commit.

* `visible_of_runs` — what `_is_tool_visible` has seen when it returns;
* `listing_respects_updates` — each manifest is one that a patchwork of the committed states lists.
-/

namespace Aimw.Policy

open Lib Coro

variable {context : ExecutionContext} {u : CharTable} {S : RuleStore} {X : Table} {t : String}
  {history history' : List RuleStore} {tr : List ((q : Select) × q.Answer)}

/-! ## What hides a tool -/

variable (context t) in
/-- The table alone hides the tool. -/
def Hides (S : RuleStore) : Table → Prop
  | .roles => hasRole context S.activeRoles = false
  | .tools => S.toolExists t = false
  | .toolVisibilityRoles => S.visibilityRoles t ≠ [] ∧ hasRole context (S.visibilityRoles t) = false
  | _ => False

/-- A tool is visible where no table hides it. -/
lemma isToolVisible_iff_not_hides : S.isToolVisible t context = true ↔ ∀ X, ¬ Hides context t S X := by
  rw [db_isToolVisible_iff]
  constructor
  · rintro ⟨hactive, htool, hvisible⟩ X hhides
    cases X with
    | roles => exact Bool.false_ne_true (hhides.symm.trans hactive)
    | tools => exact of_decide_eq_false hhides htool
    | toolVisibilityRoles =>
      obtain hnil | hrole := hvisible
      · exact hhides.1 hnil
      · exact Bool.false_ne_true (hhides.2.symm.trans hrole)
    | _ => exact hhides
  · intro hnone
    have hvisible := hnone .toolVisibilityRoles
    rw [Hides, not_and_or, not_not, Bool.not_eq_false] at hvisible
    exact ⟨(Bool.not_eq_false _).mp (hnone .roles), of_decide_eq_true ((Bool.not_eq_false _).mp (hnone .tools)), hvisible⟩

/-- What hides a tool in the state in which its table was read hides it in the patchwork. -/
lemma Hides.patchwork {s : Table → RuleStore} (h : Hides context t (s X) X) : Hides context t (patchwork s) X := by
  cases X <;> exact h

/-! ## One tool -/

/-- What is read after the table `X` was read later. -/
lemma ReadInOrder.later {s : Table → RuleStore} {n : ℕ} (h : ReadInOrder history s) (hhistory : history <+: history')
    (hS : history'[n]? = some S) (hn : history.length ≤ n + 1) (X : Table) :
    ReadInOrder history' fun Y => if Y.rank ≤ X.rank then s Y else S := by
  obtain ⟨time, hmono, htime⟩ := h
  have hlt : ∀ Y, time Y < history.length := fun Y => (List.getElem?_eq_some_iff.1 (htime Y)).1
  refine ⟨fun Y => if Y.rank ≤ X.rank then time Y else n, fun Y Z hYZ => ?_, fun Y => ?_⟩
  · have hY := hlt Y
    have hle := hmono Y Z hYZ
    dsimp only
    split_ifs <;> omega
  · dsimp only
    split_ifs
    · obtain ⟨rest, rfl⟩ := hhistory
      rw [List.getElem?_append_left (hlt Y)]
      exact htime Y
    · exact hS

/-- **What `_is_tool_visible` has seen**: a tool that is found visible is visible in a patchwork of the states, and a tool
that is not found so is hidden by a table of one of them. -/
theorem visible_of_runs {r : Except Exc Bool} (h : Runs (Reading u) history (isToolVisibleQuery context t) tr r history') :
    ∃ visible, r = .ok visible ∧
      (visible = true → ∃ s, ReadInOrder history' s ∧ (patchwork s).isToolVisible t context = true) ∧
      (visible = false → ∃ S ∈ history', ∃ X, Hides context t S X) := by
  have hfalse : ∀ {past : List RuleStore} {t' : List ((q : Select) × q.Answer)} {S : RuleStore} {X : Table},
      history'[past.length - 1]? = some S → Hides context t S X →
      Runs (Reading u) past (pure false : Query Bool) t' r history' → ∃ visible, r = .ok visible ∧
        (visible = true → ∃ s, ReadInOrder history' s ∧ (patchwork s).isToolVisible t context = true) ∧
        (visible = false → ∃ S ∈ history', ∃ X, Hides context t S X) := by
    intro past t' S X htime hhides hrun
    obtain ⟨-, rfl, -⟩ := runs_ret_iff.1 hrun
    exact ⟨false, rfl, by simp, fun _ => ⟨S, List.mem_of_getElem? htime, X, hhides⟩⟩
  unfold isToolVisibleQuery at h
  obtain ⟨c₁, S₁, t₁, hlast₁, h⟩ := runs_select h
  have time₁ := getElem?_of_select h hlast₁
  by_cases hactive : hasRole context (S₁.answer u .activeRoles) = false
  · rw [if_pos hactive] at h
    exact hfalse (X := .roles) time₁ hactive h
  rw [if_neg hactive] at h
  obtain ⟨c₂, S₂, t₂, hlast₂, h⟩ := runs_select h
  have time₂ := getElem?_of_select h hlast₂
  by_cases htool : S₂.answer u (.toolExists t) = false
  · rw [if_pos htool] at h
    exact hfalse (X := .tools) time₂ htool h
  rw [if_neg htool] at h
  obtain ⟨c₃, S₃, t₃, hlast₃, h⟩ := runs_select h
  have time₃ := getElem?_of_select h hlast₃
  have horder : ReadInOrder history' (Table.pick S₁ S₂ S₃ S₃ S₃ S₃ S₃) := by
    refine readInOrder_pick ?_ ?_ le_rfl le_rfl le_rfl le_rfl time₁ time₂ time₃ time₃ time₃ time₃ time₃
    all_goals exact Nat.sub_le_sub_right (List.prefix_append _ _).length_le 1
  have hseen : (S₃.answer u (.visibilityRoles t) = [] ∨ hasRole context (S₃.answer u (.visibilityRoles t)) = true) →
      (patchwork (Table.pick S₁ S₂ S₃ S₃ S₃ S₃ S₃)).isToolVisible t context = true := by
    intro hvisible
    rw [db_isToolVisible_iff]
    exact ⟨(Bool.not_eq_false _).mp hactive, of_decide_eq_true ((Bool.not_eq_false _).mp htool), hvisible⟩
  by_cases hnil : S₃.answer u (.visibilityRoles t) = []
  · rw [if_pos hnil] at h
    obtain ⟨-, rfl, -⟩ := runs_ret_iff.1 h
    exact ⟨true, rfl, fun _ => ⟨_, horder, hseen (Or.inl hnil)⟩, by simp⟩
  · rw [if_neg hnil] at h
    obtain ⟨-, rfl, -⟩ := runs_ret_iff.1 h
    refine ⟨_, rfl, fun hrole => ⟨_, horder, hseen (Or.inr hrole)⟩, fun hnone => ?_⟩
    exact ⟨S₃, List.mem_of_getElem? time₃, .toolVisibilityRoles, hnil, hnone⟩

/-! ## The loop -/

variable (context) in
/-- The manifest is one that the patchwork of some states, read in their order, lists. -/
def ListedBetween (history : List RuleStore) (m : ToolManifest) : Prop :=
  ∃ s, ReadInOrder history s ∧ (patchwork s).isToolVisible m.toolName context = true ∧
    m.functions = (patchwork s).allowedFunctions m.toolName

lemma manifests_of_runs {names : List String} {r : Except Exc (List ToolManifest)}
    (h : Runs (Reading u) history (manifestsQuery context names) tr r history') : ∃ manifests, r = .ok manifests ∧
      (manifests.map ToolManifest.toolName).Sublist names ∧ (∀ m ∈ manifests, ListedBetween context history' m) ∧
      ∀ t ∈ names, (∀ S ∈ history', ∀ X, ¬ Hides context t S X) →
        ∃ m ∈ manifests, m.toolName = t ∧ ∃ S ∈ history', m.functions = S.allowedFunctions t := by
  induction names generalizing history tr r with
  | nil =>
    obtain ⟨-, rfl, -⟩ := runs_ret_iff.1 h
    exact ⟨[], rfl, by simp, by simp, by simp⟩
  | cons t names ih =>
    rw [manifestsQuery] at h
    rcases runs_bind_iff.1 h with ⟨e, hvisible, -⟩ | ⟨visible, history₁, t₁, t₂, rfl, hvisible, h⟩
    · obtain ⟨visible, he, -⟩ := visible_of_runs hvisible
      cases he
    obtain ⟨_, hok, hseen, hhidden⟩ := visible_of_runs hvisible
    obtain rfl := Except.ok.inj hok
    cases visible with
    | false =>
      obtain ⟨manifests, rfl, hnames, hlisted, hall⟩ := ih h
      refine ⟨manifests, rfl, hnames.cons t, hlisted, fun t' ht' hnone => ?_⟩
      rcases List.mem_cons.1 ht' with rfl | ht'
      · obtain ⟨S, hS, X, hhides⟩ := hhidden rfl
        have hlater := history_prefix h
        exact absurd hhides (hnone S (hlater.subset hS) X)
      · exact hall t' ht' hnone
    | true =>
      obtain ⟨c, S, t₃, hlast, h⟩ := runs_select h
      have htime := getElem?_of_select h hlast
      rcases runs_bind_iff.1 h with ⟨e, hrest, -⟩ | ⟨manifests, history₂, t₄, t₅, rfl, hrest, hlast⟩
      · obtain ⟨_, he, -⟩ := ih hrest
        cases he
      obtain ⟨-, rfl, rfl⟩ := runs_ret_iff.1 hlast
      obtain ⟨_, hok, hnames, hlisted, hall⟩ := ih hrest
      obtain rfl := Except.ok.inj hok
      have hS : S ∈ history' := List.mem_of_getElem? htime
      refine ⟨_, rfl, hnames.cons_cons t, List.forall_mem_cons.2 ⟨?_, hlisted⟩, fun t' ht' hnone => ?_⟩
      · obtain ⟨s, horder, hs⟩ := hseen rfl
        have hlater := history_prefix hrest
        refine ⟨_, horder.later ((List.prefix_append _ c).trans hlater) htime ?_ .toolVisibilityRoles, hs, rfl⟩
        rw [List.length_append]
        omega
      · rcases List.mem_cons.1 ht' with rfl | ht'
        · exact ⟨_, List.mem_cons_self, rfl, S, hS, rfl⟩
        · obtain ⟨m, hm, hfound⟩ := hall t' ht' hnone
          exact ⟨m, List.mem_cons_of_mem _ hm, hfound⟩

/-- **A listing while others commit** names no tool twice, and each manifest is one that a patchwork of the committed
states lists.  A tool that one table hides in all of the states is not listed; a tool that no table hides in any of them
is listed, with the functions that it has in one of them. -/
theorem listing_respects_updates {r : Except Exc (List ToolManifest)}
    (h : Runs (Reading u) history (getPermittedToolsQuery context) tr r history') : ∃ manifests, r = .ok manifests ∧
      (manifests.map ToolManifest.toolName).Nodup ∧ (∀ m ∈ manifests, ListedBetween context history' m) ∧ ∀ t,
        (∀ X, (∀ S ∈ history', Hides context t S X) → ∀ m ∈ manifests, m.toolName ≠ t) ∧
        ((∀ S ∈ history', ∀ X, ¬ Hides context t S X) →
          ∃ m ∈ manifests, m.toolName = t ∧ ∃ S ∈ history', m.functions = S.allowedFunctions t) := by
  obtain ⟨c, S, t₁, hlast, h⟩ := runs_select h
  have hS : S ∈ history' := List.mem_of_getElem? (getElem?_of_select h hlast)
  obtain ⟨manifests, rfl, hnames, hlisted, hall⟩ := manifests_of_runs h
  refine ⟨manifests, rfl, hnames.nodup S.tools_key, hlisted, fun t => ⟨?_, fun hnone => ?_⟩⟩
  · rintro X hhides m hm rfl
    obtain ⟨s, ⟨time, -, htime⟩, hvisible, -⟩ := hlisted m hm
    exact isToolVisible_iff_not_hides.1 hvisible X (hhides (s X) (List.mem_of_getElem? (htime X))).patchwork
  · exact hall t (of_decide_eq_true ((Bool.not_eq_false _).mp (hnone S hS .tools))) hnone

/-- A commit falls between the reads of `tool_visibility_roles` and of `tool_functions`. -/
theorem listing_respects_updates_reindex : ∃ tr r, Runs (Reading CharTable.ascii) [seedExample]
    (getPermittedToolsQuery executor) tr r [seedExample, reindexAdded] ∧ ∃ manifests, r = .ok manifests ∧
      (∀ m ∈ manifests, m.toolName ≠ "deploy_tool") ∧
      ∃ m ∈ manifests, m.toolName = "search_tool" ∧ "query" ∈ m.functions := by
  have hread : ∀ q, Reading .ascii [seedExample] q (seedExample.answer .ascii q) [seedExample] :=
    fun q => ⟨[], seedExample, by simp, rfl, rfl⟩
  have hcommit : Reading .ascii [seedExample] (.allowedFunctions "search_tool")
      (reindexAdded.allowedFunctions "search_tool") [seedExample, reindexAdded] := ⟨[reindexAdded], _, rfl, rfl, rfl⟩
  have hlast : [seedExample, reindexAdded].getLast? = some reindexAdded := rfl
  obtain ⟨tr, hrest⟩ := runs_of_eval (u := .ascii) hlast
    (p := (manifestsQuery executor ["sql_tool", "deploy_tool"]).bind fun manifests =>
      .ret (⟨"search_tool", reindexAdded.allowedFunctions "search_tool"⟩ :: manifests)) rfl
  have hrun : Runs (Reading CharTable.ascii) [seedExample] (getPermittedToolsQuery executor) _ _ _ :=
    .call (hread .toolNames) (.call (hread .activeRoles) (.call (hread (.toolExists "search_tool"))
      (.call (hread (.visibilityRoles "search_tool")) (.call hcommit hrest))))
  obtain ⟨manifests, hr, -, -, hall⟩ := listing_respects_updates hrun
  refine ⟨_, _, hrun, manifests, hr, (hall "deploy_tool").1 .toolVisibilityRoles ?_, ?_⟩
  · simp only [List.forall_mem_cons, List.not_mem_nil, false_implies, implies_true, and_true]
    exact ⟨⟨by decide, by decide⟩, by decide, by decide⟩
  · obtain ⟨m, hm, ht, S, hS, hf⟩ := (hall "search_tool").2 fun S hS => isToolVisible_iff_not_hides.1 (by
      rcases List.mem_cons.1 hS with rfl | hS
      · decide
      · obtain rfl := List.mem_singleton.1 hS
        decide)
    refine ⟨m, hm, ht, hf ▸ ?_⟩
    rcases List.mem_cons.1 hS with rfl | hS
    · decide
    · obtain rfl := List.mem_singleton.1 hS
      decide

end Aimw.Policy
