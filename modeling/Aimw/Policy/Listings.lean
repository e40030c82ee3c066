import Aimw.Policy.Registry

/-!
# The listings of a migrated ruleset

What `DbBackedToolRegistry` lists from the tables that hold the rules of `R`, beside what `StaticToolRegistry` lists
from `R` (`migration_preserves_listings`).  The rows may come in any order; gates and patterns play no part.
-/

namespace Aimw.Policy

open Lib

variable {rt : Runtime} {context : ExecutionContext} {R : PolicyRuleSet} {S : RuleStore}

/-- Every tool of the one listing is in the other, with the same functions. -/
def Covers (manifests' manifests : List ToolManifest) : Prop :=
  ∀ m ∈ manifests, ∃ m' ∈ manifests', m'.toolName = m.toolName ∧ ∀ f, f ∈ m'.functions ↔ f ∈ m.functions

/-! ## One tool -/

lemma mem_visibilityRoles_iff (h : SameRules R S) {t : String} {rule : ToolRule} (hrule : R.ruleOf t = some rule)
    {r : String} : r ∈ S.visibilityRoles t ↔ r ∈ rule.visibleToRoles := by
  rw [← h.visibility t rule hrule]
  constructor
  · intro hr
    obtain ⟨row, hin, rfl⟩ := List.mem_map.1 hr
    obtain ⟨hrow, ht⟩ := List.mem_filter.1 hin
    obtain rfl : row.toolName = t := of_decide_eq_true ht
    exact hrow
  · intro hrow
    exact List.mem_map.2 ⟨_, List.mem_filter.2 ⟨hrow, decide_eq_true rfl⟩, rfl⟩

lemma mem_allowedFunctions_iff (h : SameRules R S) {t : String} {rule : ToolRule} (hrule : R.ruleOf t = some rule)
    {f : String} : f ∈ S.allowedFunctions t ↔ f ∈ rule.allowedFunctions := by
  rw [← h.functions t rule hrule]
  constructor
  · intro hf
    obtain ⟨row, hrow, rfl⟩ := List.mem_map.1 hf
    obtain ⟨hrow, ht⟩ := List.mem_filter.1 hrow
    exact ⟨row, hrow, of_decide_eq_true ht, rfl⟩
  · rintro ⟨row, hrow, rfl, rfl⟩
    exact List.mem_map.2 ⟨row, List.mem_filter.2 ⟨hrow, decide_eq_true rfl⟩, rfl⟩

/-- `_is_tool_visible` of the database registry. -/
lemma db_isToolVisible_iff {t : String} : S.isToolVisible t context = true ↔
    hasRole context S.activeRoles = true ∧ t ∈ S.tools ∧
      (S.visibilityRoles t = [] ∨ hasRole context (S.visibilityRoles t) = true) := by
  rw [isToolVisible_iff plainRuntime, db_sees_iff, RuleStore.toolExists, decide_eq_true_iff]

/-- Behind the global layer, a tool with rules is seen in both tiers or in none. -/
lemma visible_agree (h : SameRules R S) (hactive : hasRole context S.activeRoles = true) {t : String} {rule : ToolRule}
    (hrule : R.ruleOf t = some rule) : S.isToolVisible t context = R.isToolVisible t context := by
  have hroles : {r | r ∈ S.visibilityRoles t} = {r | r ∈ rule.visibleToRoles} := by
    ext r
    exact mem_visibilityRoles_iff h hrule
  have hsees : (S.visibilityRoles t = [] ∨ hasRole context (S.visibilityRoles t) = true) ↔
      (rule.visibleToRoles = [] ∨ hasRole context rule.visibleToRoles = true) := by
    rw [hasRole_iff, hasRole_iff, ← setOf_mem_eq_empty_iff, ← setOf_mem_eq_empty_iff, hroles]
  rw [Bool.eq_iff_iff, db_isToolVisible_iff, static_isToolVisible_iff hrule, hsees]
  constructor
  · rintro ⟨-, -, h⟩
    exact h
  · intro h'
    exact ⟨hactive, (known_agree h t).1 ⟨rule, hrule⟩, h'⟩

/-! ## The listings -/

/-- The manifests of the static registry, one for each entry of `allowed_tools`. -/
lemma mem_getPermittedTools_iff {m : ToolManifest} : m ∈ R.getPermittedTools context ↔
    ∃ rule, R.ruleOf m.toolName = some rule ∧ R.isToolVisible m.toolName context = true ∧
      m.functions = rule.allowedFunctions := by
  constructor
  · intro hm
    obtain ⟨t, ht, hentry⟩ := List.mem_filterMap.1 hm
    cases hget : R.tools.get? t with
    | none => simp [hget] at hentry
    | some rule =>
      rw [hget] at hentry
      dsimp only at hentry
      split_ifs at hentry with hvisible
      obtain rfl := Option.some.inj hentry
      exact ⟨rule, (if_pos ht).trans hget, hvisible, rfl⟩
  · rintro ⟨rule, hrule, hvisible, hf⟩
    unfold PolicyRuleSet.ruleOf at hrule
    split_ifs at hrule with ht
    refine List.mem_filterMap.2 ⟨m.toolName, ht, ?_⟩
    rw [hrule]
    dsimp only
    rw [if_pos hvisible, ← hf]

lemma mem_dbPermittedTools_iff {m : ToolManifest} :
    m ∈ S.tools.filterMap (fun t => if S.isToolVisible t context then some ⟨t, S.allowedFunctions t⟩ else none) ↔
      m.toolName ∈ S.tools ∧ S.isToolVisible m.toolName context = true ∧
        m.functions = S.allowedFunctions m.toolName := by
  constructor
  · intro hm
    obtain ⟨t, ht, hentry⟩ := List.mem_filterMap.1 hm
    split_ifs at hentry with hvisible
    obtain rfl := Option.some.inj hentry
    exact ⟨ht, hvisible, rfl⟩
  · rintro ⟨ht, hvisible, hf⟩
    refine List.mem_filterMap.2 ⟨m.toolName, ht, ?_⟩
    rw [if_pos hvisible, ← hf]

/-- The database registry names no tool twice. -/
lemma nodup_dbPermittedTools :
    ((S.tools.filterMap fun t => if S.isToolVisible t context then some (⟨t, S.allowedFunctions t⟩ : ToolManifest)
      else none).map ToolManifest.toolName).Nodup := by
  rw [List.map_filterMap]
  refine S.tools_key.filterMap fun t t' u hu hu' => ?_
  split_ifs at hu hu' <;> simp_all

variable (rt context) in
/-- **Migration preserves listings.**  A context with an active role is shown the same tools with the same functions
by both registries, each tool once by the one of the database; any other context is shown nothing. -/
theorem migration_preserves_listings (hsame : SameRules R S) :
    ∃ manifests, S.getPermittedTools rt context = .ok manifests ∧ (manifests.map ToolManifest.toolName).Nodup ∧
      Covers (R.getPermittedTools context) manifests ∧
        if hasRole context S.activeRoles then Covers manifests (R.getPermittedTools context) else manifests = [] := by
  refine ⟨_, getPermittedTools_eq S, nodup_dbPermittedTools, ?_, ?_⟩
  · intro m hm
    obtain ⟨ht, hvisible, hf⟩ := mem_dbPermittedTools_iff.1 hm
    obtain ⟨rule, hrule⟩ := (known_agree hsame m.toolName).2 ht
    have hactive : hasRole context S.activeRoles = true := (db_isToolVisible_iff.1 hvisible).1
    rw [visible_agree hsame hactive hrule] at hvisible
    refine ⟨⟨m.toolName, rule.allowedFunctions⟩, mem_getPermittedTools_iff.2 ⟨rule, hrule, hvisible, rfl⟩, rfl, ?_⟩
    intro f
    rw [hf]
    exact (mem_allowedFunctions_iff hsame hrule).symm
  · by_cases hactive : hasRole context S.activeRoles = true
    · rw [if_pos hactive]
      intro m hm
      obtain ⟨rule, hrule, hvisible, hf⟩ := mem_getPermittedTools_iff.1 hm
      have ht : m.toolName ∈ S.tools := (known_agree hsame m.toolName).1 ⟨rule, hrule⟩
      rw [← visible_agree hsame hactive hrule] at hvisible
      refine ⟨⟨m.toolName, S.allowedFunctions m.toolName⟩, mem_dbPermittedTools_iff.2 ⟨ht, hvisible, rfl⟩, rfl, ?_⟩
      intro f
      rw [hf]
      exact mem_allowedFunctions_iff hsame hrule
    · rw [if_neg hactive, List.eq_nil_iff_forall_not_mem]
      intro m hm
      obtain ⟨-, hvisible, -⟩ := mem_dbPermittedTools_iff.1 hm
      exact hactive (db_isToolVisible_iff.1 hvisible).1

theorem migration_preserves_listings_deploy :
    ∃ manifests, seedExample.getPermittedTools plainRuntime productionAdmin = .ok manifests ∧
      Covers manifests (exampleRuleset.getPermittedTools productionAdmin) := by
  obtain ⟨manifests, heq, -, -, h⟩ := migration_preserves_listings plainRuntime productionAdmin sameRules_seedExample
  rw [if_pos (by decide)] at h
  exact ⟨manifests, heq, h⟩

end Aimw.Policy
