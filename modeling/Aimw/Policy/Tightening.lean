import Aimw.Policy.Roles
import Aimw.Policy.TornReads

/-!
# Taking something away

Updates of a live rule store that take something away.  A list of roles that becomes shorter asks for more, and one that
becomes empty asks for nothing any more; but for this, no update opens anything (`tightening_never_opens`).
-/

namespace Aimw.Policy

open Lib

/-! ## Updates -/

/-- `SET requires_approval = 1`, if the row is that of the function. -/
def FunctionRow.withApproval (toolName functionName : String) (r : FunctionRow) : FunctionRow :=
  if (r.toolName, r.functionName) = (toolName, functionName) then { r with requiresApproval := 1 } else r

@[simp] lemma FunctionRow.withApproval_toolName (t f : String) (r : FunctionRow) :
    (r.withApproval t f).toolName = r.toolName := by
  unfold FunctionRow.withApproval
  split_ifs <;> rfl

@[simp] lemma FunctionRow.withApproval_functionName (t f : String) (r : FunctionRow) :
    (r.withApproval t f).functionName = r.functionName := by
  unfold FunctionRow.withApproval
  split_ifs <;> rfl

namespace RuleStore

variable (S : RuleStore)

/-- `DELETE FROM roles WHERE role_name = ?`. -/
def deleteRole (roleName : String) : RuleStore :=
  { S with
    roles := S.roles.filter fun r => r.roleName ≠ roleName
    roles_key := S.roles_key.sublist (List.filter_sublist.map _) }

/-- `DELETE FROM tools WHERE tool_name = ?`. -/
def deleteTool (toolName : String) : RuleStore :=
  { S with
    tools := S.tools.filter fun t => t ≠ toolName
    tools_key := S.tools_key.sublist List.filter_sublist }

/-- `DELETE FROM tool_functions WHERE tool_name = ? AND function_name = ?`. -/
def deleteFunction (toolName functionName : String) : RuleStore :=
  { S with
    toolFunctions := S.toolFunctions.filter fun r => (r.toolName, r.functionName) ≠ (toolName, functionName)
    functions_key := S.functions_key.sublist (List.filter_sublist.map _) }

/-- `DELETE FROM tool_visibility_roles WHERE tool_name = ? AND role_name = ?`. -/
def deleteVisibilityRole (toolName roleName : String) : RuleStore :=
  { S with
    toolVisibilityRoles := S.toolVisibilityRoles.filter fun r => (r.toolName, r.roleName) ≠ (toolName, roleName)
    visibility_key := S.visibility_key.sublist (List.filter_sublist.map _) }

/-- `UPDATE tool_functions SET requires_approval = 1 WHERE tool_name = ? AND function_name = ?`. -/
def requireApproval (toolName functionName : String) : RuleStore :=
  { S with
    toolFunctions := S.toolFunctions.map (FunctionRow.withApproval toolName functionName)
    functions_key := by
      have hkeys : (fun r : FunctionRow => (r.toolName, r.functionName)) ∘ FunctionRow.withApproval toolName functionName =
          fun r => (r.toolName, r.functionName) := by
        funext r
        simp
      rw [List.map_map, hkeys]
      exact S.functions_key }

/-- `INSERT INTO parameter_deny_patterns`. -/
def insertDenyPattern (row : DenyPatternRow) : RuleStore :=
  { S with parameterDenyPatterns := S.parameterDenyPatterns ++ [row] }

/-- `INSERT OR REPLACE INTO settings VALUES ('rate_limit_per_session', ?)`. -/
def setRateLimit (value : String) : RuleStore :=
  { S with
    settings := S.settings.filter (fun s => s.1 ≠ "rate_limit_per_session") ++ [("rate_limit_per_session", value)]
    settings_key := by
      rw [List.map_append, List.nodup_append]
      refine ⟨S.settings_key.sublist (List.filter_sublist.map _), List.nodup_singleton _, ?_⟩
      intro key hkey other hother
      obtain ⟨s, hs, rfl⟩ := List.mem_map.1 hkey
      obtain rfl := List.mem_singleton.1 hother
      simpa using (List.mem_filter.1 hs).2 }

end RuleStore

/-- An update that takes something away, and does not leave a tool without the last of its roles. -/
inductive Tightening (u : CharTable) (S : RuleStore) : RuleStore → Prop
  | deactivateRole (roleName : String) : Tightening u S (S.deactivate roleName)
  | deleteRole (roleName : String) : Tightening u S (S.deleteRole roleName)
  | deleteTool (toolName : String) : Tightening u S (S.deleteTool toolName)
  | deleteFunction (toolName functionName : String) : Tightening u S (S.deleteFunction toolName functionName)
  | deleteVisibilityRole (toolName roleName : String) : S.visibilityRoles toolName ≠ [roleName] →
      Tightening u S (S.deleteVisibilityRole toolName roleName)
  | requireApproval (toolName functionName : String) : Tightening u S (S.requireApproval toolName functionName)
  | insertDenyPattern (row : DenyPatternRow) : Tightening u S (S.insertDenyPattern row)
  | lowerRateLimit (value : String) {limit limit' : ℤ} : S.rateLimitPerSession u = .ok limit →
      (S.setRateLimit value).rateLimitPerSession u = .ok limit' → limit' ≤ limit → Tightening u S (S.setRateLimit value)

/-! ## What the updates take away -/

/-- Every read of `S'` gives less access than that of `S`. -/
structure Narrows (u : CharTable) (S S' : RuleStore) : Prop where
  activeRoles : S'.activeRoles ⊆ S.activeRoles := by exact List.Subset.refl _
  tools : S'.tools ⊆ S.tools := by exact List.Subset.refl _
  visibilityRoles : ∀ t, S'.visibilityRoles t = S.visibilityRoles t ∨
    (S'.visibilityRoles t ≠ [] ∧ S'.visibilityRoles t ⊆ S.visibilityRoles t) := by exact fun _ => Or.inl rfl
  allowedFunctions : ∀ t, S'.allowedFunctions t ⊆ S.allowedFunctions t := by exact fun _ => List.Subset.refl _
  denyPatternRows : ∀ t, S.denyPatternRows t ⊆ S'.denyPatternRows t := by exact fun _ => List.Subset.refl _
  roleGates : ∀ t, S'.roleGates t = S.roleGates t := by exact fun _ => rfl
  rateLimit : ∀ limit', S'.rateLimitPerSession u = .ok limit' →
    ∃ limit, S.rateLimitPerSession u = .ok limit ∧ limit' ≤ limit := by exact fun limit h => ⟨limit, h, le_rfl⟩
  requiresApproval : ∀ t f, f ∈ S'.allowedFunctions t → S.requiresApproval t f = true →
    S'.requiresApproval t f = true := by exact fun _ _ _ h => h

section Updates

variable (u : CharTable) {S : RuleStore}

lemma mem_allowedFunctions {t f : String} :
    f ∈ S.allowedFunctions t ↔ ∃ r ∈ S.toolFunctions, r.toolName = t ∧ r.functionName = f := by
  simp [RuleStore.allowedFunctions, and_assoc]

/-- The row of a function is the only one for it. -/
lemma requiresApproval_iff {t f : String} : S.requiresApproval t f = true ↔
    ∃ r ∈ S.toolFunctions, r.toolName = t ∧ r.functionName = f ∧ r.requiresApproval ≠ 0 := by
  unfold RuleStore.requiresApproval
  cases hfind : S.toolFunctions.find? fun r => r.toolName = t ∧ r.functionName = f with
  | none =>
    simp only [List.find?_eq_none, decide_eq_true_eq, not_and] at hfind
    refine iff_of_false (by simp) ?_
    rintro ⟨r, hr, ht, hf, -⟩
    exact hfind r hr ht hf
  | some row =>
    obtain ⟨hrowt, hrowf⟩ : row.toolName = t ∧ row.functionName = f := by simpa using List.find?_some hfind
    have hrow := List.mem_of_find?_eq_some hfind
    simp only [decide_eq_true_eq]
    constructor
    · intro hneeds
      exact ⟨row, hrow, hrowt, hrowf, hneeds⟩
    · rintro ⟨r, hr, ht, hf, hneeds⟩
      have hkey : (r.toolName, r.functionName) = (row.toolName, row.functionName) := by rw [ht, hf, hrowt, hrowf]
      obtain rfl := List.inj_on_of_nodup_map S.functions_key hr hrow hkey
      exact hneeds

theorem narrows_deactivate (roleName : String) : Narrows u S (S.deactivate roleName) where
  activeRoles r hr := ((activeRoles_deactivate S roleName r).1 hr).1

theorem narrows_deleteRole (roleName : String) : Narrows u S (S.deleteRole roleName) where
  activeRoles := by
    unfold RuleStore.activeRoles RuleStore.deleteRole
    exact List.map_subset _ (List.filter_subset _ List.filter_sublist.subset)

theorem narrows_deleteTool (toolName : String) : Narrows u S (S.deleteTool toolName) where
  tools := List.filter_sublist.subset

theorem narrows_deleteFunction (toolName functionName : String) : Narrows u S (S.deleteFunction toolName functionName) where
  allowedFunctions t f hf := by
    rw [mem_allowedFunctions] at hf ⊢
    obtain ⟨r, hr, ht, hf⟩ := hf
    exact ⟨r, List.mem_of_mem_filter hr, ht, hf⟩
  requiresApproval t f hf hneeds := by
    rw [mem_allowedFunctions] at hf
    rw [requiresApproval_iff] at hneeds ⊢
    obtain ⟨r', hr', ht', hf'⟩ := hf
    obtain ⟨r, hr, ht, hf, hneeds⟩ := hneeds
    have hkept := (List.mem_filter.1 hr').2
    rw [ht', hf', ← ht, ← hf] at hkept
    exact ⟨r, List.mem_filter.2 ⟨hr, hkept⟩, ht, hf, hneeds⟩

lemma mem_visibilityRoles {t r : String} :
    r ∈ S.visibilityRoles t ↔ ∃ row ∈ S.toolVisibilityRoles, row.toolName = t ∧ row.roleName = r := by
  simp [RuleStore.visibilityRoles, and_assoc]

lemma mem_visibilityRoles_delete {toolName roleName t r : String} :
    r ∈ (S.deleteVisibilityRole toolName roleName).visibilityRoles t ↔
      r ∈ S.visibilityRoles t ∧ (t, r) ≠ (toolName, roleName) := by
  simp only [mem_visibilityRoles, RuleStore.deleteVisibilityRole, List.mem_filter, decide_eq_true_eq]
  constructor
  · rintro ⟨row, ⟨hrow, hother⟩, rfl, rfl⟩
    exact ⟨⟨row, hrow, rfl, rfl⟩, hother⟩
  · rintro ⟨⟨row, hrow, rfl, rfl⟩, hother⟩
    exact ⟨row, ⟨hrow, hother⟩, rfl, rfl⟩

lemma visibilityRoles_nodup (t : String) : (S.visibilityRoles t).Nodup := by
  have hkeys : (S.visibilityRoles t).map (fun r => (t, r)) =
      (S.toolVisibilityRoles.filter fun r => r.toolName = t).map fun r => (r.toolName, r.roleName) := by
    rw [RuleStore.visibilityRoles, List.map_map]
    refine List.map_congr_left fun row hrow => ?_
    obtain rfl : row.toolName = t := by simpa using (List.mem_filter.1 hrow).2
    rfl
  apply List.Nodup.of_map (fun r => (t, r))
  rw [hkeys]
  exact S.visibility_key.sublist (List.filter_sublist.map _)

/-- A list without repetitions that is not just `a` has something else in it. -/
lemma exists_ne_of_ne_singleton {α : Type} {l : List α} {a : α} (hnodup : l.Nodup) (hnil : l ≠ []) (hne : l ≠ [a]) :
    ∃ b ∈ l, b ≠ a := by
  by_contra hall
  push Not at hall
  match l with
  | [] => exact hnil rfl
  | [b] => exact hne (by rw [hall b (by simp)])
  | b :: c :: l =>
    have hbc : b = c := (hall b (by simp)).trans (hall c (by simp)).symm
    simp [hbc] at hnodup

theorem narrows_deleteVisibilityRole (toolName roleName : String) (hlast : S.visibilityRoles toolName ≠ [roleName]) :
    Narrows u S (S.deleteVisibilityRole toolName roleName) where
  visibilityRoles t := by
    have hsub : (S.deleteVisibilityRole toolName roleName).visibilityRoles t ⊆ S.visibilityRoles t := fun r hr =>
      (mem_visibilityRoles_delete.1 hr).1
    by_cases hnil : S.visibilityRoles t = []
    · rw [hnil] at hsub ⊢
      exact Or.inl (List.subset_nil.1 hsub)
    · refine Or.inr ⟨?_, hsub⟩
      obtain ⟨r, hr, hother⟩ : ∃ r ∈ S.visibilityRoles t, (t, r) ≠ (toolName, roleName) := by
        by_cases ht : t = toolName
        · subst ht
          obtain ⟨r, hr, hne⟩ := exists_ne_of_ne_singleton (visibilityRoles_nodup t) hnil hlast
          exact ⟨r, hr, by simpa using hne⟩
        · obtain ⟨r, hr⟩ := List.exists_mem_of_ne_nil _ hnil
          exact ⟨r, hr, by simp [ht]⟩
      exact List.ne_nil_of_mem (mem_visibilityRoles_delete.2 ⟨hr, hother⟩)

theorem narrows_requireApproval (toolName functionName : String) :
    Narrows u S (S.requireApproval toolName functionName) where
  allowedFunctions t f hf := by
    rw [mem_allowedFunctions] at hf ⊢
    obtain ⟨r', hr', ht, hf⟩ := hf
    obtain ⟨r, hr, rfl⟩ := List.mem_map.1 hr'
    exact ⟨r, hr, by simpa using ht, by simpa using hf⟩
  requiresApproval t f _ hneeds := by
    rw [requiresApproval_iff] at hneeds ⊢
    obtain ⟨r, hr, ht, hf, hneeds⟩ := hneeds
    refine ⟨r.withApproval toolName functionName, List.mem_map_of_mem hr, by simpa using ht, by simpa using hf, ?_⟩
    unfold FunctionRow.withApproval
    split_ifs
    · exact one_ne_zero
    · exact hneeds

theorem narrows_insertDenyPattern (row : DenyPatternRow) : Narrows u S (S.insertDenyPattern row) where
  denyPatternRows t := by
    unfold RuleStore.denyPatternRows RuleStore.insertDenyPattern
    rw [List.filter_append, List.map_append]
    exact List.subset_append_left _ _

theorem narrows_setRateLimit (value : String) {limit limit' : ℤ} (hlimit : S.rateLimitPerSession u = .ok limit)
    (hlimit' : (S.setRateLimit value).rateLimitPerSession u = .ok limit') (hle : limit' ≤ limit) :
    Narrows u S (S.setRateLimit value) where
  rateLimit n hn := by
    obtain rfl := Except.ok.inj (hlimit'.symm.trans hn)
    exact ⟨limit, hlimit, hle⟩

variable {u}

/-- Every tightening narrows the store. -/
theorem Tightening.narrows {S' : RuleStore} (h : Tightening u S S') : Narrows u S S' := by
  cases h with
  | deactivateRole roleName => exact narrows_deactivate u roleName
  | deleteRole roleName => exact narrows_deleteRole u roleName
  | deleteTool toolName => exact narrows_deleteTool u toolName
  | deleteFunction toolName functionName => exact narrows_deleteFunction u toolName functionName
  | deleteVisibilityRole toolName roleName hlast => exact narrows_deleteVisibilityRole u toolName roleName hlast
  | requireApproval toolName functionName => exact narrows_requireApproval u toolName functionName
  | insertDenyPattern row => exact narrows_insertDenyPattern u row
  | lowerRateLimit value hlimit hlimit' hle => exact narrows_setRateLimit u value hlimit hlimit' hle

end Updates

/-! ## What no tightening opens -/

section Access

variable {rt : Runtime} {S S' : RuleStore}

/-- A store that gives less is stricter in every layer. -/
theorem Narrows.stricter (h : Narrows rt.chars S S') : (S.access rt).Stricter (S'.access rt) where
  platform := by
    rintro _ rfl
    exact ⟨_, rfl, fun r hr => h.activeRoles hr⟩
  known _ ht := h.tools ht
  visibleTo t := by
    rcases h.visibilityRoles t with heq | ⟨hne, hsub⟩
    · exact Or.inl (congrArg (fun roles : List String => {r | r ∈ roles}) heq)
    · refine Or.inr ⟨?_, fun r hr => hsub hr⟩
      exact mt setOf_mem_eq_empty_iff.1 hne
  functions t f hf := h.allowedFunctions t hf
  forbidden t p := by
    rintro text ⟨pat, hrow, hsearch⟩
    exact ⟨pat, h.denyPatternRows t hrow, hsearch⟩
  gates t := by
    show gatesOf (S.roleGates t) ⊆ gatesOf (S'.roleGates t)
    rw [h.roleGates]
  within := by
    rintro n ⟨limit', hlimit', hn⟩
    obtain ⟨limit, hlimit, hle⟩ := h.rateLimit limit' hlimit'
    exact ⟨limit, hlimit, hn.trans_le hle⟩

lemma approves_human {b : Bool} : "human_approval" ∈ (approve b).actionRequirements ↔ b = true := by
  cases b <;> simp [approve]

variable {context : ExecutionContext} {request : ToolRequest} {callCounter : String → ℤ}

theorem Narrows.allows (h : Narrows rt.chars S S')
    (hallows : (DbBackedPolicyEngine.mk S' callCounter).Allows rt context request) :
    (DbBackedPolicyEngine.mk S callCounter).Allows rt context request := by
  rw [db_allows_iff] at hallows ⊢
  exact ⟨hallows.1, h.stricter.permits hallows.2⟩

/-- An approval that was asked for is asked for. -/
theorem Narrows.approval (h : Narrows rt.chars S S') {d d' : PolicyDecision}
    (hd : (DbBackedPolicyEngine.mk S callCounter).evaluate rt context request = .ok d) (hallowed : d.allowed = true)
    (hneeds : "human_approval" ∈ d.actionRequirements)
    (hd' : (DbBackedPolicyEngine.mk S' callCounter).evaluate rt context request = .ok d') (hallowed' : d'.allowed = true) :
    "human_approval" ∈ d'.actionRequirements := by
  have hdecision : ∀ {T : RuleStore} {e : PolicyDecision},
      (DbBackedPolicyEngine.mk T callCounter).evaluate rt context request = .ok e → e.allowed = true →
        (T.access rt).Permits (roleSet context) (invocation rt request) (callCounter context.sessionId) ∧
          e = approve (T.requiresApproval request.toolName request.functionName) := by
    intro T e he hallowed
    rcases db_evaluate_cases rt context request (DbBackedPolicyEngine.mk T callCounter) with
      ⟨-, hpermits, heval⟩ | ⟨-, ⟨reason, heval⟩ | ⟨_, -, -, heval⟩⟩
    · exact ⟨hpermits, Except.ok.inj (he.symm.trans heval)⟩
    · obtain rfl := Except.ok.inj (he.symm.trans heval)
      cases hallowed
    · cases he.symm.trans heval
  obtain ⟨-, rfl⟩ := hdecision hd hallowed
  obtain ⟨hpermits, rfl⟩ := hdecision hd' hallowed'
  rw [approves_human] at hneeds ⊢
  exact h.requiresApproval _ _ hpermits.open_ hneeds

/-- A tool that is listed was listed. -/
theorem Narrows.listed (h : Narrows rt.chars S S') {manifests manifests' : List ToolManifest}
    (hm : S.getPermittedTools rt context = .ok manifests) (hm' : S'.getPermittedTools rt context = .ok manifests')
    {toolName : String} (hlisted : toolName ∈ manifests'.map ToolManifest.toolName) :
    toolName ∈ manifests.map ToolManifest.toolName := by
  rw [getPermittedTools_eq] at hm hm'
  obtain rfl := Except.ok.inj hm
  obtain rfl := Except.ok.inj hm'
  obtain ⟨m, hmem, rfl⟩ := List.mem_map.1 hlisted
  obtain ⟨t, ht, hentry⟩ := List.mem_filterMap.1 hmem
  split_ifs at hentry with hvisible
  obtain rfl := Option.some.inj hentry
  have hsees := h.stricter.sees ((isToolVisible_iff rt).1 hvisible)
  refine List.mem_map.2 ⟨⟨t, S.allowedFunctions t⟩, List.mem_filterMap.2 ⟨t, h.tools ht, ?_⟩, rfl⟩
  exact if_pos ((isToolVisible_iff rt).2 hsees)

/-- **Tightening never opens access.** -/
theorem tightening_never_opens (h : Tightening rt.chars S S') (callCounter : String → ℤ) (context : ExecutionContext)
    (request : ToolRequest) :
    (¬ (DbBackedPolicyEngine.mk S callCounter).Allows rt context request →
        ¬ (DbBackedPolicyEngine.mk S' callCounter).Allows rt context request) ∧
      (∀ d, (DbBackedPolicyEngine.mk S callCounter).evaluate rt context request = .ok d → d.allowed = true →
        "human_approval" ∈ d.actionRequirements →
          ∀ d', (DbBackedPolicyEngine.mk S' callCounter).evaluate rt context request = .ok d' → d'.allowed = true →
            "human_approval" ∈ d'.actionRequirements) ∧
      ∀ manifests manifests', S.getPermittedTools rt context = .ok manifests →
        S'.getPermittedTools rt context = .ok manifests' →
          manifests'.map ToolManifest.toolName ⊆ manifests.map ToolManifest.toolName := by
  refine ⟨mt h.narrows.allows, ?_, ?_⟩
  · intro d hd hallowed hneeds d' hd' hallowed'
    exact h.narrows.approval hd hallowed hneeds hd' hallowed'
  · intro manifests manifests' hm hm' toolName
    exact h.narrows.listed hm hm'

lemma not_allows_of_deny {engine : DbBackedPolicyEngine} {reason : String}
    (h : engine.evaluate rt context request = .ok (deny reason)) : ¬ engine.Allows rt context request := by
  rintro ⟨d, hd, hallowed⟩
  obtain rfl := Except.ok.inj (hd.symm.trans h)
  cases hallowed

/-- Without one of its two roles, the deploy tool stays closed to a context that has neither. -/
theorem tightening_never_opens_deploy :
    ¬ (DbBackedPolicyEngine.mk (seedExample.deleteVisibilityRole "deploy_tool" "ProductionAdmin") fun _ => 0).Allows
      plainRuntime executor (bareRequest "deploy_tool" "deploy" "c1") := by
  have hdenied : ¬ (DbBackedPolicyEngine.mk seedExample fun _ => 0).Allows plainRuntime executor
      (bareRequest "deploy_tool" "deploy" "c1") :=
    not_allows_of_deny rfl
  exact (tightening_never_opens (.deleteVisibilityRole "deploy_tool" "ProductionAdmin" (by decide)) (fun _ => 0) executor
    (bareRequest "deploy_tool" "deploy" "c1")).1 hdenied

/-- Without the last of its roles, it is open to everybody. -/
theorem last_visibility_role_opens :
    let S := seedExample.deleteVisibilityRole "deploy_tool" "ProductionAdmin"
    let S' := S.deleteVisibilityRole "deploy_tool" "DeployEngineer"
    ¬ (DbBackedPolicyEngine.mk S fun _ => 0).Allows plainRuntime executor (bareRequest "deploy_tool" "deploy" "c1") ∧
      (DbBackedPolicyEngine.mk S' fun _ => 0).Allows plainRuntime executor (bareRequest "deploy_tool" "deploy" "c1") ∧
      (S.getPermittedTools plainRuntime executor).map (List.map ToolManifest.toolName) = .ok ["search_tool", "sql_tool"] ∧
      (S'.getPermittedTools plainRuntime executor).map (List.map ToolManifest.toolName) =
        .ok ["search_tool", "sql_tool", "deploy_tool"] := by
  exact ⟨not_allows_of_deny rfl, ⟨_, rfl, rfl⟩, rfl, rfl⟩

end Access

end Aimw.Policy
