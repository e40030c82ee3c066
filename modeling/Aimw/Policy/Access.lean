import Aimw.Lib.LayeredAccess
import Aimw.Policy.Db

/-!
# What the engines allow

Both policy engines, and the registry of the database tier, refine layered access rules:

* `PolicyRuleSet.access`, `static_evaluate_cases` — what `StaticPolicyEngine` decides;
* `RuleStore.access`, `db_evaluate_cases` — what `DbBackedPolicyEngine` decides;
* `getPermittedTools_eq` — the tools that `DbBackedToolRegistry` lists.
-/

namespace Aimw.Policy

open Lib Coro

variable {rt : Runtime} {context : ExecutionContext} {request : ToolRequest}

/-! ## The parts of a request -/

variable (context) in
def roleSet : Set String := {r | r ∈ context.roles}

variable (rt request) in
/-- The request as the layers see it: the text of a parameter that is there stands for its value. -/
def invocation : Invocation String String String String where
  tool := request.toolName
  fn := request.functionName
  arg := argument rt request

lemma hasRole_iff {roles : List String} : hasRole context roles = true ↔ Meets (roleSet context) {r | r ∈ roles} := by
  simp [hasRole, Meets, roleSet]

lemma hasRole_eq_false_iff {roles : List String} :
    hasRole context roles = false ↔ ¬ Meets (roleSet context) {r | r ∈ roles} := by
  rw [← hasRole_iff, Bool.not_eq_true]

lemma setOf_mem_eq_empty_iff {roles : List String} : {r | r ∈ roles} = (∅ : Set String) ↔ roles = [] := by
  rw [Set.eq_empty_iff_forall_notMem, List.eq_nil_iff_forall_not_mem]
  rfl

lemma matchedPattern_eq_none_iff {patterns : Dict (List String)} : matchedPattern rt request patterns = none ↔
    ∀ p text, argument rt request p = some text → ∀ pats pat, (p, pats) ∈ patterns.items → pat ∈ pats →
      rt.search pat text = false := by
  simp only [matchedPattern, List.findSome?_eq_none_iff, Prod.forall, Option.bind_eq_none_iff, Option.map_eq_none_iff,
    List.find?_eq_none, Bool.not_eq_true]
  constructor
  · intro h p text harg pats pat hmem hpat
    exact h p pats hmem text harg pat hpat
  · intro h p pats hmem text harg pat hpat
    exact h p text harg pats pat hmem hpat

lemma closedGate_eq_none_iff {gates : Dict (List String)} : closedGate rt context request gates = none ↔
    ∀ gate roles, (gate, roles) ∈ gates.items →
      argument rt request (gateParts gate).1 = some (gateParts gate).2 → Meets (roleSet context) {r | r ∈ roles} := by
  simp only [closedGate, List.find?_eq_none, Prod.forall, Bool.and_eq_true, decide_eq_true_eq, not_and,
    Bool.not_eq_true', hasRole_eq_false_iff, not_not]

/-- The gates of a dictionary, with their keys taken apart. -/
def gatesOf (gates : Dict (List String)) : Set (String × String × Set String) :=
  {g | ∃ gate roles, (gate, roles) ∈ gates.items ∧ g = ((gateParts gate).1, (gateParts gate).2, {r | r ∈ roles})}

lemma closedGate_eq_none_iff' {gates : Dict (List String)} : closedGate rt context request gates = none ↔
    ∀ p v required, (p, v, required) ∈ gatesOf gates → argument rt request p = some v →
      Meets (roleSet context) required := by
  rw [closedGate_eq_none_iff]
  constructor
  · rintro h p v required ⟨gate, roles, hmem, heq⟩ harg
    simp only [Prod.mk.injEq] at heq
    obtain ⟨rfl, rfl, rfl⟩ := heq
    exact h gate roles hmem harg
  · intro h gate roles hmem harg
    exact h _ _ _ ⟨gate, roles, hmem, rfl⟩ harg

/-! ## The static tier -/

/-- The rules of a tool that is allowed and has rules. -/
def PolicyRuleSet.ruleOf (R : PolicyRuleSet) (toolName : String) : Option ToolRule :=
  if toolName ∈ R.allowedTools then R.tools.get? toolName else none

/-- The layers of a ruleset. -/
def PolicyRuleSet.access (rt : Runtime) (R : PolicyRuleSet) : AccessRules String String String String String ℤ where
  platform := ∅
  known := {t | ∃ rule, R.ruleOf t = some rule}
  visibleTo t := {r | ∃ rule, R.ruleOf t = some rule ∧ r ∈ rule.visibleToRoles}
  functions t := {f | ∃ rule, R.ruleOf t = some rule ∧ f ∈ rule.allowedFunctions}
  forbidden t p := {text | ∃ rule pats pat, R.ruleOf t = some rule ∧ (p, pats) ∈ rule.parameterDenyPatterns.items ∧
    pat ∈ pats ∧ rt.search pat text = true}
  gates t := {g | ∃ rule, R.ruleOf t = some rule ∧ g ∈ gatesOf rule.requiresRoleFor}
  within := {n | n < R.rateLimitPerSession}

/-- The function needs a human approval. -/
def PolicyRuleSet.needsApproval (R : PolicyRuleSet) (toolName functionName : String) : Bool :=
  (R.ruleOf toolName).elim false fun rule => functionName ∈ rule.requiresApprovalFunctions

lemma static_permits_iff {R : PolicyRuleSet} {rule : ToolRule} (hrule : R.ruleOf request.toolName = some rule)
    {n : ℤ} : (R.access rt).Permits (roleSet context) (invocation rt request) n ↔
      (rule.visibleToRoles = [] ∨ hasRole context rule.visibleToRoles = true) ∧
        request.functionName ∈ rule.allowedFunctions ∧ matchedPattern rt request rule.parameterDenyPatterns = none ∧
        closedGate rt context request rule.requiresRoleFor = none ∧ n < R.rateLimitPerSession := by
  have hvis : (R.access rt).visibleTo request.toolName = {r | r ∈ rule.visibleToRoles} := by
    simp [PolicyRuleSet.access, hrule]
  rw [hasRole_iff, matchedPattern_eq_none_iff, closedGate_eq_none_iff']
  constructor
  · intro h
    have hsees := h.sees.2.2
    rw [invocation, hvis, setOf_mem_eq_empty_iff] at hsees
    refine ⟨hsees, by simpa [PolicyRuleSet.access, invocation, hrule] using h.open_, ?_, ?_, h.room⟩
    · intro p text harg pats pat hmem hpat
      by_contra hs
      exact h.clean p text harg ⟨rule, pats, pat, hrule, hmem, hpat, by simpa using hs⟩
    · intro p v required hg harg
      exact h.gated p v required ⟨rule, hrule, hg⟩ harg
  · rintro ⟨hsees, hfn, hclean, hgated, hroom⟩
    refine ⟨⟨by simp [PolicyRuleSet.access], ⟨rule, hrule⟩, ?_⟩, ⟨rule, hrule, hfn⟩, ?_, ?_, hroom⟩
    · rwa [invocation, hvis, setOf_mem_eq_empty_iff]
    · rintro p text harg ⟨rule', pats, pat, hrule', hmem, hpat, hs⟩
      obtain rfl := Option.some.inj (hrule.symm.trans hrule')
      exact absurd (hs.symm.trans (hclean p text harg pats pat hmem hpat)) (by simp)
    · rintro p v required ⟨rule', hrule', hg⟩ harg
      obtain rfl := Option.some.inj (hrule.symm.trans hrule')
      exact hgated p v required hg harg

lemma static_not_permits {R : PolicyRuleSet} (hrule : R.ruleOf request.toolName = none) {n : ℤ} :
    ¬ (R.access rt).Permits (roleSet context) (invocation rt request) n := by
  intro h
  obtain ⟨rule, hr⟩ := h.sees.2.1
  exact absurd (hrule.symm.trans hr) (by simp)

variable (rt context request) in
/-- **What `StaticPolicyEngine` decides**: it approves what the layers permit, and denies the rest. -/
theorem static_evaluate_cases (engine : StaticPolicyEngine) :
    (missingField rt context engine.ruleset.identityRequiredFields = none ∧
        (engine.ruleset.access rt).Permits (roleSet context) (invocation rt request)
          (engine.callCounter context.sessionId) ∧
        engine.evaluate rt context request =
          approve (engine.ruleset.needsApproval request.toolName request.functionName)) ∨
      (¬ (missingField rt context engine.ruleset.identityRequiredFields = none ∧
          (engine.ruleset.access rt).Permits (roleSet context) (invocation rt request)
            (engine.callCounter context.sessionId)) ∧
        ∃ reason, engine.evaluate rt context request = deny reason) := by
  unfold StaticPolicyEngine.evaluate
  dsimp only
  cases hmiss : missingField rt context engine.ruleset.identityRequiredFields with
  | some field => exact Or.inr ⟨by simp, _, rfl⟩
  | none =>
    simp only [true_and]
    cases hrule : engine.ruleset.ruleOf request.toolName with
    | none =>
      -- the tool is not among the allowed ones, or it has no rules
      refine Or.inr ⟨static_not_permits hrule, ?_⟩
      unfold PolicyRuleSet.ruleOf at hrule
      by_cases ht : request.toolName ∈ engine.ruleset.allowedTools
      · rw [if_pos ht] at hrule
        rw [if_neg (not_not.2 ht), hrule]
        exact ⟨_, rfl⟩
      · rw [if_pos ht]
        exact ⟨_, rfl⟩
    | some rule =>
      have hneeds : engine.ruleset.needsApproval request.toolName request.functionName =
          decide (request.functionName ∈ rule.requiresApprovalFunctions) := by
        simp [PolicyRuleSet.needsApproval, hrule]
      rw [static_permits_iff hrule, hneeds]
      unfold PolicyRuleSet.ruleOf at hrule
      split_ifs at hrule with ht
      simp only [ht, not_true, if_false, hrule]
      by_cases hvis : rule.visibleToRoles = [] ∨ hasRole context rule.visibleToRoles = true
      swap
      · rw [if_pos (by simpa using hvis)]
        exact Or.inr ⟨fun h => hvis h.1, _, rfl⟩
      rw [if_neg (by simpa [imp_iff_not_or] using hvis)]
      by_cases hfn : request.functionName ∈ rule.allowedFunctions
      swap
      · rw [if_pos hfn]
        exact Or.inr ⟨fun h => hfn h.2.1, _, rfl⟩
      rw [if_neg (not_not.2 hfn)]
      cases hpat : matchedPattern rt request rule.parameterDenyPatterns with
      | some m => exact Or.inr ⟨fun h => by simpa using h.2.2.1, _, rfl⟩
      | none =>
        cases hgate : closedGate rt context request rule.requiresRoleFor with
        | some g => exact Or.inr ⟨fun h => by simpa using h.2.2.2.1, _, rfl⟩
        | none =>
          by_cases hroom : engine.callCounter context.sessionId < engine.ruleset.rateLimitPerSession
          · exact Or.inl ⟨⟨hvis, hfn, rfl, rfl, hroom⟩, if_neg (not_le.2 hroom)⟩
          · exact Or.inr ⟨fun h => hroom h.2.2.2.2, _, if_pos (not_lt.1 hroom)⟩

/-! ## The database tier -/

/-- The layers of a rule store. -/
def RuleStore.access (rt : Runtime) (S : RuleStore) : AccessRules String String String String String ℤ where
  platform := {{r | r ∈ S.activeRoles}}
  known := {t | t ∈ S.tools}
  visibleTo t := {r | r ∈ S.visibilityRoles t}
  functions t := {f | f ∈ S.allowedFunctions t}
  forbidden t p := {text | ∃ pat, (p, pat) ∈ S.denyPatternRows t ∧ rt.search pat text = true}
  gates t := gatesOf (S.roleGates t)
  within := {n | ∃ limit, S.rateLimitPerSession rt.chars = .ok limit ∧ n < limit}

/-- The identity fields that `DbBackedPolicyEngine` asks for. -/
def identityFields : List String := ["user_id", "agent_id", "roles"]

lemma matchedPattern_group_eq_none_iff {S : RuleStore} {t : String} :
    matchedPattern rt request (S.denyPatterns t) = none ↔
      ∀ p text, argument rt request p = some text →
        ∀ pat, (p, pat) ∈ S.denyPatternRows t → rt.search pat text = false := by
  obtain ⟨hval, hkey⟩ := Dict.groups_group (S.denyPatternRows t)
  rw [matchedPattern_eq_none_iff]
  constructor
  · intro h p text harg pat hrow
    obtain ⟨pats, hmem⟩ := hkey p pat hrow
    exact h p text harg pats pat hmem (((hval p pats hmem).2 pat).2 hrow)
  · intro h p text harg pats pat hmem hpat
    exact h p text harg pat (((hval p pats hmem).2 pat).1 hpat)

variable (rt) in
lemma db_sees_iff {S : RuleStore} {t : String} : (S.access rt).Sees (roleSet context) t ↔
    hasRole context S.activeRoles = true ∧ S.toolExists t = true ∧
      (S.visibilityRoles t = [] ∨ hasRole context (S.visibilityRoles t) = true) := by
  simp only [AccessRules.Sees, RuleStore.access, Set.mem_singleton_iff, forall_eq, hasRole_iff, RuleStore.toolExists,
    decide_eq_true_eq, setOf_mem_eq_empty_iff, Set.mem_ofPred_eq]

lemma db_permits_iff {S : RuleStore} {n : ℤ} : (S.access rt).Permits (roleSet context) (invocation rt request) n ↔
    (hasRole context S.activeRoles = true ∧ S.toolExists request.toolName = true ∧
        (S.visibilityRoles request.toolName = [] ∨ hasRole context (S.visibilityRoles request.toolName) = true)) ∧
      request.functionName ∈ S.allowedFunctions request.toolName ∧
      matchedPattern rt request (S.denyPatterns request.toolName) = none ∧
      closedGate rt context request (S.roleGates request.toolName) = none ∧
      ∃ limit, S.rateLimitPerSession rt.chars = .ok limit ∧ n < limit := by
  rw [← db_sees_iff rt, matchedPattern_group_eq_none_iff, closedGate_eq_none_iff']
  constructor
  · intro h
    refine ⟨h.sees, h.open_, ?_, h.gated, h.room⟩
    intro p text harg pat hrow
    by_contra hs
    exact h.clean p text harg ⟨pat, hrow, by simpa using hs⟩
  · rintro ⟨hsees, hfn, hclean, hgated, hroom⟩
    refine ⟨hsees, hfn, ?_, hgated, hroom⟩
    rintro p text harg ⟨pat, hrow, hs⟩
    exact absurd (hs.symm.trans (hclean p text harg pat hrow)) (by simp)

variable (rt context request) in
/-- **What `DbBackedPolicyEngine` decides**: it approves what the layers permit and denies the rest, but for a tool
that is seen it can fail on a rate limit that is no number. -/
theorem db_evaluate_cases (engine : DbBackedPolicyEngine) :
    (missingField rt context identityFields = none ∧
        (engine.store.access rt).Permits (roleSet context) (invocation rt request)
          (engine.callCounter context.sessionId) ∧
        engine.evaluate rt context request =
          .ok (approve (engine.store.requiresApproval request.toolName request.functionName))) ∨
      (¬ (missingField rt context identityFields = none ∧
          (engine.store.access rt).Permits (roleSet context) (invocation rt request)
            (engine.callCounter context.sessionId)) ∧
        ((∃ reason, engine.evaluate rt context request = .ok (deny reason)) ∨
          ∃ e, (engine.store.access rt).Sees (roleSet context) request.toolName ∧
            engine.store.rateLimitPerSession rt.chars = .error e ∧ engine.evaluate rt context request = .error e)) := by
  unfold DbBackedPolicyEngine.evaluate evaluateQuery
  cases hmiss : missingField rt context identityFields with
  | some field =>
    rw [show missingField rt context ["user_id", "agent_id", "roles"] = some field from hmiss]
    exact Or.inr ⟨by simp, Or.inl ⟨_, rfl⟩⟩
  | none =>
    rw [show missingField rt context ["user_id", "agent_id", "roles"] = none from hmiss, db_permits_iff]
    simp only [true_and]
    set S := engine.store with hS
    set f := S.answer rt.chars with hf
    rw [eval_perform_bind]
    by_cases hactive : hasRole context (f .activeRoles) = false
    · rw [if_pos hactive]
      exact Or.inr ⟨fun h => absurd (h.1.1.symm.trans hactive) (by simp), Or.inl ⟨_, rfl⟩⟩
    rw [if_neg hactive, eval_perform_bind]
    by_cases htool : f (.toolExists request.toolName) = false
    · rw [if_pos htool]
      exact Or.inr ⟨fun h => absurd (h.1.2.1.symm.trans htool) (by simp), Or.inl ⟨_, rfl⟩⟩
    rw [if_neg htool, eval_perform_bind]
    by_cases hvis : f (.visibilityRoles request.toolName) ≠ [] ∧
        hasRole context (f (.visibilityRoles request.toolName)) = false
    · rw [if_pos hvis]
      refine Or.inr ⟨fun h => ?_, Or.inl ⟨_, rfl⟩⟩
      rcases h.1.2.2 with hnil | hrole
      · exact hvis.1 hnil
      · exact absurd (hrole.symm.trans hvis.2) (by simp)
    rw [if_neg hvis, eval_perform_bind]
    by_cases hfn : request.functionName ∉ f (.allowedFunctions request.toolName)
    · rw [if_pos hfn]
      exact Or.inr ⟨fun h => hfn h.2.1, Or.inl ⟨_, rfl⟩⟩
    rw [if_neg hfn, eval_perform_bind]
    cases hpat : matchedPattern rt request (f (.denyPatterns request.toolName)) with
    | some m => exact Or.inr ⟨fun h => by simpa using hpat.symm.trans h.2.2.1, Or.inl ⟨_, rfl⟩⟩
    | none =>
      dsimp only
      rw [eval_perform_bind]
      cases hgate : closedGate rt context request (f (.roleGates request.toolName)) with
      | some g => exact Or.inr ⟨fun h => by simpa using hgate.symm.trans h.2.2.2.1, Or.inl ⟨_, rfl⟩⟩
      | none =>
        dsimp only
        rw [eval_await_bind]
        have hactive' : hasRole context S.activeRoles = true := (Bool.not_eq_false _).mp hactive
        have htool' : S.toolExists request.toolName = true := (Bool.not_eq_false _).mp htool
        have hvis' : S.visibilityRoles request.toolName = [] ∨
            hasRole context (S.visibilityRoles request.toolName) = true := by
          rw [not_and_or, not_not, Bool.not_eq_false] at hvis
          exact hvis
        cases hlimit : S.rateLimitPerSession rt.chars with
        | error e =>
          refine Or.inr ⟨fun h => ?_, Or.inr ⟨e, (db_sees_iff rt).2 ⟨hactive', htool', hvis'⟩, rfl, ?_⟩⟩
          · obtain ⟨limit, hl, -⟩ := h.2.2.2.2
            cases hl
          · rw [show f .rateLimitPerSession = .error e from hlimit]
            rfl
        | ok limit =>
          rw [show f .rateLimitPerSession = .ok limit from hlimit]
          by_cases hroom : engine.callCounter context.sessionId < limit
          · left
            refine ⟨⟨⟨hactive', htool', hvis'⟩, not_not.1 hfn, hpat, hgate, limit, rfl, hroom⟩, ?_⟩
            simp only [id, Except.bind, if_neg (not_le.2 hroom)]
            rfl
          · refine Or.inr ⟨fun h => ?_, Or.inl ?_⟩
            · obtain ⟨l, hl, hlt⟩ := h.2.2.2.2
              obtain rfl := Except.ok.inj hl
              exact hroom hlt
            · simp only [id, Except.bind, if_pos (not_lt.1 hroom)]
              exact ⟨_, rfl⟩

/-! ## The registry of the database tier -/

/-- A tool is visible: the check that the registry makes. -/
def RuleStore.isToolVisible (S : RuleStore) (toolName : String) (context : ExecutionContext) : Bool :=
  hasRole context S.activeRoles && S.toolExists toolName &&
    ((S.visibilityRoles toolName).isEmpty || hasRole context (S.visibilityRoles toolName))

variable (rt) in
lemma isToolVisible_iff {S : RuleStore} {t : String} :
    S.isToolVisible t context = true ↔ (S.access rt).Sees (roleSet context) t := by
  rw [db_sees_iff, RuleStore.isToolVisible]
  simp only [Bool.and_eq_true, Bool.or_eq_true, List.isEmpty_iff, and_assoc]

variable (context) in
lemma isToolVisibleQuery_eval (u : CharTable) (S : RuleStore) (t : String) :
    (isToolVisibleQuery context t).eval (S.answer u) = .ok (S.isToolVisible t context) := by
  unfold isToolVisibleQuery RuleStore.isToolVisible
  rw [eval_perform_bind]
  by_cases hactive : hasRole context (S.answer u .activeRoles) = false
  · rw [if_pos hactive, show hasRole context S.activeRoles = false from hactive]
    rfl
  rw [if_neg hactive, show hasRole context S.activeRoles = true from (Bool.not_eq_false _).mp hactive, eval_perform_bind]
  by_cases htool : S.answer u (.toolExists t) = false
  · rw [if_pos htool, show S.toolExists t = false from htool]
    rfl
  rw [if_neg htool, show S.toolExists t = true from (Bool.not_eq_false _).mp htool, eval_perform_bind]
  by_cases hnil : S.answer u (.visibilityRoles t) = []
  · rw [if_pos hnil, show S.visibilityRoles t = [] from hnil]
    rfl
  · rw [if_neg hnil]
    have hempty : (S.visibilityRoles t).isEmpty = false := by
      rw [List.isEmpty_eq_false_iff]
      exact hnil
    rw [hempty]
    rfl

lemma manifestsQuery_eval (u : CharTable) (S : RuleStore) (toolNames : List String) :
    (manifestsQuery context toolNames).eval (S.answer u) = .ok (toolNames.filterMap fun t =>
      if S.isToolVisible t context then some ⟨t, S.allowedFunctions t⟩ else none) := by
  induction toolNames with
  | nil => rfl
  | cons t toolNames ih =>
    have hvisible := isToolVisibleQuery_eval context u S t
    rw [manifestsQuery]
    refine (eval_bind _ _ _).trans ?_
    rw [hvisible]
    cases hv : S.isToolVisible t context with
    | false => simpa [Except.bind, hv] using ih
    | true =>
      have hrest := eval_bind (S.answer u) (manifestsQuery context toolNames) fun manifests =>
        (pure (⟨t, S.allowedFunctions t⟩ :: manifests) : Query (List ToolManifest))
      rw [ih] at hrest
      simp only [hv, List.filterMap_cons, if_true]
      exact hrest

/-- **What `DbBackedToolRegistry` lists.** -/
theorem getPermittedTools_eq (S : RuleStore) : S.getPermittedTools rt context = .ok (S.tools.filterMap fun t =>
    if S.isToolVisible t context then some ⟨t, S.allowedFunctions t⟩ else none) :=
  manifestsQuery_eval rt.chars S S.tools

end Aimw.Policy
