import Aimw.Policy.Registry

/-!
# Which rule denies

Both policy engines go through their checks in order and stop at the first one that fails.  Of the values of the
parameters, only the checks on parameters depend; two requests with other values that fail at the same check are denied
for the same reason, but for the excerpt that a deny-pattern puts into it (`same_denial`).
-/

namespace Aimw.Policy

open Lib Coro

/-- The check that turns a request down. -/
inductive Rule
  | identity (field : String)
  | globalRbac
  | toolAccess
  | visibility
  | functionAccess
  | denyPattern (param pattern : String)
  | roleGate (gate : String)
  | rateLimit
  deriving DecidableEq

section Checks

variable (rt : Runtime) (context : ExecutionContext) (request : ToolRequest)

/-- The check on a parameter that fails, if there is one. -/
def parameterRule (patterns gates : Dict (List String)) : Option Rule :=
  match matchedPattern rt request patterns with
  | some (param, pattern, _) => some (.denyPattern param pattern)
  | none => (closedGate rt context request gates).map fun g => .roleGate g.1

def StaticPolicyEngine.deniedBy (engine : StaticPolicyEngine) : Option Rule :=
  match missingField rt context engine.ruleset.identityRequiredFields with
  | some field => some (.identity field)
  | none =>
    match engine.ruleset.ruleOf request.toolName with
    | none => some .toolAccess
    | some rule =>
      if rule.visibleToRoles ≠ [] ∧ hasRole context rule.visibleToRoles = false then some .visibility
      else if request.functionName ∉ rule.allowedFunctions then some .functionAccess
      else parameterRule rt context request rule.parameterDenyPatterns rule.requiresRoleFor <|>
        if engine.callCounter context.sessionId ≥ engine.ruleset.rateLimitPerSession then some .rateLimit else none

def DbBackedPolicyEngine.deniedBy (engine : DbBackedPolicyEngine) : Option Rule :=
  let store := engine.store
  match missingField rt context identityFields with
  | some field => some (.identity field)
  | none =>
    if hasRole context store.activeRoles = false then some .globalRbac
    else if store.toolExists request.toolName = false then some .toolAccess
    else if store.visibilityRoles request.toolName ≠ [] ∧ hasRole context (store.visibilityRoles request.toolName) = false
      then some .visibility
    else if request.functionName ∉ store.allowedFunctions request.toolName then some .functionAccess
    else parameterRule rt context request (store.denyPatterns request.toolName) (store.roleGates request.toolName) <|>
      match store.rateLimitPerSession rt.chars with
      | .ok limit => if engine.callCounter context.sessionId ≥ limit then some .rateLimit else none
      | .error _ => none

/-- An engine of one of the two tiers. -/
inductive PolicyEngine
  | static (engine : StaticPolicyEngine)
  | dbBacked (engine : DbBackedPolicyEngine)

def PolicyEngine.evaluate : PolicyEngine → Except Exc PolicyDecision
  | .static engine => .ok (engine.evaluate rt context request)
  | .dbBacked engine => engine.evaluate rt context request

def PolicyEngine.deniedBy : PolicyEngine → Option Rule
  | .static engine => engine.deniedBy rt context request
  | .dbBacked engine => engine.deniedBy rt context request

/-- The checks on parameters, and what comes after them. -/
def checkParameters (patterns gates : Dict (List String)) (rest : Except Exc PolicyDecision) : Except Exc PolicyDecision :=
  match matchedPattern rt request patterns with
  | some (param, pattern, text) => .ok (denyPattern rt param pattern text)
  | none =>
    match closedGate rt context request gates with
    | some (gate, roles) => .ok (denyGate rt gate roles)
    | none => rest

end Checks

/-- The request with other values of its parameters. -/
def withParameters (request : ToolRequest) (parameters : Dict PyVal) : ToolRequest :=
  { request with parameters }

/-! ## Early and late checks -/

variable {rt : Runtime} {context : ExecutionContext} {request : ToolRequest}

/-- The evaluation denies. -/
def Denies (decision : Except Exc PolicyDecision) : Prop := ∃ d, decision = .ok d ∧ d.allowed = false

lemma denies_deny (reason : String) : Denies (.ok (deny reason)) := ⟨_, rfl, rfl⟩

lemma not_denies_approve (b : Bool) : ¬ Denies (.ok (approve b)) := by
  rintro ⟨d, hd, hnot⟩
  obtain rfl := Except.ok.inj hd
  cases b <;> cases hnot

variable (rt context request) in
/-- How an engine comes to its decision on the request, whatever the values of the parameters are. -/
inductive Checked (engine : PolicyEngine) : Prop
  /-- A check before those on the parameters fails. -/
  | early {rule : Rule} : (∀ param pattern, rule ≠ .denyPattern param pattern) →
      (∀ parameters, engine.deniedBy rt context (withParameters request parameters) = some rule) →
      Denies (engine.evaluate rt context request) →
      (∀ parameters, engine.evaluate rt context (withParameters request parameters) =
        engine.evaluate rt context request) → Checked engine
  /-- The checks on the parameters are made. -/
  | late {patterns gates : Dict (List String)} {rule : Option Rule} {rest : Except Exc PolicyDecision} :
      (rule = some .rateLimit ∧ Denies rest ∨ rule = none ∧ ¬ Denies rest) →
      (∀ parameters, engine.deniedBy rt context (withParameters request parameters) =
        (parameterRule rt context (withParameters request parameters) patterns gates <|> rule)) →
      (∀ parameters, engine.evaluate rt context (withParameters request parameters) =
        checkParameters rt context (withParameters request parameters) patterns gates rest) → Checked engine

/-- A check before those on the parameters denies, for one reason. -/
lemma Checked.of_deny {engine : PolicyEngine} {rule : Rule} {reason : String}
    (hrule : ∀ param pattern, rule ≠ .denyPattern param pattern)
    (hdenied : ∀ parameters, engine.deniedBy rt context (withParameters request parameters) = some rule)
    (heval : ∀ parameters, engine.evaluate rt context (withParameters request parameters) = .ok (deny reason)) :
    Checked rt context request engine := by
  have hself : engine.evaluate rt context request = .ok (deny reason) := heval request.parameters
  refine .early hrule hdenied ?_ fun parameters => (heval parameters).trans hself.symm
  rw [hself]
  exact denies_deny reason

variable (rt context request) in
lemma checkParameters_ok (patterns gates : Dict (List String)) (d : PolicyDecision) :
    checkParameters rt context request patterns gates (.ok d) =
      .ok (match matchedPattern rt request patterns with
        | some (param, pattern, text) => denyPattern rt param pattern text
        | none =>
          match closedGate rt context request gates with
          | some (gate, roles) => denyGate rt gate roles
          | none => d) := by
  unfold checkParameters
  cases matchedPattern rt request patterns with
  | some m => rfl
  | none => cases closedGate rt context request gates <;> rfl

lemma static_checked (engine : StaticPolicyEngine) : Checked rt context request (.static engine) := by
  have hdenied : ∀ parameters, PolicyEngine.deniedBy rt context (withParameters request parameters) (.static engine) =
      engine.deniedBy rt context (withParameters request parameters) := fun _ => rfl
  have heval : ∀ parameters, PolicyEngine.evaluate rt context (withParameters request parameters) (.static engine) =
      .ok (engine.evaluate rt context (withParameters request parameters)) := fun _ => rfl
  unfold StaticPolicyEngine.deniedBy PolicyRuleSet.ruleOf at hdenied
  unfold StaticPolicyEngine.evaluate at heval
  dsimp only [withParameters] at hdenied heval
  cases hmiss : missingField rt context engine.ruleset.identityRequiredFields with
  | some field =>
    simp only [hmiss] at hdenied heval
    exact .of_deny (by simp) hdenied heval
  | none =>
    simp only [hmiss] at hdenied heval
    by_cases hallowed : request.toolName ∈ engine.ruleset.allowedTools
    swap
    · simp only [hallowed, not_false_iff, if_true, if_false] at hdenied heval
      exact .of_deny (by simp) hdenied heval
    simp only [hallowed, not_true, if_true, if_false] at hdenied heval
    cases hrule : engine.ruleset.tools.get? request.toolName with
    | none =>
      simp only [hrule] at hdenied heval
      exact .of_deny (by simp) hdenied heval
    | some rule =>
      simp only [hrule] at hdenied heval
      by_cases hvis : rule.visibleToRoles ≠ [] ∧ hasRole context rule.visibleToRoles = false
      · simp only [hvis, and_self, ne_eq, not_false_iff, if_true] at hdenied heval
        exact .of_deny (by simp) hdenied heval
      simp only [hvis, if_false] at hdenied heval
      by_cases hfn : request.functionName ∉ rule.allowedFunctions
      · simp only [hfn, not_false_iff, if_true] at hdenied heval
        exact .of_deny (by simp) hdenied heval
      simp only [hfn, if_false] at hdenied heval
      by_cases hroom : engine.callCounter context.sessionId ≥ engine.ruleset.rateLimitPerSession
      · simp only [hroom, if_true] at hdenied heval
        exact .late (Or.inl ⟨rfl, denies_deny _⟩) hdenied fun parameters =>
          (heval parameters).trans (checkParameters_ok ..).symm
      · simp only [hroom, if_false] at hdenied heval
        have happroves := not_denies_approve (request.functionName ∈ rule.requiresApprovalFunctions)
        exact .late (Or.inr ⟨rfl, happroves⟩) hdenied fun parameters => (heval parameters).trans (checkParameters_ok ..).symm

variable (rt context request) in
lemma checkParameters_eval (f : (q : Select) → q.Answer) (patterns : Dict (List String)) (t : String)
    (rest : Query PolicyDecision) :
    (match matchedPattern rt request patterns with
      | some (param, pattern, text) => pure (denyPattern rt param pattern text)
      | none => do
        let gates ← perform (.roleGates t)
        match closedGate rt context request gates with
        | some (gate, roles) => pure (denyGate rt gate roles)
        | none => rest : Query PolicyDecision).eval f =
      checkParameters rt context request patterns (f (.roleGates t)) (rest.eval f) := by
  unfold checkParameters
  cases matchedPattern rt request patterns with
  | some m => rfl
  | none =>
    dsimp only
    rw [eval_perform_bind]
    cases closedGate rt context request (f (.roleGates t)) <;> rfl

lemma db_checked (engine : DbBackedPolicyEngine) : Checked rt context request (.dbBacked engine) := by
  have hdenied : ∀ parameters, PolicyEngine.deniedBy rt context (withParameters request parameters) (.dbBacked engine) =
      engine.deniedBy rt context (withParameters request parameters) := fun _ => rfl
  have heval : ∀ parameters, PolicyEngine.evaluate rt context (withParameters request parameters) (.dbBacked engine) =
      engine.evaluate rt context (withParameters request parameters) := fun _ => rfl
  unfold DbBackedPolicyEngine.deniedBy identityFields at hdenied
  unfold DbBackedPolicyEngine.evaluate evaluateQuery at heval
  dsimp only [withParameters] at hdenied heval
  set S := engine.store with hS
  cases hmiss : missingField rt context ["user_id", "agent_id", "roles"] with
  | some field =>
    simp only [hmiss, eval_pure] at hdenied heval
    exact .of_deny (by simp) hdenied heval
  | none =>
    simp only [hmiss, eval_perform_bind] at hdenied heval
    by_cases hactive : hasRole context S.activeRoles = false
    · simp only [RuleStore.answer, hactive, if_true, eval_pure] at hdenied heval
      exact .of_deny (by simp) hdenied heval
    simp only [RuleStore.answer, hactive, Bool.true_eq_false, if_false, eval_perform_bind] at hdenied heval
    by_cases htool : S.toolExists request.toolName = false
    · simp only [htool, if_true, eval_pure] at hdenied heval
      exact .of_deny (by simp) hdenied heval
    simp only [htool, Bool.true_eq_false, if_false, eval_perform_bind] at hdenied heval
    by_cases hvis : S.visibilityRoles request.toolName ≠ [] ∧ hasRole context (S.visibilityRoles request.toolName) = false
    · simp only [RuleStore.answer, hvis, and_self, ne_eq, not_false_iff, if_true, eval_pure] at hdenied heval
      exact .of_deny (by simp) hdenied heval
    simp only [RuleStore.answer, hvis, if_false, eval_perform_bind] at hdenied heval
    by_cases hfn : request.functionName ∉ S.allowedFunctions request.toolName
    · simp only [hfn, not_false_iff, if_true, eval_pure] at hdenied heval
      exact .of_deny (by simp) hdenied heval
    simp only [hfn, if_false, eval_perform_bind] at hdenied heval
    have hlast := fun parameters => (heval parameters).trans (checkParameters_eval ..)
    rw [eval_await_bind] at hlast
    cases hlimit : S.rateLimitPerSession rt.chars with
    | error e =>
      simp only [RuleStore.answer, hlimit, id, Except.bind] at hdenied hlast
      refine .late (Or.inr ⟨rfl, ?_⟩) hdenied hlast
      rintro ⟨d, hd, -⟩
      cases hd
    | ok limit =>
      by_cases hroom : engine.callCounter context.sessionId ≥ limit
      · simp only [RuleStore.answer, hlimit, id, Except.bind, hroom, if_true, eval_pure] at hdenied hlast
        exact .late (Or.inl ⟨rfl, denies_deny _⟩) hdenied hlast
      · simp only [RuleStore.answer, hlimit, id, Except.bind, hroom, if_false, eval_perform_bind, eval_pure] at hdenied hlast
        exact .late (Or.inr ⟨rfl, not_denies_approve _⟩) hdenied hlast

variable (rt context request) in
/-- **How both engines decide.** -/
theorem checked (engine : PolicyEngine) : Checked rt context request engine := by
  cases engine with
  | static engine => exact static_checked engine
  | dbBacked engine => exact db_checked engine

/-- Which of the checks on parameters, and those after them, has failed. -/
lemma lateRule_cases {patterns gates : Dict (List String)} {late : Option Rule} {rule : Rule}
    (h : (parameterRule rt context request patterns gates <|> late) = some rule) :
    (∃ param pattern text, matchedPattern rt request patterns = some (param, pattern, text) ∧
        rule = .denyPattern param pattern) ∨
      (matchedPattern rt request patterns = none ∧ ∃ gate roles,
        closedGate rt context request gates = some (gate, roles) ∧ rule = .roleGate gate) ∨
      matchedPattern rt request patterns = none ∧ closedGate rt context request gates = none ∧ late = some rule := by
  unfold parameterRule at h
  cases hmatched : matchedPattern rt request patterns with
  | some m =>
    rw [hmatched] at h
    obtain rfl := Option.some.inj h
    exact Or.inl ⟨m.1, m.2.1, m.2.2, rfl, rfl⟩
  | none =>
    rw [hmatched] at h
    cases hgate : closedGate rt context request gates with
    | some g =>
      rw [hgate] at h
      obtain rfl := Option.some.inj h
      exact Or.inr (Or.inl ⟨rfl, g.1, g.2, rfl, rfl⟩)
    | none =>
      rw [hgate] at h
      exact Or.inr (Or.inr ⟨rfl, rfl, h⟩)

variable (rt context request) in
/-- A rule denies exactly when the engine denies. -/
theorem denies_iff_deniedBy (engine : PolicyEngine) :
    Denies (engine.evaluate rt context request) ↔ ∃ rule, engine.deniedBy rt context request = some rule := by
  cases checked rt context request engine with
  | early _ hdenied hdenies _ => exact iff_of_true hdenies ⟨_, hdenied request.parameters⟩
  | @late patterns gates late rest hlate hdenied heval =>
    have hdenied : engine.deniedBy rt context request = (parameterRule rt context request patterns gates <|> late) :=
      hdenied request.parameters
    have heval : engine.evaluate rt context request = checkParameters rt context request patterns gates rest :=
      heval request.parameters
    rw [hdenied, heval]
    unfold parameterRule checkParameters
    cases matchedPattern rt request patterns with
    | some m => exact iff_of_true (denies_deny _) ⟨_, rfl⟩
    | none =>
      cases closedGate rt context request gates with
      | some g => exact iff_of_true (denies_deny _) ⟨_, rfl⟩
      | none =>
        rcases hlate with ⟨rfl, hrest⟩ | ⟨rfl, hrest⟩
        · exact iff_of_true hrest ⟨_, rfl⟩
        · exact iff_of_false hrest (by simp)

/-! ## The same rule, for other values -/

/-- The texts have the same first forty characters, and both go on after them or neither does. -/
def SameStart (s t : String) : Prop :=
  s.toList.take 40 = t.toList.take 40 ∧ (s.toList.length > 40 ↔ t.toList.length > 40)

/-- What a reason tells of a text. -/
def excerpt (text : String) : String :=
  String.ofList (text.toList.take 40) ++ if text.toList.length > 40 then "..." else ""

lemma toList_excerpt (text : String) :
    (excerpt text).toList = text.toList.take 40 ++ if text.toList.length > 40 then ['.', '.', '.'] else [] := by
  unfold excerpt
  rw [String.toList_append, String.toList_ofList]
  congr 1
  split_ifs <;> rfl

theorem excerpt_eq_iff {s t : String} : excerpt s = excerpt t ↔ SameStart s t := by
  rw [← String.toList_inj, toList_excerpt, toList_excerpt]
  constructor
  · intro h
    have hlength := congrArg List.length h
    simp only [List.length_append, List.length_take] at hlength
    have hlong : s.toList.length > 40 ↔ t.toList.length > 40 := by
      split_ifs at hlength with hs ht ht <;> simp only [List.length_cons, List.length_nil] at hlength <;> omega
    refine ⟨?_, hlong⟩
    simp only [hlong] at h
    exact List.append_cancel_right h
  · rintro ⟨htake, hlong⟩
    simp only [htake, hlong]

/-- The excerpt is all of the text that the reason tells. -/
theorem denyPattern_eq_iff (hrepr : Function.Injective rt.repr) (param pattern s t : String) :
    denyPattern rt param pattern s = denyPattern rt param pattern t ↔ SameStart s t := by
  rw [← excerpt_eq_iff]
  constructor
  · intro h
    have hreason : toString (rt.repr (excerpt s)) = toString (rt.repr (excerpt t)) := by
      simpa [denyPattern, deny, excerpt] using h
    exact hrepr hreason
  · intro h
    have hreason : ∀ text, denyPattern rt param pattern text =
        deny s!"parameter '{param}' matched deny-pattern '{pattern}' (excerpt: {rt.repr (excerpt text)})" := fun _ => rfl
    rw [hreason, hreason, h]

lemma matchedPattern_argument {patterns : Dict (List String)} {param pattern text : String}
    (h : matchedPattern rt request patterns = some (param, pattern, text)) :
    argument rt request param = some text := by
  obtain ⟨⟨p, pats⟩, -, hp⟩ := List.exists_of_findSome?_eq_some h
  obtain ⟨text', harg, hfind⟩ := Option.bind_eq_some_iff.1 hp
  obtain ⟨pattern', -, heq⟩ := Option.map_eq_some_iff.1 hfind
  simp only [Prod.mk.injEq] at heq
  obtain ⟨rfl, -, rfl⟩ := heq
  exact harg

/-- A gate comes with its roles. -/
lemma closedGate_roles {request' : ToolRequest} {gates : Dict (List String)} {gate : String} {roles roles' : List String}
    (h : closedGate rt context request gates = some (gate, roles))
    (h' : closedGate rt context request' gates = some (gate, roles')) : roles = roles' := by
  have hroles := gates.get?_eq_some_iff.2 (List.mem_of_find?_eq_some h)
  have hroles' := gates.get?_eq_some_iff.2 (List.mem_of_find?_eq_some h')
  exact Option.some.inj (hroles.symm.trans hroles')

variable (rt context request) in
/-- **One rule denies for one reason**, up to the text that a deny-pattern is matched with. -/
theorem same_denial (engine : PolicyEngine) {parameters parameters' : Dict PyVal} {rule : Rule}
    (h : engine.deniedBy rt context (withParameters request parameters) = some rule)
    (h' : engine.deniedBy rt context (withParameters request parameters') = some rule) :
    (∀ param pattern, rule ≠ .denyPattern param pattern) ∧
        engine.evaluate rt context (withParameters request parameters) =
          engine.evaluate rt context (withParameters request parameters') ∨
      ∃ param pattern text text', rule = .denyPattern param pattern ∧
        argument rt (withParameters request parameters) param = some text ∧
        argument rt (withParameters request parameters') param = some text' ∧
        engine.evaluate rt context (withParameters request parameters) = .ok (denyPattern rt param pattern text) ∧
        engine.evaluate rt context (withParameters request parameters') = .ok (denyPattern rt param pattern text') := by
  cases checked rt context request engine with
  | early hrule hdenied _ heval =>
    obtain rfl := Option.some.inj ((hdenied parameters).symm.trans h)
    exact Or.inl ⟨hrule, (heval parameters).trans (heval parameters').symm⟩
  | @late patterns gates late rest hlate hdenied heval =>
    rw [hdenied] at h h'
    rw [heval, heval]
    unfold checkParameters
    have hrate : ∀ rule, late = some rule → rule = .rateLimit := by
      intro rule hrule
      rcases hlate with ⟨hlate, -⟩ | ⟨hlate, -⟩
      · exact Option.some.inj (hrule.symm.trans hlate)
      · cases hrule.symm.trans hlate
    rcases lateRule_cases h with ⟨param, pattern, text, hmatched, rfl⟩ | ⟨hmatched, gate, roles, hgate, rfl⟩ |
      ⟨hmatched, hgate, hrule⟩
    · -- a deny-pattern
      rcases lateRule_cases h' with ⟨param', pattern', text', hmatched', heq⟩ | ⟨-, gate, roles, -, heq⟩ | ⟨-, -, hrule⟩
      · obtain ⟨rfl, rfl⟩ := Rule.denyPattern.inj heq
        rw [hmatched, hmatched']
        exact Or.inr ⟨param, pattern, text, text', rfl, matchedPattern_argument hmatched,
          matchedPattern_argument hmatched', rfl, rfl⟩
      · cases heq
      · cases hrate _ hrule
    · -- a role gate
      rcases lateRule_cases h' with ⟨param, pattern, text, -, heq⟩ | ⟨hmatched', gate', roles', hgate', heq⟩ | ⟨-, -, hrule⟩
      · cases heq
      · obtain rfl := Rule.roleGate.inj heq
        obtain rfl := closedGate_roles hgate hgate'
        rw [hmatched, hmatched', hgate, hgate']
        exact Or.inl ⟨by simp, rfl⟩
      · cases hrate _ hrule
    · -- the rate limit
      obtain rfl := hrate _ hrule
      rcases lateRule_cases h' with ⟨param, pattern, text, -, heq⟩ | ⟨-, gate, roles, -, heq⟩ | ⟨hmatched', hgate', -⟩
      · cases heq
      · cases heq
      · rw [hmatched, hmatched', hgate, hgate']
        exact Or.inl ⟨by simp, rfl⟩

end Aimw.Policy
