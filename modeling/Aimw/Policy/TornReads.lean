import Aimw.Policy.Registry

/-!
# Decisions while the rules change

`DbBackedPolicyEngine._evaluate` reads the tables one `SELECT` at a time and in no transaction, while other
connections commit.  What it decides on is a patchwork: every table as it was when it was read, from committed states
that follow each other (`allowed_on_patchwork`).  Two changes that belong together can be seen half
(`torn_read_allows`).
-/

namespace Aimw.Policy

open Lib Coro

/-! ## Reading between commits -/

/-- The committed states of the store, in the order of the commits.  Before each `SELECT` other connections may
commit; the `SELECT` sees the latest state. -/
def Reading (u : CharTable) (history : List RuleStore) (q : Select) (a : q.Answer) (history' : List RuleStore) : Prop :=
  ∃ commits S, history' = history ++ commits ∧ history'.getLast? = some S ∧ a = S.answer u q

/-- The tables, in the order in which `_evaluate` reads them. -/
inductive Table
  | roles
  | tools
  | toolVisibilityRoles
  | toolFunctions
  | parameterDenyPatterns
  | parameterRoleGates
  | settings
  deriving DecidableEq

def Table.rank : Table → ℕ
  | roles => 0
  | tools => 1
  | toolVisibilityRoles => 2
  | toolFunctions => 3
  | parameterDenyPatterns => 4
  | parameterRoleGates => 5
  | settings => 6

/-- One value for each table, in this order. -/
def Table.pick {β : Type} (b₀ b₁ b₂ b₃ b₄ b₅ b₆ : β) : Table → β
  | roles => b₀
  | tools => b₁
  | toolVisibilityRoles => b₂
  | toolFunctions => b₃
  | parameterDenyPatterns => b₄
  | parameterRoleGates => b₅
  | settings => b₆

/-- The two stores have the same table. -/
def Table.Same : Table → RuleStore → RuleStore → Prop
  | roles, S, S' => S.roles = S'.roles
  | tools, S, S' => S.tools = S'.tools
  | toolVisibilityRoles, S, S' => S.toolVisibilityRoles = S'.toolVisibilityRoles
  | toolFunctions, S, S' => S.toolFunctions = S'.toolFunctions
  | parameterDenyPatterns, S, S' => S.parameterDenyPatterns = S'.parameterDenyPatterns
  | parameterRoleGates, S, S' => S.parameterRoleGates = S'.parameterRoleGates
  | settings, S, S' => S.settings = S'.settings

/-- Each table from its own state. -/
def patchwork (s : Table → RuleStore) : RuleStore where
  roles := (s .roles).roles
  tools := (s .tools).tools
  toolVisibilityRoles := (s .toolVisibilityRoles).toolVisibilityRoles
  toolFunctions := (s .toolFunctions).toolFunctions
  parameterDenyPatterns := (s .parameterDenyPatterns).parameterDenyPatterns
  parameterRoleGates := (s .parameterRoleGates).parameterRoleGates
  settings := (s .settings).settings
  roles_key := (s .roles).roles_key
  tools_key := (s .tools).tools_key
  visibility_key := (s .toolVisibilityRoles).visibility_key
  functions_key := (s .toolFunctions).functions_key
  settings_key := (s .settings).settings_key

/-- The tables were read in committed states that follow each other. -/
def ReadInOrder (history : List RuleStore) (s : Table → RuleStore) : Prop :=
  ∃ time : Table → ℕ, (∀ X Y, X.rank ≤ Y.rank → time X ≤ time Y) ∧ ∀ X, history[time X]? = some (s X)

/-! ## Tables -/

lemma Table.Same.symm {X : Table} {S S' : RuleStore} (h : X.Same S S') : X.Same S' S := by
  cases X <;> exact Eq.symm h

lemma Table.Same.trans {X : Table} {S S' S'' : RuleStore} (h : X.Same S S') (h' : X.Same S' S'') : X.Same S S'' := by
  cases X <;> exact Eq.trans h h'

lemma eq_of_same {S S' : RuleStore} (h : ∀ X : Table, X.Same S S') : S = S' := by
  cases S
  cases S'
  obtain rfl := h .roles
  obtain rfl := h .tools
  obtain rfl := h .toolVisibilityRoles
  obtain rfl := h .toolFunctions
  obtain rfl := h .parameterDenyPatterns
  obtain rfl := h .parameterRoleGates
  obtain rfl := h .settings
  rfl

lemma same_patchwork (s : Table → RuleStore) (X : Table) : X.Same (patchwork s) (s X) := by
  cases X <;> rfl

/-- Where the states differ in one table only, the patchwork is the state in which that table was read. -/
theorem patchwork_eq {s : Table → RuleStore} {S₀ : RuleStore} {X : Table}
    (h : ∀ Y Z : Table, Z ≠ X → Z.Same (s Y) S₀) : patchwork s = s X := by
  refine eq_of_same fun Y => ?_
  by_cases hY : Y = X
  · subst hY
    exact same_patchwork s Y
  · exact (same_patchwork s Y).trans ((h Y Y hY).trans (h X Y hY).symm)

lemma readInOrder_pick {history : List RuleStore} {S₁ S₂ S₃ S₄ S₅ S₆ S₇ : RuleStore} {n₁ n₂ n₃ n₄ n₅ n₆ n₇ : ℕ}
    (h₁₂ : n₁ ≤ n₂) (h₂₃ : n₂ ≤ n₃) (h₃₄ : n₃ ≤ n₄) (h₄₅ : n₄ ≤ n₅) (h₅₆ : n₅ ≤ n₆) (h₆₇ : n₆ ≤ n₇)
    (time₁ : history[n₁]? = some S₁) (time₂ : history[n₂]? = some S₂) (time₃ : history[n₃]? = some S₃)
    (time₄ : history[n₄]? = some S₄) (time₅ : history[n₅]? = some S₅) (time₆ : history[n₆]? = some S₆)
    (time₇ : history[n₇]? = some S₇) : ReadInOrder history (Table.pick S₁ S₂ S₃ S₄ S₅ S₆ S₇) := by
  refine ⟨Table.pick n₁ n₂ n₃ n₄ n₅ n₆ n₇, ?_, ?_⟩
  · intro X Y hXY
    cases X <;> cases Y <;> simp only [Table.rank, Table.pick] at hXY ⊢ <;> omega
  · intro X
    cases X
    exacts [time₁, time₂, time₃, time₄, time₅, time₆, time₇]

/-! ## Runs of `_evaluate` -/

section Runs

variable {rt : Runtime} {context : ExecutionContext} {request : ToolRequest} {u : CharTable}
  {history history' : List RuleStore} {tr : List ((q : Select) × q.Answer)}

/-- One `SELECT`, and the rest of the program. -/
lemma runs_select {α : Type} {q : Select} {g : q.Answer → Query α} {r : Except Exc α}
    (h : Runs (Reading u) history (perform q >>= g) tr r history') : ∃ commits S t,
      (history ++ commits).getLast? = some S ∧ Runs (Reading u) (history ++ commits) (g (S.answer u q)) t r history' := by
  obtain ⟨a, _, t, rfl, hE, h⟩ := runs_call_iff.1 h
  obtain ⟨commits, S, rfl, hlast, rfl⟩ := hE
  exact ⟨commits, S, t, hlast, h⟩

/-- One `SELECT` whose answer can be an exception. -/
lemma runs_await_select {α β : Type} {q : Select} {f : q.Answer → Except Exc β} {g : β → Query α} {a : α}
    (h : Runs (Reading u) history (await q f >>= g) tr (.ok a) history') : ∃ commits S b t,
      (history ++ commits).getLast? = some S ∧ f (S.answer u q) = .ok b ∧
        Runs (Reading u) (history ++ commits) (g b) t (.ok a) history' := by
  rcases runs_bind_iff.1 h with ⟨e, -, he⟩ | ⟨b, _, _, t, -, hread, h⟩
  · cases he
  · obtain ⟨_, -, ⟨commits, S, rfl, hlast, rfl⟩, hb⟩ := runs_await_iff.1 hread
    exact ⟨commits, S, b, t, hlast, hb.symm, h⟩

/-- Commits are not taken back. -/
lemma history_prefix {α : Type} {p : Query α} {r : Except Exc α} (h : Runs (Reading u) history p tr r history') :
    history <+: history' := by
  induction h with
  | ret => exact List.prefix_rfl
  | raise => exact List.prefix_rfl
  | call hE _ ih =>
    obtain ⟨commits, S, rfl, -, -⟩ := hE
    exact (List.prefix_append _ commits).trans ih

/-- The state that a `SELECT` saw, at its place among the states present in the end. -/
lemma getElem?_of_select {α : Type} {p : Query α} {r : Except Exc α} {S : RuleStore}
    (h : Runs (Reading u) history p tr r history') (hlast : history.getLast? = some S) :
    history'[history.length - 1]? = some S := by
  obtain ⟨rest, rfl⟩ := history_prefix h
  have hne : history ≠ [] := by
    rintro rfl
    cases hlast
  have hlt : history.length - 1 < history.length := Nat.sub_lt (List.length_pos_of_ne_nil hne) Nat.one_pos
  rw [List.getElem?_append_left hlt, ← List.getLast?_eq_getElem?]
  exact hlast

/-- While nothing is committed, the program comes to what it gives on the latest state. -/
theorem runs_of_eval {α : Type} {p : Query α} {r : Except Exc α} {S : RuleStore} (hlast : history.getLast? = some S)
    (h : p.eval (S.answer u) = r) : ∃ tr, Runs (Reading u) history p tr r history := by
  induction p with
  | ret a =>
    subst h
    exact ⟨[], .ret _ _⟩
  | raise e =>
    subst h
    exact ⟨[], .raise _ _⟩
  | call q k ih =>
    obtain ⟨tr, hrun⟩ := ih _ h
    exact ⟨_, .call ⟨[], S, by simp, hlast, rfl⟩ hrun⟩

/-- **What is allowed is allowed by a patchwork of committed states**, that were read in their order; whether an approval
is required is as the last state has it. -/
theorem allowed_on_patchwork {callCounter : String → ℤ} {d : PolicyDecision}
    (h : Runs (Reading rt.chars) history (evaluateQuery rt context request callCounter) tr (.ok d) history')
    (hd : d.allowed = true) :
    (∃ s : Table → RuleStore, ReadInOrder history' s ∧
        (DbBackedPolicyEngine.mk (patchwork s) callCounter).Allows rt context request) ∧
      ∃ S, history'.getLast? = some S ∧ d = approve (S.requiresApproval request.toolName request.functionName) := by
  have hdenied : ∀ {past : List RuleStore} {reason : String} {t : List ((q : Select) × q.Answer)},
      ¬ Runs (Reading rt.chars) past (pure (deny reason) : Query PolicyDecision) t (.ok d) history' := by
    intro past reason t hdeny
    obtain ⟨-, hdeny, -⟩ := runs_ret_iff.1 hdeny
    obtain rfl := Except.ok.inj hdeny
    cases hd
  unfold evaluateQuery at h
  cases hmiss : missingField rt context ["user_id", "agent_id", "roles"] with
  | some field =>
    rw [hmiss] at h
    exact absurd h hdenied
  | none =>
    rw [hmiss] at h
    obtain ⟨c₁, S₁, t₁, hlast₁, h⟩ := runs_select h
    have time₁ := getElem?_of_select h hlast₁
    by_cases hactive : hasRole context (S₁.answer rt.chars .activeRoles) = false
    · rw [if_pos hactive] at h
      exact absurd h hdenied
    rw [if_neg hactive] at h
    obtain ⟨c₂, S₂, t₂, hlast₂, h⟩ := runs_select h
    have time₂ := getElem?_of_select h hlast₂
    by_cases htool : S₂.answer rt.chars (.toolExists request.toolName) = false
    · rw [if_pos htool] at h
      exact absurd h hdenied
    rw [if_neg htool] at h
    obtain ⟨c₃, S₃, t₃, hlast₃, h⟩ := runs_select h
    have time₃ := getElem?_of_select h hlast₃
    by_cases hvis : S₃.answer rt.chars (.visibilityRoles request.toolName) ≠ [] ∧
        hasRole context (S₃.answer rt.chars (.visibilityRoles request.toolName)) = false
    · rw [if_pos hvis] at h
      exact absurd h hdenied
    rw [if_neg hvis] at h
    obtain ⟨c₄, S₄, t₄, hlast₄, h⟩ := runs_select h
    have time₄ := getElem?_of_select h hlast₄
    by_cases hfn : request.functionName ∉ S₄.answer rt.chars (.allowedFunctions request.toolName)
    · rw [if_pos hfn] at h
      exact absurd h hdenied
    rw [if_neg hfn] at h
    obtain ⟨c₅, S₅, t₅, hlast₅, h⟩ := runs_select h
    have time₅ := getElem?_of_select h hlast₅
    cases hpat : matchedPattern rt request (S₅.answer rt.chars (.denyPatterns request.toolName)) with
    | some m =>
      rw [hpat] at h
      exact absurd h hdenied
    | none =>
      rw [hpat] at h
      obtain ⟨c₆, S₆, t₆, hlast₆, h⟩ := runs_select h
      have time₆ := getElem?_of_select h hlast₆
      cases hgate : closedGate rt context request (S₆.answer rt.chars (.roleGates request.toolName)) with
      | some g =>
        rw [hgate] at h
        exact absurd h hdenied
      | none =>
        rw [hgate] at h
        obtain ⟨c₇, S₇, limit, t₇, hlast₇, hlimit, h⟩ := runs_await_select h
        have time₇ := getElem?_of_select h hlast₇
        by_cases hroom : callCounter context.sessionId ≥ limit
        · rw [if_pos hroom] at h
          exact absurd h hdenied
        have horder : ReadInOrder history' (Table.pick S₁ S₂ S₃ S₄ S₅ S₆ S₇) := by
          refine readInOrder_pick ?_ ?_ ?_ ?_ ?_ ?_ time₁ time₂ time₃ time₄ time₅ time₆ time₇
          all_goals exact Nat.sub_le_sub_right (List.prefix_append _ _).length_le 1
        refine ⟨⟨Table.pick S₁ S₂ S₃ S₄ S₅ S₆ S₇, horder, ?_⟩, ?_⟩
        · rw [db_allows_iff, db_permits_iff]
          refine ⟨hmiss, ⟨(Bool.not_eq_false _).mp hactive, (Bool.not_eq_false _).mp htool, ?_⟩, not_not.1 hfn, hpat, hgate,
            limit, hlimit, not_le.1 hroom⟩
          rw [not_and_or, not_not, Bool.not_eq_false] at hvis
          exact hvis
        · -- the last `SELECT` reads `tool_functions` again
          rw [if_neg hroom] at h
          obtain ⟨c₈, S₈, t₈, hlast₈, h⟩ := runs_select h
          obtain ⟨-, hdecided, rfl⟩ := runs_ret_iff.1 h
          exact ⟨S₈, hlast₈, Except.ok.inj hdecided⟩

/-- **A decision while the rules change.**  An allowed request is allowed by a patchwork of the committed states; where
the commits change one table only, a single state allows it.  Its approval requirement is that of the last state, whatever
the rows of `tool_functions` were when they opened the function. -/
theorem decided_on_patchwork {S₀ : RuleStore} {callCounter : String → ℤ} {d : PolicyDecision}
    (h : Runs (Reading rt.chars) [S₀] (evaluateQuery rt context request callCounter) tr (.ok d) history')
    (hd : d.allowed = true) :
    (∃ s : Table → RuleStore, ReadInOrder history' s ∧
        (DbBackedPolicyEngine.mk (patchwork s) callCounter).Allows rt context request) ∧
      (∀ X : Table, (∀ S ∈ history', ∀ Y : Table, Y ≠ X → Y.Same S S₀) →
        ∃ S ∈ history', (DbBackedPolicyEngine.mk S callCounter).Allows rt context request) ∧
      ∃ S, history'.getLast? = some S ∧ d = approve (S.requiresApproval request.toolName request.functionName) := by
  obtain ⟨⟨s, horder, hallows⟩, hrequired⟩ := allowed_on_patchwork h hd
  refine ⟨⟨s, horder, hallows⟩, fun X hX => ?_, hrequired⟩
  obtain ⟨time, -, htime⟩ := horder
  have hmem : ∀ Y, s Y ∈ history' := fun Y => List.mem_of_getElem? (htime Y)
  have hpatch : patchwork s = s X := patchwork_eq fun Y Z hZ => hX (s Y) (hmem Y) Z hZ
  exact ⟨s X, hmem X, hpatch ▸ hallows⟩

end Runs

/-! ### A function is added and reserved in one commit -/

/-- The example rules after one commit: the search tool has a new function, and is reserved to production admins. -/
def reindexReserved : RuleStore :=
  { seedExample with
    toolFunctions := seedExample.toolFunctions ++ [{ toolName := "search_tool", functionName := "reindex" }]
    toolVisibilityRoles := seedExample.toolVisibilityRoles ++
      [{ toolName := "search_tool", roleName := "ProductionAdmin" }]
    functions_key := by decide
    visibility_key := by decide }

/-- The example rules after one commit to `tool_functions`. -/
def reindexAdded : RuleStore :=
  { seedExample with
    toolFunctions := seedExample.toolFunctions ++ [{ toolName := "search_tool", functionName := "reindex" }]
    functions_key := by decide }

def executor : ExecutionContext where
  userId := "u1"
  agentId := "a1"
  sessionId := "s1"
  roles := ["AgentExecutor"]

/-- The commit of `S` falls between the reads of `tool_visibility_roles` and of `tool_functions`. -/
def reindexTrace (S : RuleStore) : List ((q : Select) × q.Answer) :=
  [⟨.activeRoles, seedExample.activeRoles⟩, ⟨.toolExists "search_tool", seedExample.toolExists "search_tool"⟩,
    ⟨.visibilityRoles "search_tool", seedExample.visibilityRoles "search_tool"⟩,
    ⟨.allowedFunctions "search_tool", S.allowedFunctions "search_tool"⟩,
    ⟨.denyPatterns "search_tool", S.denyPatterns "search_tool"⟩,
    ⟨.roleGates "search_tool", S.roleGates "search_tool"⟩,
    ⟨.rateLimitPerSession, S.rateLimitPerSession .ascii⟩,
    ⟨.requiresApproval "search_tool" "reindex", S.requiresApproval "search_tool" "reindex"⟩]

lemma reindex_run {S : RuleStore} (hS : S = reindexReserved ∨ S = reindexAdded) :
    Runs (Reading CharTable.ascii) [seedExample]
      (evaluateQuery plainRuntime executor (bareRequest "search_tool" "reindex" "c1") fun _ => 0) (reindexTrace S)
      (.ok (approve false)) [seedExample, S] := by
  have hread : ∀ (S : RuleStore) (history : List RuleStore) (q : Select), history.getLast? = some S →
      Reading .ascii history q (S.answer .ascii q) history := by
    intro S history q hlast
    exact ⟨[], S, by simp, hlast, rfl⟩
  have hcommit : Reading .ascii [seedExample] (.allowedFunctions "search_tool") (S.allowedFunctions "search_tool")
      [seedExample, S] := ⟨[S], S, rfl, rfl, rfl⟩
  unfold reindexTrace
  refine .call (hread seedExample _ _ rfl) ?_
  refine .call (hread seedExample _ _ rfl) ?_
  refine .call (hread seedExample _ _ rfl) ?_
  refine .call hcommit ?_
  rcases hS with rfl | rfl
  · refine .call (hread reindexReserved _ _ rfl) ?_
    refine .call (hread reindexReserved _ _ rfl) ?_
    refine .call (hread reindexReserved _ _ rfl) ?_
    refine .call (hread reindexReserved _ _ rfl) ?_
    exact .ret _ _
  · refine .call (hread reindexAdded _ _ rfl) ?_
    refine .call (hread reindexAdded _ _ rfl) ?_
    refine .call (hread reindexAdded _ _ rfl) ?_
    refine .call (hread reindexAdded _ _ rfl) ?_
    exact .ret _ _

theorem decided_on_patchwork_reindex : ∃ S ∈ [seedExample, reindexAdded],
    (DbBackedPolicyEngine.mk S fun _ => 0).Allows plainRuntime executor (bareRequest "search_tool" "reindex" "c1") := by
  have hrun : Runs (Reading plainRuntime.chars) [seedExample]
      (evaluateQuery plainRuntime executor (bareRequest "search_tool" "reindex" "c1") fun _ => 0)
      (reindexTrace reindexAdded) (.ok (approve false)) [seedExample, reindexAdded] := reindex_run (Or.inr rfl)
  refine (decided_on_patchwork hrun rfl).2.1 .toolFunctions ?_
  simp only [List.forall_mem_cons, List.not_mem_nil, false_implies, implies_true, and_true]
  refine ⟨fun Y _ => ?_, fun Y hY => ?_⟩
  · cases Y <;> rfl
  · cases Y with
    | toolFunctions => exact absurd rfl hY
    | _ => rfl

/-- The old rules do not have the function, and the new ones reserve the tool; the engine allows the call. -/
theorem torn_read_allows :
    ¬ ∀ (S₀ : RuleStore) (history' : List RuleStore) (context : ExecutionContext) (request : ToolRequest)
        (callCounter : String → ℤ) (tr : List ((q : Select) × q.Answer)) (d : PolicyDecision),
        Runs (Reading plainRuntime.chars) [S₀] (evaluateQuery plainRuntime context request callCounter) tr (.ok d)
          history' → d.allowed = true →
        ∃ S ∈ history', (DbBackedPolicyEngine.mk S callCounter).Allows plainRuntime context request := by
  intro hclaim
  obtain ⟨S, hS, d, hd, hallowed⟩ := hclaim _ _ _ _ _ _ _ (reindex_run (Or.inl rfl)) rfl
  have hold : (DbBackedPolicyEngine.mk seedExample fun _ => 0).evaluate plainRuntime executor
      (bareRequest "search_tool" "reindex" "c1") = .ok (deny "function not permitted: 'search_tool.reindex'") := rfl
  have hnew : (DbBackedPolicyEngine.mk reindexReserved fun _ => 0).evaluate plainRuntime executor
      (bareRequest "search_tool" "reindex" "c1") =
        .ok (deny "tool 'search_tool' requires one of roles ['ProductionAdmin']") := rfl
  rcases List.mem_cons.1 hS with rfl | hS
  · obtain rfl := Except.ok.inj (hold.symm.trans hd)
    cases hallowed
  · obtain rfl := List.mem_singleton.1 hS
    obtain rfl := Except.ok.inj (hnew.symm.trans hd)
    cases hallowed

end Aimw.Policy
