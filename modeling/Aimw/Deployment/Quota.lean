import Aimw.Deployment.Local

/-!
# The quota of an agent that runs pipelines

`Aimw.Gateway.Quota` counts calls of `handle_inbound`; here whole pipelines share a gateway and take turns.

* `gateway_of_advances` — where a pipeline is, from its token to its first question to the LLM;
* `quota_holds` — the first pipelines of an agent get through, as many as its limit leaves; no other one ever does
  anything but show its token.
-/

namespace Aimw

open Lib Coro Interceptor

variable {S : BaseSandbox} {u : CharTable} {rt : Interceptor.Runtime}

/-! ## At the gateway -/

section Gateway

variable (S u)

abbrev verifyEvent (call : PipelineCall) (a : Except Exc Bool) : SystemEvent S :=
  piped S ⟨.verify call.bearerToken call.context, a⟩

abbrev countEvent (call : PipelineCall) (n : ℤ) : SystemEvent S := piped S ⟨.countCall call.context.agentId, n⟩

/-- What a pipeline has done, and what is left of it. -/
inductive AtGateway (call : PipelineCall) :
    List (SystemEvent S) → Coro (SystemOp S) SystemOp.Answer Exc PipelineResult → Prop
  | verifying (p) : AtGateway call [] p
  | turnedAway {a : Except Exc Bool} {e : Exc} : a ≠ .ok true → AtGateway call [verifyEvent S call a] (.raise e)
  | counting (p) : AtGateway call [verifyEvent S call (.ok true)] p
  | limited {n : ℤ} : call.pipeline.gateway.rateLimitPerMinute < n →
      AtGateway call [verifyEvent S call (.ok true), countEvent S call n]
        (.raise (Gateway.rateLimitExceeded call.context.agentId))
  | rejected {n : ℤ} {e : Exc} : n ≤ call.pipeline.gateway.rateLimitPerMinute →
      call.pipeline.guardrail.inspectInput (Guardrails.mask u call.prompt) call.context = .error e →
      AtGateway call [verifyEvent S call (.ok true), countEvent S call n] (.raise e)
  | proposing {n : ℤ} {clean : String} (k) : n ≤ call.pipeline.gateway.rateLimitPerMinute →
      call.pipeline.guardrail.inspectInput (Guardrails.mask u call.prompt) call.context = .ok clean →
      AtGateway call [verifyEvent S call (.ok true), countEvent S call n]
        (.call (.pipeline (.proposeToolCalls clean call.context)) k)
  | passed {n : ℤ} {clean : String} (a) (rest : List (SystemEvent S)) (p) :
      n ≤ call.pipeline.gateway.rateLimitPerMinute →
      call.pipeline.guardrail.inspectInput (Guardrails.mask u call.prompt) call.context = .ok clean →
      AtGateway call (verifyEvent S call (.ok true) :: countEvent S call n ::
        piped S ⟨.proposeToolCalls clean call.context, a⟩ :: rest) p

variable (call : PipelineCall) (tr : List (SystemEvent S))
  (p : Option (Coro (SystemOp S) SystemOp.Answer Exc PipelineResult))

/-- Unless the guardrail rejects its prompt, the pipeline asks the LLM for tool calls. -/
def GoesOn : Prop :=
  ∀ clean, call.pipeline.guardrail.inspectInput (Guardrails.mask u call.prompt) call.context = .ok clean →
    (∃ k, p = some (.call (.pipeline (.proposeToolCalls clean call.context)) k)) ∨
      ∃ a, piped S ⟨.proposeToolCalls clean call.context, a⟩ ∈ tr

/-- The pipeline has shown its token, was one too many, and has ended. -/
def OneTooMany : Prop :=
  (∃ n, tr = [verifyEvent S call (.ok true), countEvent S call n]) ∧
    p = some (.raise (Gateway.rateLimitExceeded call.context.agentId))

end Gateway

/-- The call is none of the gateway's. -/
def isPastGateway : SystemOp S → Bool
  | .pipeline (.verify _ _) => false
  | .pipeline (.countCall _) => false
  | _ => true

theorem gateway_of_advances {call : PipelineCall} {tr : List (SystemEvent S)}
    {p : Coro (SystemOp S) SystemOp.Answer Exc PipelineResult} (h : Advances (call.program S u rt) tr p) :
    AtGateway S u call tr p := by
  rcases Advances.of_call h with ⟨rfl, -⟩ | ⟨a, tr, rfl, hverified⟩
  · exact .verifying p
  match a, hverified with
  | .error e, hverified =>
    obtain ⟨rfl, rfl⟩ := Advances.of_raise hverified
    exact .turnedAway (by simp)
  | .ok false, hverified =>
    obtain ⟨rfl, rfl⟩ := Advances.of_raise hverified
    exact .turnedAway (by simp)
  | .ok true, hverified =>
    rcases Advances.of_call hverified with ⟨rfl, -⟩ | ⟨n, tr, rfl, hcounted⟩
    · exact .counting p
    replace hcounted : Advances (((((if n > call.pipeline.gateway.rateLimitPerMinute then
        raise (Gateway.rateLimitExceeded call.context.agentId) else ret ()).bind
          fun _ => ret (Guardrails.mask u call.prompt)).bind fun masked =>
            (Coro.ofExcept (call.pipeline.guardrail.inspectInput masked call.context)).bind _) :
              PipelineProg PipelineResult).link _) tr p := hcounted
    by_cases hn : n > call.pipeline.gateway.rateLimitPerMinute
    · rw [if_pos hn] at hcounted
      obtain ⟨rfl, rfl⟩ := Advances.of_raise hcounted
      exact .limited hn
    rw [if_neg hn] at hcounted
    have hinput : Advances (((Coro.ofExcept (call.pipeline.guardrail.inspectInput (Guardrails.mask u call.prompt)
      call.context)).bind _ : PipelineProg PipelineResult).link _) tr p := hcounted
    cases hclean : call.pipeline.guardrail.inspectInput (Guardrails.mask u call.prompt) call.context with
    | error e =>
      rw [hclean] at hinput
      obtain ⟨rfl, rfl⟩ := Advances.of_raise hinput
      exact .rejected (not_lt.1 hn) hclean
    | ok clean =>
      rw [hclean] at hinput
      rcases Advances.of_call hinput with ⟨rfl, rfl⟩ | ⟨a, rest, rfl, -⟩
      · exact .proposing _ (not_lt.1 hn) hclean
      · exact .passed a rest p (not_lt.1 hn) hclean

/-! ## The counts -/

/-- What the agent's count came to, if the event counts a call of the agent. -/
def count? (agentId : String) : SystemEvent S → Option ℤ
  | ⟨.pipeline (.countCall id), n⟩ => if id = agentId then some n else none
  | _ => none

section Once

variable {call : PipelineCall} {agentId : String}

lemma count_eq_none {e : SystemEvent S} (h : ∀ id, e.1 ≠ .pipeline (.countCall id)) : count? agentId e = none := by
  unfold count?
  split
  · exact absurd rfl (h _)
  · rfl

lemma filterMap_counted (n : ℤ) (rest : List (SystemEvent S)) :
    (verifyEvent S call (.ok true) :: countEvent S call n :: rest).filterMap (count? call.context.agentId) =
      n :: rest.filterMap (count? call.context.agentId) := by
  have hcount : count? call.context.agentId (countEvent S call n) = some n := if_pos rfl
  rw [List.filterMap_cons_none rfl, List.filterMap_cons_some hcount]

/-- What is seen of a call of the pipeline, in the calls that carry it out. -/
lemma count_interceptCall {World : Type} {E : World → (q : SystemOp S) → q.Answer → World → Prop} {w w' : World}
    {ic : ToolCallInterceptor} {t : List (SystemEvent S)} (q : PipelineOp) (a : q.Answer)
    (h : Runs E w (interceptCall S rt ic q) t (.ok a) w') :
    t.filterMap (count? agentId) = (count? agentId (piped S ⟨q, a⟩)).toList := by
  cases hq : isHandle q with
  | false =>
    obtain rfl := runs_interceptCall hq h
    cases hcount : count? agentId (piped S ⟨q, a⟩) <;> simp [hcount]
  | true =>
    cases q with
    | handle context request =>
      obtain ⟨t, rfl, -⟩ := runs_interceptCall_handle h
      exact List.filterMap_eq_nil_iff.2 fun e he => by
        obtain ⟨e, -, rfl⟩ := List.mem_map.1 he
        rfl
    | _ => cases hq

variable (S agentId) in
lemma Handled.count_nil {context : ExecutionContext} {calls : List ProposedToolCall} {t : List PipelineEvent}
    {r : Except Exc (List InterceptorResult)} (h : Handled context calls t r) :
    t.flatMap (fun e => (count? agentId (piped S e)).toList) = [] := by
  induction h with
  | nil => rfl
  | raised => rfl
  | cons call result _ ih => simpa [count?] using ih

variable (S agentId) in
lemma GatewayPath.count {g : List PipelineEvent} {r : Except Exc String}
    (h : GatewayPath u call.prompt call.bearerToken call.context call.pipeline.gateway g r) :
    g.flatMap (fun e => (count? agentId (piped S e)).toList) = [] ∨ call.context.agentId = agentId ∧
      ∃ n, g.flatMap (fun e => (count? agentId (piped S e)).toList) = [n] := by
  by_cases hagent : call.context.agentId = agentId
  · cases h with
    | raised | unverified => exact Or.inl rfl
    | @limited n | @passed n => exact Or.inr ⟨hagent, n, by simp [count?, hagent]⟩
  · cases h <;> exact Or.inl (by simp [count?, hagent])

variable (agentId) in
/-- **A pipeline is counted once at most**, and for its own agent. -/
theorem counted_once {tr : List (SystemEvent S)} {p : Coro (SystemOp S) SystemOp.Answer Exc PipelineResult}
    (h : Advances (call.program S u rt) tr p) : tr.filterMap (count? agentId) = [] ∨
      call.context.agentId = agentId ∧ ∃ n, tr.filterMap (count? agentId) = [n] := by
  obtain ⟨tr', r, hrest⟩ := Coro.exists_runs p
  obtain ⟨outer, hruns, himpl⟩ := runs_link_iff.1 (h.runs hrest)
  have hobserved := himpl.observed (f := count? agentId) (g := fun e => (count? agentId (piped S e)).toList)
    fun q a _ _ _ hrun => count_interceptCall q a hrun
  have houter : outer.flatMap (fun e => (count? agentId (piped S e)).toList) = [] ∨ call.context.agentId = agentId ∧
      ∃ n, outer.flatMap (fun e => (count? agentId (piped S e)).toList) = [n] := by
    cases run_path hruns with
    | turnedAway hgateway => exact hgateway.count S agentId
    | rejected hgateway => exact hgateway.count S agentId
    | unproposed hgateway => simpa [List.flatMap_append, count?] using hgateway.count S agentId
    | stopped hgateway _ hhandled =>
      have hnone := hhandled.count_nil S agentId
      rw [List.flatMap_append, List.flatMap_cons, hnone]
      simpa [count?] using hgateway.count S agentId
    | completed a hgateway _ hhandled =>
      have hnone := hhandled.count_nil S agentId
      rw [List.flatMap_append, List.flatMap_cons, List.flatMap_append, hnone]
      simpa [count?] using hgateway.count S agentId
  rw [← hobserved, List.filterMap_append] at houter
  rcases houter with hnil | ⟨hagent, n, hone⟩
  · exact Or.inl (List.append_eq_nil_iff.1 hnil).1
  · rcases List.append_eq_singleton_iff.1 hone with ⟨hnil, -⟩ | ⟨hone, -⟩
    · exact Or.inl hnil
    · exact Or.inr ⟨hagent, n, hone⟩

end Once

section Outcome

variable {call : PipelineCall} {tr : List (SystemEvent S)} {p : Coro (SystemOp S) SystemOp.Answer Exc PipelineResult}

/-- What became of a pipeline that was counted. -/
lemma AtGateway.outcome (h : AtGateway S u call tr p) {c : ℤ}
    (hone : tr.filterMap (count? call.context.agentId) = [c]) :
    if c ≤ call.pipeline.gateway.rateLimitPerMinute then GoesOn S u call tr (some p)
    else OneTooMany S call tr (some p) := by
  cases h with
  | verifying | turnedAway | counting => cases hone
  | @limited n hn =>
    rw [filterMap_counted] at hone
    obtain ⟨rfl, -⟩ := List.cons.inj hone
    rw [if_neg (not_le.2 hn)]
    exact ⟨⟨n, rfl⟩, rfl⟩
  | @rejected n e hn he =>
    rw [filterMap_counted] at hone
    obtain ⟨rfl, -⟩ := List.cons.inj hone
    rw [if_pos hn]
    intro clean hclean
    cases he.symm.trans hclean
  | @proposing n clean k hn hclean =>
    rw [filterMap_counted] at hone
    obtain ⟨rfl, -⟩ := List.cons.inj hone
    rw [if_pos hn]
    intro clean' hclean'
    obtain rfl := Except.ok.inj (hclean.symm.trans hclean')
    exact Or.inl ⟨k, rfl⟩
  | @passed n clean a rest p hn hclean =>
    rw [filterMap_counted] at hone
    obtain ⟨rfl, -⟩ := List.cons.inj hone
    rw [if_pos hn]
    intro clean' hclean'
    obtain rfl := Except.ok.inj (hclean.symm.trans hclean')
    exact Or.inr ⟨a, by simp⟩

/-- A pipeline that has come past the gateway was counted, and kept the limit. -/
lemma AtGateway.within (h : AtGateway S u call tr p) {e : SystemEvent S} (he : e ∈ tr) (hpast : isPastGateway e.1 = true) :
    ∃ n ≤ call.pipeline.gateway.rateLimitPerMinute, n ∈ tr.filterMap (count? call.context.agentId) := by
  have hnot : ∀ {t : List (SystemEvent S)}, (∀ e ∈ t, isPastGateway e.1 = false) → e ∉ t := by
    intro t ht hmem
    exact absurd ((ht e hmem).symm.trans hpast) (by simp)
  cases h with
  | passed a rest p hn hclean =>
    rw [filterMap_counted]
    exact ⟨_, hn, List.mem_cons_self⟩
  | _ => exact absurd he (hnot (by simp [isPastGateway]))

end Outcome

section Loop

variable {ι World : Type} [DecidableEq ι] {suspends : SystemOp S → Bool}
  {E : World → (q : SystemOp S) → q.Answer → World → Prop} {outside : World → World → Prop} {calls : ι → PipelineCall}
  {world : World} {s : Loop ι World (SystemOp S) SystemOp.Answer Exc PipelineResult} {counts : World → Gateway.CallCounts}
  {agentId : String} {i : ι}

variable (E outside counts) in
/-- The counts are those of one gateway: counting a call adds to the count of its agent, and nothing else changes a
count. -/
structure KeepsCounts : Prop where
  counted : ∀ w id n w', E w (.pipeline (.countCall id)) n w' →
    n = counts w id + 1 ∧ counts w' = Function.update (counts w) id n
  others : ∀ w q a w', E w q a w' → (∀ id, q ≠ .pipeline (.countCall id)) → counts w' = counts w
  outside : ∀ w w', outside w w' → counts w' = counts w

variable (agentId) in
/-- The pipelines that were counted for the agent, in their order, with what the count came to. -/
abbrev countedFor (past : List (Moment ι World (SystemOp S) SystemOp.Answer)) : List (ι × ℤ) := seen (count? agentId) past

variable (agentId) in
/-- One call: the count of the agent goes up by one if the call is counted for it, and the call is told so. -/
lemma KeepsCounts.step (hkeeps : KeepsCounts E outside counts) {w w' : World} {q : SystemOp S} {a : q.Answer}
    (hE : E w q a w') : counts w' agentId = counts w agentId + (count? agentId (⟨q, a⟩ : SystemEvent S)).toList.length ∧
      ∀ c, count? agentId (⟨q, a⟩ : SystemEvent S) = some c → c = counts w agentId + 1 := by
  by_cases hq : ∃ id, q = .pipeline (.countCall id)
  · obtain ⟨id, rfl⟩ := hq
    obtain ⟨rfl, hupdate⟩ := hkeeps.counted _ _ _ _ hE
    by_cases hid : id = agentId
    · subst hid
      simp [count?, hupdate]
    · simp [count?, hid, hupdate, Function.update_of_ne (Ne.symm hid)]
  · have hnone : count? agentId (⟨q, a⟩ : SystemEvent S) = none := count_eq_none fun id hid => hq ⟨id, hid⟩
    rw [hnone, hkeeps.others _ _ _ _ hE fun id hid => hq ⟨id, hid⟩]
    simp

variable (agentId) in
/-- **The counts go up one by one**, each pipeline being told how many were counted before it. -/
theorem counts_of_reached (hkeeps : KeepsCounts E outside counts)
    (h : Reached suspends E outside (fun i => (calls i).program S u rt) world s) :
    counts s.world agentId = counts world agentId + (countedFor agentId s.past).length ∧
      ∀ (n : ℕ) i c, (countedFor agentId s.past)[n]? = some (i, c) → c = counts world agentId + n + 1 := by
  induction h with
  | init => exact ⟨(add_zero _).symm, fun n i c hn => by cases hn⟩
  | start _ _ _ _ ih => exact ih
  | moved _ hout ih =>
    rw [hkeeps.outside _ _ hout]
    exact ih
  | @resume s i q k a w _ _ _ hE ih =>
    obtain ⟨hworld, hpast⟩ := ih
    obtain ⟨hcounts, htold⟩ := hkeeps.step agentId hE
    have hseen : countedFor agentId (s.past ++ [⟨i, ⟨q, a⟩, s.world, w⟩]) =
        countedFor agentId s.past ++ ((count? agentId (⟨q, a⟩ : SystemEvent S)).map fun c => (i, c)).toList := by
      rw [countedFor, seen_append]
      cases hcount : count? agentId (⟨q, a⟩ : SystemEvent S) <;> simp [seen, hcount]
    dsimp only
    rw [hseen]
    cases hcount : count? agentId (⟨q, a⟩ : SystemEvent S) with
    | none =>
      rw [hcounts, hcount]
      simpa using ⟨hworld, hpast⟩
    | some c =>
      rw [hcount] at hcounts
      refine ⟨?_, fun n j d hn => ?_⟩
      · rw [hcounts, hworld, List.length_append]
        push_cast
        exact add_assoc _ _ _
      · rw [List.getElem?_append] at hn
        split_ifs at hn with hlt
        · exact hpast n j d hn
        · -- the new entry is the last one
          have hlast : n = (countedFor agentId s.past).length := by
            have := (List.getElem?_eq_some_iff.1 hn).1
            simp only [Option.map_some, Option.toList_some, List.length_singleton] at this
            omega
          subst hlast
          obtain ⟨rfl, rfl⟩ : j = i ∧ d = c := by simpa [eq_comm] using hn
          rw [htold d hcount, hworld]

/-- A pipeline that is counted for the agent is one of the agent's, is counted once, and is told what it was told. -/
lemma counted_iff (h : Reached suspends E outside (fun i => (calls i).program S u rt) world s) {c : ℤ} :
    (i, c) ∈ countedFor agentId s.past ↔
      (calls i).context.agentId = agentId ∧ (own i s.past).filterMap (count? agentId) = [c] := by
  have hown := seen_own (count? agentId) i s.past
  constructor
  · intro hmem
    have hc : (i, c) ∈ ((own i s.past).filterMap (count? agentId)).map fun n => (i, n) :=
      hown ▸ List.mem_filter.2 ⟨hmem, decide_eq_true rfl⟩
    obtain ⟨c', hc', heq⟩ := List.mem_map.1 hc
    obtain ⟨-, rfl⟩ := Prod.mk.inj heq
    obtain ⟨e, he, -⟩ := List.mem_filterMap.1 hc'
    obtain ⟨p, -, hadvances⟩ := h.advances_of_mem he
    rcases counted_once agentId hadvances with hnil | ⟨hagent, n, hone⟩
    · rw [hnil] at hc'
      cases hc'
    · rw [hone, List.mem_singleton] at hc'
      exact ⟨hagent, hc' ▸ hone⟩
  · rintro ⟨-, hone⟩
    rw [hone] at hown
    have hmem : (i, c) ∈ (countedFor agentId s.past).filter fun x => x.1 = i := hown ▸ List.mem_cons_self
    exact (List.mem_filter.1 hmem).1

lemma nodup_countedFor (h : Reached suspends E outside (fun i => (calls i).program S u rt) world s) :
    ((countedFor agentId s.past).map Prod.fst).Nodup := by
  refine List.nodup_iff_count_le_one.2 fun i => ?_
  have hown := congrArg List.length (seen_own (count? agentId) i s.past)
  rw [← List.countP_eq_length_filter, List.length_map] at hown
  rw [List.count, List.countP_map]
  refine (List.countP_congr fun x _ => ?_).trans_le (hown.trans_le ?_)
  · simp
  · cases hi : s.tasks i with
    | none => simp [h.own_advances.2 hi]
    | some p =>
      rcases counted_once agentId (h.advances hi) with hnil | ⟨-, n, hone⟩
      · simp [hnil]
      · simp [hone]

/-- A pipeline that has come past the gateway is among the first that were counted, as many as the limit leaves. -/
lemma first_of_pastGateway (hkeeps : KeepsCounts E outside counts)
    (h : Reached suspends E outside (fun i => (calls i).program S u rt) world s) {limit : ℤ}
    (hlimit : (calls i).pipeline.gateway.rateLimitPerMinute = limit) (hagent : (calls i).context.agentId = agentId)
    {e : SystemEvent S} (he : e ∈ own i s.past) (hpast : isPastGateway e.1 = true) :
    i ∈ ((countedFor agentId s.past).take (limit - counts world agentId).toNat).map Prod.fst := by
  obtain ⟨p, hp, hadvances⟩ := h.advances_of_mem he
  obtain ⟨c, hc, hmem⟩ := (gateway_of_advances hadvances).within he hpast
  rw [hlimit] at hc
  rw [hagent] at hmem
  have hone : (own i s.past).filterMap (count? agentId) = [c] := by
    rcases counted_once agentId hadvances with hnil | ⟨-, c', hone⟩
    · rw [hnil] at hmem
      cases hmem
    · rw [hone, List.mem_singleton] at hmem
      rw [hone, hmem]
  obtain ⟨n, hn⟩ := List.mem_iff_getElem?.1 ((counted_iff h).2 ⟨hagent, hone⟩)
  have hlt : n < (limit - counts world agentId).toNat := by
    have hcount := (counts_of_reached agentId hkeeps h).2 n i c hn
    omega
  have htake : (i, c) ∈ (countedFor agentId s.past).take (limit - counts world agentId).toNat :=
    List.mem_of_getElem? ((List.getElem?_take_of_lt hlt).trans hn)
  exact List.mem_map.2 ⟨(i, c), htake, rfl⟩

/-- **The quota of an agent holds over pipelines** that take turns: the count goes up with every pipeline whose token was
good, the first of them go on, as many as the limit leaves, and the others have ended.  So no more of them than that have
ever asked the LLM, the reviewer or a sandbox for anything. -/
theorem quota_holds (hkeeps : KeepsCounts E outside counts)
    (h : Reached suspends E outside (fun i => (calls i).program S u rt) world s) {limit : ℤ}
    (hlimit : ∀ i, (calls i).context.agentId = agentId → (calls i).pipeline.gateway.rateLimitPerMinute = limit) :
    counts s.world agentId = counts world agentId + (countedFor agentId s.past).length ∧
      ((countedFor agentId s.past).map Prod.fst).Nodup ∧
      (∀ (n : ℕ) i c, (countedFor agentId s.past)[n]? = some (i, c) →
        if counts world agentId + n < limit then GoesOn S u (calls i) (own i s.past) (s.tasks i)
        else OneTooMany S (calls i) (own i s.past) (s.tasks i)) ∧
      ∀ through : Finset ι,
        (∀ i ∈ through, (calls i).context.agentId = agentId ∧ ∃ e ∈ own i s.past, isPastGateway e.1 = true) →
        (through.card : ℤ) ≤ max 0 (limit - counts world agentId) := by
  obtain ⟨hworld, hcounted⟩ := counts_of_reached agentId hkeeps h
  refine ⟨hworld, nodup_countedFor h, fun n i c hn => ?_, fun through hthrough => ?_⟩
  · obtain ⟨hagent, hone⟩ := (counted_iff h).1 (List.mem_of_getElem? hn)
    subst hagent
    have hmem : c ∈ (own i s.past).filterMap (count? (calls i).context.agentId) := hone ▸ List.mem_cons_self
    obtain ⟨e, he, -⟩ := List.mem_filterMap.1 hmem
    obtain ⟨p, hp, hadvances⟩ := h.advances_of_mem he
    have houtcome := (gateway_of_advances hadvances).outcome hone
    rw [hlimit i rfl, hcounted n i c hn] at houtcome
    rw [hp]
    simpa only [Int.add_one_le_iff] using houtcome
  · have hfirst : through ⊆
        (((countedFor agentId s.past).take (limit - counts world agentId).toNat).map Prod.fst).toFinset := by
      intro i hi
      obtain ⟨hagent, e, he, hpast⟩ := hthrough i hi
      exact List.mem_toFinset.2 (first_of_pastGateway hkeeps h (hlimit i hagent) hagent he hpast)
    have hcard : through.card ≤ (limit - counts world agentId).toNat := by
      calc through.card ≤ _ := Finset.card_le_card hfirst
        _ ≤ _ := List.toFinset_card_le _
        _ ≤ (limit - counts world agentId).toNat := by
          rw [List.length_map]
          exact List.length_take_le _ _
    omega

end Loop

/-- The stand-ins of `Aimw.Deployment.Local` share one gateway. -/
lemma local_keepsCounts {prt : Policy.Runtime} {verifier : StaticBearerTokenVerifier} {ruleset : Policy.PolicyRuleSet}
    {grants : String → Prop} :
    KeepsCounts (LocalAnswers S prt verifier ruleset) (Operated grants) LocalWorld.callCounts where
  counted w id n w' h := by
    cases h with
    | counted => exact ⟨rfl, rfl⟩
    | other _ hlocal => cases hlocal
  others w q a w' h hq := by
    cases h with
    | counted id => exact absurd rfl (hq id)
    | _ => rfl
  outside w w' h := by
    cases h <;> rfl

/-! ### A second pipeline of the same agent -/

section Sample

/-- The agent may run one pipeline. -/
def oncePipeline : PipelineCall :=
  { deployPipeline with pipeline := { deployPipeline.pipeline with gateway := { rateLimitPerMinute := 1 } } }

/-- Two pipelines of one agent. -/
def twice : Bool → PipelineCall := fun _ => oncePipeline

abbrev onceRun (w : LocalWorld) : List (SystemEvent sampleSandbox) × Except Exc PipelineResult × LocalWorld :=
  (oncePipeline.program sampleSandbox .ascii sampleRuntime).run answerLocally w

theorem quota_holds_deploy : ∃ s, Reached (fun _ => true)
      (LocalAnswers sampleSandbox Policy.plainRuntime {} Policy.exampleRuleset) (Operated fun _ => False)
      (fun i => (twice i).program sampleSandbox .ascii sampleRuntime) decidedWorld s ∧
    OneTooMany sampleSandbox oncePipeline (own true s.past) (s.tasks true) := by
  have hrest : ∀ p : Coro (SystemOp sampleSandbox) SystemOp.Answer Exc PipelineResult, AtRest (fun _ => true) p := by
    intro p
    cases p <;> trivial
  have hruns := fun w => runs_run answerLocally_answers (oncePipeline.program sampleSandbox .ascii sampleRuntime) w
  have hinit : Reached (fun _ => true) (LocalAnswers sampleSandbox Policy.plainRuntime {} Policy.exampleRuleset)
      (Operated fun _ => False) (fun i => (twice i).program sampleSandbox .ascii sampleRuntime) decidedWorld
      ⟨decidedWorld, fun _ => none, []⟩ := .init
  obtain ⟨p₁, past₁, -, -, hothers, hfirst⟩ := hinit.run_through (i := false) rfl (fun _ p _ => hrest p)
    (hruns decidedWorld)
  obtain ⟨p₂, past₂, -, hown, -, hsecond⟩ := hfirst.run_through (i := true) rfl (fun _ p _ => hrest p)
    (hruns (onceRun decidedWorld).2.2)
  refine ⟨_, hsecond, ?_⟩
  have hwhole : own true ([] ++ past₁ ++ past₂) = (onceRun (onceRun decidedWorld).2.2).1 := by
    rw [List.nil_append, own_append, hothers true (by decide), List.nil_append, hown]
  have hcount : (onceRun (onceRun decidedWorld).2.2).1.filterMap (count? Policy.productionAdmin.agentId) = [2] := rfl
  have hmem : (true, 2) ∈ countedFor Policy.productionAdmin.agentId ([] ++ past₁ ++ past₂) :=
    (counted_iff hsecond).2 ⟨rfl, hwhole ▸ hcount⟩
  obtain ⟨n, hn⟩ := List.mem_iff_getElem?.1 hmem
  have htwo : 2 = decidedWorld.callCounts Policy.productionAdmin.agentId + n + 1 :=
    (counts_of_reached _ local_keepsCounts hsecond).2 n true 2 hn
  have hlimit : ∀ i, (twice i).context.agentId = Policy.productionAdmin.agentId →
      (twice i).pipeline.gateway.rateLimitPerMinute = 1 := fun _ _ => rfl
  have hquota := (quota_holds local_keepsCounts hsecond hlimit).2.2.1 n true 2 hn
  have hfresh : decidedWorld.callCounts Policy.productionAdmin.agentId = 0 := rfl
  have hfull : ¬ decidedWorld.callCounts Policy.productionAdmin.agentId + n < 1 := by omega
  rwa [if_neg hfull] at hquota

end Sample

end Aimw
