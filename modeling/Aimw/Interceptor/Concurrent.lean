import Aimw.Audit.History
import Aimw.Audit.Drift
import Aimw.Interceptor.Authorization
import Aimw.Lib.EventLoop

/-!
# Calls at the same time

Any number of calls of `handle` on one event loop, which take turns at their `await`s.  `log_call` is the last thing a
call does and it is not interrupted, so the file holds one record for each call that has ended, in one chain
(`concurrent_chain`), if what is logged is faithful.
-/

namespace Aimw.Interceptor

open Lib Audit Coro ToolCallInterceptor

/-! ## The calls and what they write -/

instance : (q : Op) → Nonempty q.Answer
  | .check _ _ => ⟨.ok true⟩
  | .evaluateToolCall _ _ _ => ⟨.exceeded⟩
  | .approvalCallback _ _ _ => ⟨.ok true⟩
  | .monotonic => ⟨.nan⟩
  | .execute _ _ => ⟨.error .cancelledError⟩
  | .recordResult _ _ _ => ⟨.ok ()⟩
  | .logCall _ _ _ _ => ⟨.error .cancelledError⟩

/-- The program of a call. -/
def handler {ι : Type} (rt : Runtime) (ic : ToolCallInterceptor) (calls : ι → ExecutionContext × ToolRequest) (i : ι) :
    Prog InterceptorResult := ic.handle rt (calls i).1 (calls i).2

/-- The record that a call of `log_call` returned. -/
def writtenRecord : Event → Option AuditRecord
  | ⟨.logCall _ _ _ _, .ok record⟩ => some record
  | _ => none

/-- The records that were written, with the calls that wrote them. -/
def written {ι W : Type} (past : List (Moment ι W Op Op.Answer)) : List (ι × AuditRecord) :=
  past.filterMap fun m => (writtenRecord m.event).map fun record => (m.task, record)

def isLog : Op → Bool
  | .logCall _ _ _ _ => true
  | _ => false

lemma isLog_of_isWork {q : Op} (h : isWork q = true) : isLog q = false := by
  cases q <;> first | rfl | cases h

lemma writtenRecord_of_not_log {e : Event} (h : isLog e.1 = false) : writtenRecord e = none := by
  obtain ⟨q, a⟩ := e
  cases q <;> first | rfl | cases h

variable {rt : Runtime} {ic : ToolCallInterceptor} {context : ExecutionContext} {request : ToolRequest}

/-! ## One call -/

variable (ic context request) in
/-- A call without a circuit breaker decides and executes, and then logs what came of it. -/
def Ended (tr : Trace) (v : Locals) (a : Except Exc AuditRecord) (r : Except Exc InterceptorResult) : Prop :=
  ∃ t out, BodyPath ic context request t v out ∧ tr = t ++ [logged context request v.decision v.sandboxResult a] ∧
    r = (wrapped v.decision v.sandboxResult a).bind fun res => out.map fun _ => res

lemma ended_of_path {tr : Trace} {r : Except Exc InterceptorResult} (hnone : ic.circuitBreaker = false)
    (h : HandlePath ic context request tr r) : ∃ v a, Ended ic context request tr v a r := by
  have hgate : ∀ {g : Trace} {b : Bool}, GatePath ic context request g (.ok b) → b = false ∧ g = [] := by
    intro g b hg
    rcases hg.ok_eq with ⟨-, rfl, rfl⟩ | ⟨hsome, -⟩
    · exact ⟨rfl, rfl⟩
    · exact absurd (hnone.symm.trans hsome) (by simp)
  cases h with
  | gateRaised hg => exact absurd (hnone.symm.trans hg.error_eq.1) (by simp)
  | circuitOpen hg _ => cases (hgate hg).1
  | @decided g t v out a hg hbody =>
    obtain ⟨-, rfl⟩ := hgate hg
    exact ⟨v, a, t, out, hbody, rfl, rfl⟩

/-- The body does not write to the log. -/
lemma BodyPath.silent_log {t : Trace} {v : Locals} {out : Except Exc Unit} (h : BodyPath ic context request t v out) :
    ∀ e ∈ t, isLog e.1 = false := by
  rcases h.ending with ⟨hworking, -⟩ | ⟨u, s, a, hworking, -, -, -, rfl⟩
  · exact fun e he => isLog_of_isWork (hworking e he)
  · refine List.forall_mem_append.2 ⟨fun e he => isLog_of_isWork (hworking e he), ?_⟩
    simp [isLog]

/-- A call that has not ended has written nothing. -/
lemma silent_of_running {tr : Trace} {q : Op} {k : q.Answer → Prog InterceptorResult} (hnone : ic.circuitBreaker = false)
    (h : Advances (ic.handle rt context request) tr (.call q k)) : ∀ e ∈ tr, isLog e.1 = false := by
  obtain ⟨tr', r, hrun⟩ := h.exists_runs (Classical.arbitrary q.Answer)
  obtain ⟨v, a, t, out, hbody, htr, -⟩ := ended_of_path hnone (handle_path hrun)
  -- the last event of the whole run is still to come
  have hlength := congrArg List.length htr
  simp only [List.length_append, List.length_cons, List.length_nil] at hlength
  have hearlier : tr <+: t :=
    List.prefix_of_prefix_length_le ⟨_, htr⟩ (List.prefix_append ..) (by omega)
  exact fun e he => hbody.silent_log e (hearlier.subset he)

/-! ## One logger -/

/-- The collaborators answer as they like, with what is raised and cancelled; `log_call` is the logger's own and does
not raise. -/
inductive Answering (P : Platform) (py : PyStr) : LogState → (q : Op) → q.Answer → LogState → Prop
  | other (s : LogState) (q : Op) (a : q.Answer) : isLog q = false → Answering P py s q a s
  | logged {s : LogState} {context : ExecutionContext} {request : ToolRequest} {decision : PolicyDecision}
      {sandboxResult : Option (List (String × PyVal))} {recordId timestamp : String} {file : Option String}
      {logger : HashChainedJSONLLogger} {record : AuditRecord} :
      s.logger.logCall P py s.file context request decision sandboxResult recordId timestamp
        = .ok (file, logger, record) →
      Answering P py s (.logCall context request decision sandboxResult) (.ok record) ⟨file, logger⟩

/-- The states of concurrent calls, on one interceptor and one logger. -/
abbrev Concurrently {ι : Type} [DecidableEq ι] (P : Platform) (py : PyStr) (rt : Runtime) (ic : ToolCallInterceptor)
    (calls : ι → ExecutionContext × ToolRequest) (log : LogState) :
    Loop ι LogState Op Op.Answer Exc InterceptorResult → Prop :=
  Reached Op.isAwait (Answering P py) (fun _ _ => False) (handler rt ic calls) log

/-- No dictionary that a call hands to `log_call` holds a key twice. -/
def WellKeyedLogged : Event → Prop
  | ⟨.logCall _ _ decision sandboxResult, _⟩ =>
    (PyVal.ofItems decision.modelDump).isWellKeyed = true ∧ (PyVal.ofItems? sandboxResult).isWellKeyed = true
  | _ => True

/-- What a call hands to `log_call` is faithful. -/
def FaithfullyLogged : Event → Prop
  | ⟨.logCall _ _ decision sandboxResult, _⟩ =>
    (PyVal.ofItems decision.modelDump).isFaithful = true ∧ (PyVal.ofItems? sandboxResult).isFaithful = true
  | _ => True

variable {ι : Type} [DecidableEq ι] {P : Platform} {py : PyStr} {calls : ι → ExecutionContext × ToolRequest}
  {log : LogState} {s : Loop ι LogState Op Op.Answer Exc InterceptorResult} {rs : List AuditRecord}

/-- The file holds the chain of what was written. -/
theorem holds_written (hP : P.Stores) (hlog : Holds P log.file log.logger.prevHash rs)
    (h : Concurrently P py rt ic calls log s) (hkeys : ∀ m ∈ s.past, WellKeyedLogged m.event)
    (hfaithful : ∀ m ∈ s.past, FaithfullyLogged m.event) :
    Holds P s.world.file s.world.logger.prevHash (rs ++ (written s.past).map fun w => w.2.reread) := by
  induction h with
  | init => simpa [written] using hlog
  | start _ _ _ _ ih => exact ih hkeys hfaithful
  | @resume s i q k a w _ _ _ hE ih =>
    obtain ⟨hkeysBefore, hkeysNow⟩ := List.forall_mem_append.1 hkeys
    obtain ⟨hbefore, hnow⟩ := List.forall_mem_append.1 hfaithful
    have hkeyed : WellKeyedLogged ⟨q, a⟩ := hkeysNow _ (List.mem_singleton_self _)
    have hfaithfully : FaithfullyLogged ⟨q, a⟩ := hnow _ (List.mem_singleton_self _)
    have hchain := ih hkeysBefore hbefore
    cases hE with
    | other _ _ hsilent =>
      simpa [written, writtenRecord_of_not_log (e := ⟨q, a⟩) hsilent] using hchain
    | logged happended =>
      simpa [written, writtenRecord] using
        logCall_faithful (by exact hkeyed) (by exact hfaithfully) happended hP hchain
  | moved _ hmoved _ => exact hmoved.elim

omit [DecidableEq ι] in
lemma written_cons {W : Type} (m : Moment ι W Op Op.Answer) (past : List (Moment ι W Op Op.Answer)) :
    written (m :: past) = ((writtenRecord m.event).map fun record => (m.task, record)).toList ++ written past := by
  rw [written, List.filterMap_cons]
  cases (writtenRecord m.event).map fun record => (m.task, record) <;> rfl

/-- What a call has written is among what it has done. -/
lemma written_own {W : Type} (i : ι) (past : List (Moment ι W Op Op.Answer)) :
    (written past).filter (fun w => w.1 = i) = ((own i past).filterMap writtenRecord).map fun record => (i, record) := by
  induction past with
  | nil => rfl
  | cons m past ih =>
    rw [written_cons, own_cons, List.filter_append, ih, List.filterMap_append, List.map_append]
    congr 1
    by_cases hm : m.task = i
    · cases hrecord : writtenRecord m.event <;> simp [hm, hrecord]
    · cases hrecord : writtenRecord m.event <;> simp [hm]

/-- The record says which call it is about, and what its decision and its outcome were. -/
def Carries (record : AuditRecord) (request : ToolRequest) (v : Locals) : Prop :=
  record.callId = request.callId ∧
    (PyVal.ofItems record.decision).toJson = (PyVal.ofItems v.decision.modelDump).toJson ∧
    (PyVal.ofItems? record.sandboxResult).toJson =
      (PyVal.ofItems? (v.sandboxResult.map SandboxResult.modelDump)).toJson

/-- A call that has ended has written one record, about itself. -/
lemma record_of_ended (hnone : ic.circuitBreaker = false) (h : Concurrently P py rt ic calls log s)
    (hkeys : ∀ m ∈ s.past, WellKeyedLogged m.event) (hfaithful : ∀ m ∈ s.past, FaithfullyLogged m.event) {i : ι}
    {p : Prog InterceptorResult}
    {r : Except Exc InterceptorResult} (hp : s.tasks i = some p) (hr : p.result? = some r) :
    ∃ v record, (written s.past).filter (fun w => w.1 = i) = [(i, record)] ∧
      Ended ic (calls i).1 (calls i).2 (own i s.past) v (.ok record) r ∧ Carries record.reread (calls i).2 v := by
  obtain ⟨v, a, t, out, hbody, htr, hres⟩ := ended_of_path hnone (handle_path ((h.advances hp).runs_of_result hr))
  obtain ⟨m, hm, -, hevent⟩ := mem_own.1 (htr ▸ List.mem_append_right t (List.mem_singleton_self _))
  have hanswer := h.answered m hm
  have hkeyed := hkeys m hm
  have hfaithfully := hfaithful m hm
  rw [hevent] at hanswer hkeyed hfaithfully
  generalize m.before = w at hanswer
  generalize m.after = w' at hanswer
  obtain ⟨record, rfl, hcarries⟩ : ∃ record, a = .ok record ∧ Carries record.reread (calls i).2 v := by
    cases hanswer with
    | other _ _ hsilent => cases hsilent
    | logged happended =>
      exact ⟨_, rfl, (logCall_record happended).1, reread_of_logCall (by exact hkeyed) (by exact hfaithfully) happended⟩
  refine ⟨v, record, ?_, ⟨t, out, hbody, htr, hres⟩, hcarries⟩
  have hbefore : t.filterMap writtenRecord = [] :=
    List.filterMap_eq_nil_iff.2 fun e he => writtenRecord_of_not_log (hbody.silent_log e he)
  rw [written_own, htr, List.filterMap_append, hbefore]
  rfl

/-- **Concurrent calls keep the chain.**  At every moment the file is one chain, with one record of its own for each
call that has ended, and none for the others. -/
theorem concurrent_chain (hP : P.Stores) (hnone : ic.circuitBreaker = false)
    (hlog : Holds P log.file log.logger.prevHash rs) (h : Concurrently P py rt ic calls log s)
    (hkeys : ∀ m ∈ s.past, WellKeyedLogged m.event) (hfaithful : ∀ m ∈ s.past, FaithfullyLogged m.event) :
    verifyChain P s.world.file = .ok ⟨true, rs.length + (written s.past).length, none⟩ ∧
      Reads P (lines s.world.file) (rs ++ (written s.past).map fun w => w.2.reread) ∧
      ∀ i, match (s.tasks i).bind result? with
        | none => ∀ w ∈ written s.past, w.1 ≠ i
        | some r => ∃ v record, (written s.past).filter (fun w => w.1 = i) = [(i, record)] ∧
          Ended ic (calls i).1 (calls i).2 (own i s.past) v (.ok record) r ∧ Carries record.reread (calls i).2 v := by
  have hholds := holds_written hP hlog h hkeys hfaithful
  refine ⟨by simpa using hholds.verify, hholds.reads, fun i => ?_⟩
  have hnothing : (∀ e ∈ own i s.past, isLog e.1 = false) → ∀ w ∈ written s.past, w.1 ≠ i := by
    intro hsilent w hw hwi
    have hmem : w ∈ (written s.past).filter fun w => w.1 = i := List.mem_filter.2 ⟨hw, by simpa using hwi⟩
    rw [written_own, List.filterMap_eq_nil_iff.2 fun e he => writtenRecord_of_not_log (hsilent e he)] at hmem
    cases hmem
  cases hp : s.tasks i with
  | none =>
    apply hnothing
    rw [h.own_advances.2 hp]
    simp
  | some p =>
    cases hr : p.result? with
    | some r =>
      simp only [Option.bind_some, hr]
      exact record_of_ended hnone h hkeys hfaithful hp hr
    | none =>
      simp only [Option.bind_some, hr]
      cases p with
      | call q k => exact hnothing (silent_of_running hnone (h.advances hp))
      | ret _ => cases hr
      | raise _ => cases hr

/-! ### Two calls, of which one is cancelled -/

/-- The calls of the sample request, with a number each. -/
def sampleCalls (second : Bool) : ExecutionContext × ToolRequest :=
  (sampleContext, { sampleRequest with callId := if second then "c2" else "c1" })

lemma sampleLog_holds (P : Platform) : Holds P sampleLog.file sampleLog.logger.prevHash [] := holds_fresh P

lemma sample_answering (call : ExecutionContext × ToolRequest) (hcall : call.2.parameters.items = []) {d : PolicyDecision}
    (hd : (PyVal.ofItems d.modelDump).isNative = true) : ∃ record log,
    Answering (storingPlatform sampleSha256) samplePy sampleLog (.logCall call.1 call.2 d none) (.ok record) log := by
  obtain ⟨file, logger, record, hlog⟩ := logCall_succeeds (storingPlatform_stores sampleSha256).roundTrips samplePy
    sampleLog.logger (Or.inl rfl : FileTerminated none) call.1 call.2 (by simp [hcall]) hd (rfl : (PyVal.ofItems? none).isNative = true)
    "r1" "2024-01-01T00:00:00+00:00"
  exact ⟨record, ⟨file, logger⟩, .logged hlog⟩

omit [DecidableEq ι] in
/-- A call without a circuit breaker starts by asking the engine. -/
lemma handler_atRest (hnone : ic.circuitBreaker = false) (i : ι) : AtRest Op.isAwait (handler rt ic calls i) := by
  have hgate : ic.circuitOpen (calls i).1 (calls i).2 = .ret false := by
    rw [circuitOpen, hnone]
    rfl
  rw [handler, handle, hgate]
  rfl

/-- The second call is cancelled while the engine decides on both. -/
lemma cancelled_reached : ∃ s record,
    Concurrently (storingPlatform sampleSha256) samplePy sampleRuntime (sampleInterceptor false) sampleCalls sampleLog s ∧
      (∀ m ∈ s.past, WellKeyedLogged m.event) ∧ (∀ m ∈ s.past, FaithfullyLogged m.event) ∧
      written s.past = [(true, record)] := by
  obtain ⟨record, log, hlog⟩ := sample_answering (sampleCalls true) rfl
    (rfl : (PyVal.ofItems ({} : Locals).decision.modelDump).isNative = true)
  have hfirst : Concurrently (storingPlatform sampleSha256) samplePy sampleRuntime (sampleInterceptor false) sampleCalls
    sampleLog _ := Reached.start false .init rfl fun _ _ h => by cases h
  have hwaiting : ∀ p, some (handler sampleRuntime (sampleInterceptor false) sampleCalls false) = some p →
      AtRest Op.isAwait p := by
    intro p hp
    obtain rfl := Option.some.inj hp
    exact handler_atRest rfl false
  have hsecond := Reached.start true hfirst rfl fun j p hp => by
    cases j with
    | false => exact hwaiting p hp
    | true => cases hp
  have hothers : ∀ j p, j ≠ true → Function.update (Function.update (fun _ => none) false
      (some (handler sampleRuntime (sampleInterceptor false) sampleCalls false))) true
        (some (handler sampleRuntime (sampleInterceptor false) sampleCalls true)) j = some p → AtRest Op.isAwait p := by
    intro j p hj hp
    obtain rfl : j = false := by simpa using hj
    exact hwaiting p hp
  have hcancel := Reached.resume hsecond (i := true) rfl hothers (.other sampleLog (.evaluateToolCall sampleContext
    (sampleCalls true).2 (sampleInterceptor false).decisionTimeoutS) (.raised .cancelledError) rfl)
  have hlogged := Reached.resume hcancel (i := true) rfl
    (fun j p hj hp => hothers j p hj ((Function.update_of_ne hj ..).symm.trans hp)) hlog
  refine ⟨_, record, hlogged, ?_, ?_, rfl⟩
  · exact List.forall_mem_cons.2 ⟨trivial, List.forall_mem_cons.2 ⟨⟨by decide +kernel, rfl⟩, by simp⟩⟩
  · exact List.forall_mem_cons.2 ⟨trivial, List.forall_mem_cons.2 ⟨⟨by decide +kernel, rfl⟩, by simp⟩⟩

theorem concurrent_chain_cancelled : ∃ s record,
    Concurrently (storingPlatform sampleSha256) samplePy sampleRuntime (sampleInterceptor false) sampleCalls sampleLog s ∧
      written s.past = [(true, record)] ∧
      verifyChain (storingPlatform sampleSha256) s.world.file = .ok ⟨true, 1, none⟩ := by
  obtain ⟨s, record, h, hkeys, hfaithful, hwritten⟩ := cancelled_reached
  have hverify := (concurrent_chain (storingPlatform_stores sampleSha256) rfl (sampleLog_holds _) h hkeys hfaithful).1
  rw [hwritten] at hverify
  exact ⟨s, record, h, hwritten, hverify⟩

/-! ### A decision that does not come back -/

/-- The engine denies, and rewrites a parameter to a number that JSON does not have. -/
def nanDecision : PolicyDecision where
  allowed := false
  reason := "no"
  modifiedParameters := some ⟨[("x", .float .nan)], by decide⟩

def nanRecord : AuditRecord where
  recordId := "r1"
  timestamp := "2024-01-01T00:00:00Z"
  callId := "c1"
  context := { userId := "u", agentId := "a", sessionId := "s", roles := ["dev"] }
  request := { toolName := "t", functionName := "f", callId := "c1", parameters := [] }
  decision := nanDecision.modelDump
  prevHash := GENESIS_HASH

def nanHash : String := "adf9917c297dde6f3a0b23520818cb04d991500210a04a936484402ceeb480dd"

/-- The digests of the record, with `NaN` as it is hashed and with `null` as it is read back. -/
def nanSha256 : Sha256 where
  hexdigest b :=
    if (hashInput GENESIS_HASH nanRecord).map ByteArray.data = .ok b.data then nanHash
    else "dd8b415d5d12c97bae007b782812bb82ebd830e8d383f8b2aad9ed9a61f387fe"
  length_hexdigest b := by split_ifs <;> decide

lemma nanRecord_hashInput : ∃ b, hashInput GENESIS_HASH nanRecord = .ok b := by
  have hdumps : nanRecord.payload.dumps.isSome = true := by decide +kernel
  obtain ⟨text, htext⟩ := Option.isSome_iff_exists.1 hdumps
  exact ⟨_, by rw [hashInput, canonicalBytes, htext]; rfl⟩

lemma nanRecord_hash : computeRecordHash (storingPlatform nanSha256) GENESIS_HASH nanRecord = .ok nanHash := by
  obtain ⟨b, hb⟩ := nanRecord_hashInput
  rw [computeRecordHash, hb]
  simp [Except.map, storingPlatform, nanSha256, hb]

/-- The digest tells the record from every other input. -/
lemma nanSha256_inj {b b' : ByteArray} (hb : hashInput GENESIS_HASH nanRecord = .ok b)
    (h : nanSha256.hexdigest b = nanSha256.hexdigest b') : b = b' := by
  simp only [nanSha256, hb, Except.map, if_true] at h
  split_ifs at h with hdata
  · exact ByteArray.ext (Except.ok.inj hdata)
  · exact absurd h (by decide)

/-- `log_call` does not raise, and its own record does not verify. -/
theorem nan_breaks_chain : ∃ s record,
    Concurrently (storingPlatform nanSha256) samplePy sampleRuntime (sampleInterceptor false)
      (fun _ : Unit => (sampleContext, sampleRequest)) sampleLog s ∧ written s.past = [((), record)] ∧
      verifyChain (storingPlatform nanSha256) s.world.file ≠ .ok ⟨true, 1, none⟩ := by
  have hP := storingPlatform_stores nanSha256
  have hstorable : nanRecord.isStorable = true := by decide +kernel
  obtain ⟨line, hdump, -⟩ := hP { nanRecord with recordHash := nanHash } hstorable
  have happ : sampleLog.logger.append (storingPlatform nanSha256) sampleLog.file nanRecord =
      .ok (some (line ++ "\n"), { sampleLog.logger with prevHash := nanHash }, { nanRecord with recordHash := nanHash }) := by
    have hhead : ({ nanRecord with prevHash := sampleLog.logger.prevHash } : AuditRecord) = nanRecord := rfl
    rw [append_eq (hhead ▸ nanRecord_hash) hdump]
    rfl
  have hlogs : sampleLog.logger.logCall (storingPlatform nanSha256) samplePy sampleLog.file sampleContext sampleRequest
      nanDecision none "r1" "2024-01-01T00:00:00Z" =
        sampleLog.logger.append (storingPlatform nanSha256) sampleLog.file nanRecord :=
    logCall_of_redacted (r := ⟨"t", "f", "c1", []⟩) rfl ..
  have hstart : Concurrently (storingPlatform nanSha256) samplePy sampleRuntime (sampleInterceptor false)
      (fun _ : Unit => (sampleContext, sampleRequest)) sampleLog _ := Reached.start () .init rfl fun _ _ h => by cases h
  have hdenied := Reached.resume hstart (i := ()) rfl (atRest_alone _) (.other sampleLog (.evaluateToolCall sampleContext
    sampleRequest (sampleInterceptor false).decisionTimeoutS) (.returned nanDecision) rfl)
  have hlogged := Reached.resume hdenied (i := ()) rfl (atRest_alone _) (.logged (hlogs.trans happ))
  refine ⟨_, { nanRecord with recordHash := nanHash }, hlogged, rfl, fun hverify => ?_⟩
  have hkeys : nanRecord.isWellKeyed = true := by decide +kernel
  have hnot : ¬ nanRecord.isFaithful = true := by decide +kernel
  refine hnot ((append_accepted_iff hP (holds_fresh _) hkeys happ ?_).1 ⟨1, none, hverify⟩)
  exact fun b b' hb _ hdigest => nanSha256_inj hb hdigest

end Aimw.Interceptor
