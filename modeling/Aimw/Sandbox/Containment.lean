import Aimw.Pipeline.Executed
import Aimw.Sandbox.Docker

/-!
# What is started for a container, and what is left of it

The processes are those of the `docker` client on the host; what the daemon runs for them is not modelled.

* `containers_gated` — at any number of pipelines, a client is started only for a command that was proposed and
  authorised, and only as `docker run` without a network;
* `DockerPath.leaves` — when `execute` leaves its client running;
* `processes_accounted` — the client processes that run on the host, at any number of pipelines;
* `output_kept` — what of the output of a client is in the result of its call.
-/

namespace Aimw.Sandbox

open Lib Coro Interceptor Audit

variable {rt : Runtime} {py : PyStr} {sandbox : DockerSandbox} {request : ToolRequest} {context : ExecutionContext}

variable (context) in
lemma docker_path_of_execute {World : Type} {E : World → (q : DockerOp) → q.Answer → World → Prop} {w w' : World}
    {tr : List DockerEvent} {r : Except Exc SandboxResult}
    (h : Runs E w (sandbox.execute rt py request context) tr r w') :
    ∃ r₀, DockerPath rt py sandbox request tr r₀ ∧ r = r₀.mapError Raised.toExc := by
  obtain ⟨r₀, hruns, rfl⟩ := runs_mapError_iff.1 h
  exact ⟨r₀, docker_path hruns, rfl⟩

/-! ## The command line -/

/-- The command line of the process that an event starts. -/
def argv? : DockerEvent → Option (List String)
  | ⟨.createSubprocessExec argv, _⟩ => some argv
  | _ => none

lemma Handled.argv {x : Raised} {t : List DockerEvent} {r : Except Raised SandboxResult} (h : Handled x t r) :
    t.filterMap argv? = [] := by
  cases h <;> rfl

lemma Abandoned.argv {proc : Process} {t : List DockerEvent} {x : Raised} (h : Abandoned sandbox proc t x) :
    t.filterMap argv? = [] := by
  cases h <;> rfl

lemma Finished.argv {start : JFloat} {proc : Process} {t : List DockerEvent} {s : SandboxResult}
    (h : Finished rt sandbox start proc t s) : t.filterMap argv? = [] := by
  cases h <;> rfl

/-- A process is started right after the first look at the clock. -/
lemma DockerPath.start_split {pre post : List DockerEvent} {argv : List String} {a : Except Raised Process}
    {r : Except Raised SandboxResult}
    (h : DockerPath rt py sandbox request (pre ++ ⟨.createSubprocessExec argv, a⟩ :: post) r) :
    ∃ start innerCommand, pre = [⟨.monotonic, start⟩] ∧ DockerSandbox.buildCommand py request = .ok innerCommand ∧
      argv = sandbox.dockerCommand innerCommand := by
  have hstart : ∀ {start : JFloat} {innerCommand : List String} {b : Except Raised Process} {t : List DockerEvent},
      DockerSandbox.buildCommand py request = .ok innerCommand → t.filterMap argv? = [] →
      pre ++ ⟨.createSubprocessExec argv, a⟩ :: post = started sandbox start innerCommand b ++ t →
      ∃ start innerCommand, pre = [⟨.monotonic, start⟩] ∧ DockerSandbox.buildCommand py request = .ok innerCommand ∧
        argv = sandbox.dockerCommand innerCommand := by
    intro start innerCommand b t hcommand ht heq
    have hsplit : pre ++ ⟨.createSubprocessExec argv, a⟩ :: post =
        [⟨.monotonic, start⟩] ++ ⟨.createSubprocessExec (sandbox.dockerCommand innerCommand), b⟩ :: t := heq
    obtain ⟨rfl, hevent, -⟩ := append_cons_inj_of_only (P := fun e => (argv? e).isSome = true) rfl
      (by simp [argv?]) (fun e he => by simp [List.filterMap_eq_nil_iff.1 ht e he]) hsplit
    exact ⟨start, innerCommand, rfl, hcommand, DockerOp.createSubprocessExec.inj (Sigma.mk.inj hevent).1⟩
  generalize htr : pre ++ ⟨.createSubprocessExec argv, a⟩ :: post = tr at h
  cases h with
  | invalid => simp at htr
  | notStarted start hcommand hhandled => exact hstart hcommand hhandled.argv htr
  | finished hcommand hfinished => exact hstart hcommand hfinished.argv htr
  | abandoned hcommand habandoned hhandled =>
    refine hstart hcommand ?_ htr
    rw [List.filterMap_append, habandoned.argv, hhandled.argv]
    rfl

/-- A command is made of a list of arguments that is not empty. -/
lemma buildCommand_ok {innerCommand : List String} (h : DockerSandbox.buildCommand py request = .ok innerCommand) :
    ∃ parts, request.parameters.get? "command" = some (.list parts) ∧ parts ≠ [] ∧ innerCommand = parts.map py.str := by
  unfold DockerSandbox.buildCommand at h
  split at h
  · rename_i part parts hget
    exact ⟨part :: parts, hget, List.cons_ne_nil _ _, (Except.ok.inj h).symm⟩
  · cases h

section System

variable {u : CharTable} {irt : Interceptor.Runtime} {ι World : Type} [DecidableEq ι]
  {suspends : SystemOp (sandbox.toSandbox rt py) → Bool}
  {E : World → (q : SystemOp (sandbox.toSandbox rt py)) → q.Answer → World → Prop} {outside : World → World → Prop}
  {calls : ι → PipelineCall} {world : World}
  {s : Loop ι World (SystemOp (sandbox.toSandbox rt py)) SystemOp.Answer Exc PipelineResult}

/-- A process is to be started. -/
abbrev starting (sandbox : DockerSandbox) (rt : Runtime) (py : PyStr) (argv : List String) (a : Except Raised Process) :
    SystemEvent (sandbox.toSandbox rt py) :=
  handled (sandbox.toSandbox rt py) (sandboxed (sandbox.toSandbox rt py) ⟨DockerOp.createSubprocessExec argv, a⟩)

/-- **A process is started only behind every gate**, and its command line is `docker run --rm --network none`, with the
options and the image of the sandbox, before the arguments of a proposed call. -/
theorem containers_gated (h : Reached suspends E outside (fun i => (calls i).program (sandbox.toSandbox rt py) u irt) world s)
    (i : ι) (pre post : List (SystemEvent (sandbox.toSandbox rt py))) (argv : List String) (a : Except Raised Process)
    (hevent : own i s.past = pre ++ starting sandbox rt py argv a :: post) :
    ∃ n clean done proposed rest earlier before start parts,
      pre = piped _ ⟨.verify (calls i).bearerToken (calls i).context, .ok true⟩ ::
        piped _ ⟨.countCall (calls i).context.agentId, n⟩ ::
        piped _ ⟨.proposeToolCalls clean (calls i).context, .ok (done ++ proposed :: rest)⟩ ::
        (earlier ++ (before.map (collaborated _) ++ [sandboxed _ ⟨DockerOp.monotonic, start⟩]).map (handled _)) ∧
      n ≤ (calls i).pipeline.gateway.rateLimitPerMinute ∧
      (calls i).pipeline.guardrail.inspectInput (Guardrails.mask u (calls i).prompt) (calls i).context = .ok clean ∧
      GateOpen (calls i).interceptor (calls i).context proposed.toToolRequest before ∧
      proposed.parameters.get? "command" = some (.list parts) ∧ parts ≠ [] ∧
      argv = ["docker", "run", "--rm", "--network", "none", "--memory", sandbox.memoryLimit, "--cpus", sandbox.cpus] ++
        sandbox.extraDockerFlags ++ sandbox.image :: parts.map py.str := by
  obtain ⟨p, -, hadvances⟩ := h.advances_of_mem (hevent ▸ List.mem_append_right pre List.mem_cons_self)
  rw [hevent] at hadvances
  obtain ⟨n, clean, done, proposed, rest, earlier, before, t, t', out, rfl, hn, hclean, hgate, -, hrun⟩ :=
    cleared_of_advances hadvances
  obtain ⟨r₀, hpath, -⟩ := docker_path_of_execute (calls i).context hrun
  obtain ⟨start, innerCommand, rfl, hcommand, rfl⟩ := hpath.start_split
  obtain ⟨parts, hparts, hne, rfl⟩ := buildCommand_ok hcommand
  refine ⟨n, clean, done, proposed, rest, earlier, before, start, parts, rfl, hn, hclean, hgate, hparts, hne, ?_⟩
  rw [DockerSandbox.dockerCommand, DockerSandbox.dockerRun, List.append_assoc]
  rfl

end System

/-! ## What is left running -/

/-- The client processes that run after an event; a killed client leaves the container to the daemon. -/
def DockerEvent.leave (running : Finset Process) : DockerEvent → Finset Process
  | ⟨.createSubprocessExec _, .ok proc⟩ => insert proc running
  | ⟨.waitForCommunicate proc _, .ok _⟩ => running.erase proc
  | ⟨.wait proc, .ok _⟩ => running.erase proc
  | _ => running

def leftRunning (running : Finset Process) (tr : List DockerEvent) : Finset Process := tr.foldl DockerEvent.leave running

def started? : DockerEvent → Option Process
  | ⟨.createSubprocessExec _, .ok proc⟩ => some proc
  | _ => none

/-- The process that is not waited for, because an exception comes first. -/
def interrupted? : DockerEvent → Option Process
  | ⟨.waitForCommunicate _ _, .error (.other (.timeoutError _))⟩ => none
  | ⟨.waitForCommunicate proc _, .error _⟩ => some proc
  | ⟨.kill proc, .error _⟩ => some proc
  | ⟨.wait proc, .error _⟩ => some proc
  | _ => none

lemma leftRunning_append (running : Finset Process) (t u : List DockerEvent) :
    leftRunning running (t ++ u) = leftRunning (leftRunning running t) u := List.foldl_append

lemma leave_subset (running : Finset Process) (e : DockerEvent) :
    e.leave running ⊆ running ∪ (started? e).toFinset := by
  unfold DockerEvent.leave started?
  split
  · simp
  all_goals simp [Finset.erase_subset]

/-- An event starts a process, or leaves it as it was. -/
lemma leave_cases {running : Finset Process} {e : DockerEvent} {proc : Process} (h : proc ∈ e.leave running) :
    (∀ running', proc ∈ e.leave running') ∨ (proc ∈ running ∧ ∀ running', proc ∈ running' → proc ∈ e.leave running') := by
  unfold DockerEvent.leave at h ⊢
  split at h
  · rcases Finset.mem_insert.1 h with rfl | hold
    · exact Or.inl fun running' => Finset.mem_insert_self ..
    · exact Or.inr ⟨hold, fun running' hproc => Finset.mem_insert_of_mem hproc⟩
  · obtain ⟨hne, hold⟩ := Finset.mem_erase.1 h
    exact Or.inr ⟨hold, fun running' hproc => Finset.mem_erase.2 ⟨hne, hproc⟩⟩
  · obtain ⟨hne, hold⟩ := Finset.mem_erase.1 h
    exact Or.inr ⟨hold, fun running' hproc => Finset.mem_erase.2 ⟨hne, hproc⟩⟩
  · exact Or.inr ⟨h, fun running' hproc => hproc⟩

/-- Only what was started runs. -/
lemma leftRunning_subset (running : Finset Process) (tr : List DockerEvent) :
    leftRunning running tr ⊆ running ∪ (tr.filterMap started?).toFinset := by
  induction tr generalizing running with
  | nil => simp [leftRunning]
  | cons e tr ih =>
    intro proc hproc
    rcases Finset.mem_union.1 (ih (e.leave running) hproc) with hbefore | hlater
    · rcases Finset.mem_union.1 (leave_subset running e hbefore) with hold | hnew
      · exact Finset.mem_union_left _ hold
      · refine Finset.mem_union_right _ (List.mem_toFinset.2 (List.mem_filterMap.2 ⟨e, List.mem_cons_self, ?_⟩))
        exact Option.mem_toFinset.1 hnew
    · obtain ⟨e', he', hstarted⟩ := List.mem_filterMap.1 (List.mem_toFinset.1 hlater)
      exact Finset.mem_union_right _ (List.mem_toFinset.2 (List.mem_filterMap.2 ⟨e', List.mem_cons_of_mem _ he', hstarted⟩))

/-! ### One run -/

lemma Handled.quiet {x : Raised} {t : List DockerEvent} {r : Except Raised SandboxResult} (h : Handled x t r)
    (running : Finset Process) :
    leftRunning running t = running ∧ t.filterMap started? = [] ∧ t.filterMap interrupted? = [] := by
  cases h <;> exact ⟨rfl, rfl, rfl⟩

lemma Finished.reaped {start : JFloat} {proc : Process} {t : List DockerEvent} {s : SandboxResult}
    (h : Finished rt sandbox start proc t s) (running : Finset Process) :
    leftRunning running t = running.erase proc ∧ t.filterMap started? = [] ∧ t.filterMap interrupted? = [] := by
  cases h <;> exact ⟨rfl, rfl, rfl⟩

lemma Abandoned.kept {proc : Process} {t : List DockerEvent} {x : Raised} (h : Abandoned sandbox proc t x)
    (running : Finset Process) :
    leftRunning running t = running ∧ t.filterMap started? = [] ∧ t.filterMap interrupted? = [proc] := by
  cases h with
  | communicating hx =>
    refine ⟨rfl, rfl, ?_⟩
    cases x with
    | fileNotFoundError text => rfl
    | other e =>
      cases e with
      | timeoutError text => exact absurd rfl (hx text)
      | exception text => rfl
      | cancelledError => rfl
      | baseException text => rfl
  | killing => exact ⟨rfl, rfl, rfl⟩
  | waiting => exact ⟨rfl, rfl, rfl⟩

section Path

variable {tr : List DockerEvent} {r : Except Raised SandboxResult}

/-- A run starts one process at most. -/
lemma DockerPath.started_length (h : DockerPath rt py sandbox request tr r) : (tr.filterMap started?).length ≤ 1 := by
  cases h with
  | invalid => exact Nat.zero_le 1
  | notStarted start _ hhandled =>
    rw [List.filterMap_append, (hhandled.quiet ∅).2.1]
    exact Nat.zero_le 1
  | finished _ hfinished =>
    rw [List.filterMap_append, (hfinished.reaped ∅).2.1]
    exact le_refl 1
  | abandoned _ habandoned hhandled =>
    rw [List.filterMap_append, List.filterMap_append, (habandoned.kept ∅).2.1, (hhandled.quiet ∅).2.1]
    exact le_refl 1

/-- A run leaves its process when it does not come to wait for it, and then it has raised or says that there is no
`docker`. -/
theorem DockerPath.leaves (h : DockerPath rt py sandbox request tr r) (running : Finset Process) :
    (∃ ended : Finset Process, tr.filterMap interrupted? = [] ∧ leftRunning running tr = running \ ended) ∨
      ∃ proc, tr.filterMap interrupted? = [proc] ∧ leftRunning running tr = insert proc running ∧
        ∀ s, r = .ok s → s.exitCode = 127 := by
  cases h with
  | invalid => exact Or.inl ⟨∅, rfl, (Finset.sdiff_empty).symm⟩
  | notStarted start _ hhandled =>
    refine Or.inl ⟨∅, ?_, ?_⟩
    · rw [List.filterMap_append, (hhandled.quiet ∅).2.2]
      rfl
    · rw [leftRunning_append, (hhandled.quiet _).1, Finset.sdiff_empty]
      rfl
  | @finished innerCommand start proc _ _ _ hfinished =>
    refine Or.inl ⟨{proc}, ?_, ?_⟩
    · rw [List.filterMap_append, (hfinished.reaped ∅).2.2]
      rfl
    · have hstarted : leftRunning running (started sandbox start innerCommand (.ok proc)) = insert proc running := rfl
      rw [leftRunning_append, (hfinished.reaped _).1, Finset.sdiff_singleton_eq_erase, hstarted, Finset.erase_insert_eq_erase]
  | @abandoned _ _ _ proc _ _ _ _ habandoned hhandled =>
    refine Or.inr ⟨proc, ?_, ?_, ?_⟩
    · rw [List.filterMap_append, List.filterMap_append, (habandoned.kept ∅).2.2, (hhandled.quiet ∅).2.2]
      rfl
    · rw [leftRunning_append, leftRunning_append, (hhandled.quiet _).1, (habandoned.kept _).1]
      rfl
    · intro s hs
      cases hhandled with
      | notFound => rw [← Except.ok.inj hs]
      | raised => cases hs

end Path

/-! ### Any number of pipelines -/

/-- Of executions that are over, only the interrupted ones have left something. -/
theorem serial_leaves {ts : List ((q : (sandbox.toSandbox rt py).Op) × (sandbox.toSandbox rt py).Answer q)}
    (h : Serial (sandbox.toSandbox rt py) context ts) (running : Finset Process) :
    leftRunning running ts ⊆ running ∪ (ts.filterMap interrupted?).toFinset := by
  induction h generalizing running with
  | nil => exact Finset.subset_union_left
  | @cons request t ts out hrun _ ih =>
    obtain ⟨r, hpath, -⟩ := docker_path_of_execute context hrun
    rw [leftRunning_append, List.filterMap_append, List.toFinset_append]
    intro proc hproc
    rcases Finset.mem_union.1 (ih _ hproc) with hbefore | hlater
    · rcases hpath.leaves running with ⟨ended, -, heq⟩ | ⟨proc', hinterrupted, heq, -⟩
      · rw [heq] at hbefore
        exact Finset.mem_union_left _ (Finset.sdiff_subset hbefore)
      · rw [heq] at hbefore
        rw [hinterrupted]
        rcases Finset.mem_insert.1 hbefore with rfl | hold
        · simp
        · exact Finset.mem_union_left _ hold
    · exact Finset.mem_union_right _ (Finset.mem_union_right _ hlater)

section System

variable {u : CharTable} {irt : Interceptor.Runtime} {ι : Type} [DecidableEq ι]
  {suspends : SystemOp (sandbox.toSandbox rt py) → Bool} {calls : ι → PipelineCall} {host : Finset Process}

variable (rt py sandbox) in
/-- A host, by the processes that run on it: what was started runs, what was waited for does not, and nothing else
starts a process. -/
inductive HostAnswers : Finset Process → (q : SystemOp (sandbox.toSandbox rt py)) → q.Answer → Finset Process → Prop
  | docker {running after : Finset Process} (e : DockerEvent) :
      after ⊆ e.leave running → HostAnswers running (.governed (.sandbox e.1)) e.2 after
  | other {running after : Finset Process} {q : SystemOp (sandbox.toSandbox rt py)} (a : q.Answer) :
      (∀ q', q ≠ .governed (.sandbox q')) → after ⊆ running → HostAnswers running q a after

/-- What runs was running before, or a pipeline has it in its account. -/
lemma running_accounted {s : Loop ι (Finset Process) (SystemOp (sandbox.toSandbox rt py)) SystemOp.Answer Exc PipelineResult}
    (h : Reached suspends (HostAnswers rt py sandbox) (fun running after => after ⊆ running)
      (fun i => (calls i).program (sandbox.toSandbox rt py) u irt) host s) :
    ∀ proc ∈ s.world, proc ∈ host ∨ ∃ i, proc ∈ leftRunning ∅ (sandboxEvents (own i s.past)) := by
  induction h with
  | init => exact fun proc hproc => Or.inl hproc
  | start _ _ _ _ ih => exact ih
  | moved _ hout ih => exact fun proc hproc => ih proc (hout hproc)
  | @resume s i q k a w _ _ _ hE ih =>
    intro proc hproc
    have hown : ∀ j, j ≠ i → own j (s.past ++ [⟨i, ⟨q, a⟩, s.world, w⟩]) = own j s.past := by
      intro j hj
      rw [own_append, own_of_ne hj.symm, List.append_nil]
    cases hE with
    | docker e hafter =>
      have hself : ∀ running, running = leftRunning ∅ (sandboxEvents (own i s.past)) → proc ∈ e.leave running →
          ∃ j, proc ∈ leftRunning ∅ (sandboxEvents (own j (s.past ++ [⟨i, ⟨.governed (.sandbox e.1), e.2⟩, s.world, w⟩]))) := by
        rintro _ rfl hleft
        refine ⟨i, ?_⟩
        rw [own_append, own_self, sandboxEvents_append, leftRunning_append]
        exact hleft
      rcases leave_cases (hafter hproc) with hstarted | ⟨hbefore, hkept⟩
      · exact Or.inr (hself _ rfl (hstarted _))
      · rcases ih proc hbefore with hhost | ⟨j, hj⟩
        · exact Or.inl hhost
        · by_cases hij : j = i
          · subst hij
            exact Or.inr (hself _ rfl (hkept _ hj))
          · exact Or.inr ⟨j, by rwa [hown j hij]⟩
    | other _ hq hafter =>
      rcases ih proc (hafter hproc) with hhost | ⟨j, hj⟩
      · exact Or.inl hhost
      · refine Or.inr ⟨j, ?_⟩
        by_cases hij : j = i
        · subst hij
          have hnone : sandboxEvents [(⟨q, a⟩ : SystemEvent (sandbox.toSandbox rt py))] = [] := by
            cases q with
            | pipeline q => rfl
            | governed q =>
              cases q with
              | collaborator q => rfl
              | sandbox q => exact absurd rfl (hq q)
          rw [own_append, own_self, sandboxEvents_append, hnone, List.append_nil]
          exact hj
        · rwa [hown j hij]

/-- **Every `docker` client that runs is accounted for.**  It ran before the pipelines were started, or a pipeline was interrupted
while it waited for the process, or the process is the last one of a pipeline that is still under way. -/
theorem processes_accounted
    {s : Loop ι (Finset Process) (SystemOp (sandbox.toSandbox rt py)) SystemOp.Answer Exc PipelineResult}
    (h : Reached suspends (HostAnswers rt py sandbox) (fun running after => after ⊆ running)
      (fun i => (calls i).program (sandbox.toSandbox rt py) u irt) host s) (proc : Process) (hproc : proc ∈ s.world) :
    proc ∈ host ∨ ∃ i, proc ∈ (sandboxEvents (own i s.past)).filterMap interrupted? ∨
      ((s.tasks i).bind result? = none ∧ ((sandboxEvents (own i s.past)).filterMap started?).getLast? = some proc) := by
  rcases running_accounted h proc hproc with hhost | ⟨i, hi⟩
  · exact Or.inl hhost
  refine Or.inr ⟨i, ?_⟩
  cases hp : s.tasks i with
  | none =>
    rw [h.own_advances.2 hp] at hi
    exact absurd hi (Finset.notMem_empty proc)
  | some p =>
    obtain ⟨now, last, heq, hnow, hlast⟩ := serial_of_advances (h.advances hp)
    rw [heq] at hi ⊢
    rw [leftRunning_append] at hi
    rw [List.filterMap_append, List.filterMap_append]
    rcases Finset.mem_union.1 (leftRunning_subset _ last hi) with hbefore | hnew
    · have hinterrupted := serial_leaves hnow ∅ hbefore
      rw [Finset.empty_union, List.mem_toFinset] at hinterrupted
      exact Or.inl (List.mem_append_left _ hinterrupted)
    · have hstarted := List.mem_toFinset.1 hnew
      have hne : last ≠ [] := by
        rintro rfl
        exact absurd hstarted List.not_mem_nil
      obtain ⟨hunder, request, t, out, ⟨rest, rfl⟩, hrun⟩ := hlast hne
      obtain ⟨r, hpath, -⟩ := docker_path_of_execute (calls i).context hrun
      have hlength := hpath.started_length
      rw [List.filterMap_append, List.length_append] at hlength
      obtain ⟨proc', hproc'⟩ := List.length_eq_one_iff.1 (le_antisymm (by omega) (List.length_pos_of_mem hstarted))
      rw [hproc'] at hstarted ⊢
      obtain rfl := List.mem_singleton.1 hstarted
      exact Or.inr ⟨hunder, List.getLast?_concat⟩

end System

/-! ## The output of a client -/

/-- The text stands for the bytes: what was written in UTF-8 is the text, and a text without U+FFFD is what was written. -/
def Kept (bytes : List UInt8) (text : String) : Prop :=
  (∀ cs, bytes = Utf8.encode cs → text = String.ofList cs) ∧
    (Utf8.replacement ∉ text.toList → bytes = Utf8.encode text.toList)

lemma kept_decodeUtf8 (bytes : List UInt8) : Kept bytes (decodeUtf8 bytes) := by
  refine ⟨?_, fun hclean => ?_⟩
  · rintro cs rfl
    rw [decodeUtf8, Utf8.decode_encode]
  · rw [decodeUtf8, String.toList_ofList] at hclean ⊢
    exact (Utf8.encode_decode hclean).symm

/-- What a result can be, by what the sandbox did for its call. -/
inductive FromContainer (rt : Runtime) (py : PyStr) (sandbox : DockerSandbox) (request : ToolRequest)
    (t : List DockerEvent) (s : SandboxResult) : Prop
  | ended (start now : JFloat) (innerCommand : List String) (proc : Process) (output : List UInt8 × List UInt8)
      (code : Option ℤ) : DockerSandbox.buildCommand py request = .ok innerCommand →
      t = started sandbox start innerCommand (.ok proc) ++
        [communicated sandbox proc (.ok output), ⟨.monotonic, now⟩, ⟨.returncode proc, code⟩] →
      Kept output.1 s.stdout → Kept output.2 s.stderr → s.exitCode = code.getD 0 → s.timedOut = false →
      FromContainer rt py sandbox request t s
  | timedOut (start now : JFloat) (innerCommand : List String) (proc : Process) (text : String) (code : ℤ) :
      DockerSandbox.buildCommand py request = .ok innerCommand →
      t = started sandbox start innerCommand (.ok proc) ++
        [communicated sandbox proc (.error (.other (.timeoutError text))), ⟨.kill proc, .ok ()⟩, ⟨.wait proc, .ok code⟩,
          ⟨.monotonic, now⟩] →
      s.stdout = "" → s.exitCode = 124 → s.timedOut = true → FromContainer rt py sandbox request t s
  | invalid : DockerSandbox.buildCommand py request = .error s.stderr → t = [] → s.stdout = "" → s.exitCode = 2 →
      s.timedOut = false → FromContainer rt py sandbox request t s
  | notFound (start now : JFloat) (innerCommand : List String) (text : String) :
      DockerSandbox.buildCommand py request = .ok innerCommand →
      t = started sandbox start innerCommand (.error (.fileNotFoundError text)) ++ [⟨.monotonic, now⟩] →
      s.stdout = "" → s.stderr = "docker executable not found on PATH" → s.exitCode = 127 → s.timedOut = false →
      FromContainer rt py sandbox request t s
  -- the outer `try` takes the exception for the missing executable, wherever it comes from
  | vanished (start now : JFloat) (innerCommand : List String) (proc : Process) (text : String) (t' : List DockerEvent) :
      DockerSandbox.buildCommand py request = .ok innerCommand → Abandoned sandbox proc t' (.fileNotFoundError text) →
      t = started sandbox start innerCommand (.ok proc) ++ (t' ++ [⟨.monotonic, now⟩]) →
      s.stdout = "" → s.stderr = "docker executable not found on PATH" → s.exitCode = 127 → s.timedOut = false →
      FromContainer rt py sandbox request t s
  | raised (exc : Exc) (x : Raised) : DockerPath rt py sandbox request t (.error x) → x.toExc = exc →
      s.stdout = "" → s.stderr = exc.text → s.exitCode = 1 → s.timedOut = false → FromContainer rt py sandbox request t s

theorem DockerPath.fromContainer {tr : List DockerEvent} {s : SandboxResult}
    (h : DockerPath rt py sandbox request tr (.ok s)) : FromContainer rt py sandbox request tr s := by
  generalize hr : (Except.ok s : Except Raised SandboxResult) = r at h
  cases h with
  | invalid hcommand =>
    obtain rfl := Except.ok.inj hr
    exact .invalid hcommand rfl rfl rfl rfl
  | notStarted start hcommand hhandled =>
    cases hhandled with
    | notFound text now elapsed =>
      obtain rfl := Except.ok.inj hr
      exact .notFound start now _ text hcommand rfl rfl rfl rfl rfl
    | raised => cases hr
  | finished hcommand hfinished =>
    obtain rfl := Except.ok.inj hr
    cases hfinished with
    | exited output now code =>
      exact .ended _ now _ _ output code hcommand rfl (kept_decodeUtf8 output.1) (kept_decodeUtf8 output.2) rfl rfl
    | killed text code now => exact .timedOut _ now _ _ text code hcommand rfl rfl rfl rfl
  | abandoned hcommand habandoned hhandled =>
    cases hhandled with
    | notFound text now elapsed =>
      obtain rfl := Except.ok.inj hr
      exact .vanished _ now _ _ text _ hcommand habandoned rfl rfl rfl rfl rfl
    | raised => cases hr

/-- **A result of a pipeline holds the output of the process that was started for its own call**, as far as it can be
read, and the exit code of that process; or it says what kept the process from its end. -/
theorem output_kept {u : CharTable} {irt : Interceptor.Runtime} {ι World : Type} [DecidableEq ι]
    {suspends : SystemOp (sandbox.toSandbox rt py) → Bool}
    {E : World → (q : SystemOp (sandbox.toSandbox rt py)) → q.Answer → World → Prop} {outside : World → World → Prop}
    {calls : ι → PipelineCall} {world : World}
    {s : Loop ι World (SystemOp (sandbox.toSandbox rt py)) SystemOp.Answer Exc PipelineResult}
    (h : Reached suspends E outside (fun i => (calls i).program (sandbox.toSandbox rt py) u irt) world s) (i : ι)
    (result : PipelineResult) (hresult : (s.tasks i).bind result? = some (.ok result)) (n : ℕ)
    (handled : InterceptorResult) (hn : result.toolCallResults[n]? = some handled) (sandboxResult : SandboxResult)
    (hsome : handled.sandboxResult = some sandboxResult) :
    ∃ call before t after, (proposals (own i s.past))[n]? = some call ∧
      sandboxEvents (own i s.past) = before ++ (t ++ after) ∧
      Executed (sandbox.toSandbox rt py) (calls i).context ((proposals (own i s.past)).take n)
        (result.toolCallResults.take n) before ∧
      FromContainer rt py sandbox call.toToolRequest t sandboxResult := by
  obtain ⟨p, hp, hended⟩ := Option.bind_eq_some_iff.1 hresult
  have hexecuted := executed_of_runs ((h.advances hp).runs_of_result hended)
  obtain ⟨call, before, t, after, out, hcall, hevents, hbefore, hrun, hreports⟩ := hexecuted.get hn hsome
  refine ⟨call, before, t, after, hcall, hevents, hbefore, ?_⟩
  obtain ⟨r, hpath, hr⟩ := docker_path_of_execute (calls i).context hrun
  cases hreports with
  | raised elapsed hexc =>
    cases r with
    | ok s => cases hr
    | error x => exact .raised _ x hpath (Except.error.inj hr).symm rfl rfl rfl rfl
  | returned =>
    obtain rfl : r = .ok sandboxResult := by
      cases r with
      | error x => cases hr
      | ok s => rw [Except.ok.inj hr]
    exact hpath.fromContainer

/-! ### A container that lists a directory -/

section Sample

def sampleDocker : DockerSandbox := {}

def sampleCommand : ProposedToolCall := ⟨"t", "f", Dict.empty.set "command" (.list [.str "ls"]), "c1"⟩

def strings : PyStr where
  str
    | .str s => s
    | _ => ""
  surrogate := fun _ => false
  surrogate_ascii := fun _ _ => rfl

abbrev sampleContainer : BaseSandbox := sampleDocker.toSandbox ⟨fun _ _ => .nan, fun _ => "15.0"⟩ strings

/-- The process starts, and `output` is what comes of it. -/
def containerAnswer (output : Except Raised (List UInt8 × List UInt8)) : (q : DockerOp) → q.Answer
  | .monotonic => .nan
  | .createSubprocessExec _ => .ok (7 : ℕ)
  | .waitForCommunicate _ _ => output
  | .kill _ => .ok ()
  | .wait _ => .ok (0 : ℤ)
  | .returncode _ => some (0 : ℤ)

abbrev containerRun (output : Except Raised (List UInt8 × List UInt8)) :
    List (SystemEvent sampleContainer) × Except Exc PipelineResult × Unit :=
  (samplePipelineCall.program sampleContainer .ascii sampleRuntime).run (granting sampleCommand (containerAnswer output)) ()

theorem containers_gated_granted : ∃ pre post proposed before parts,
    (containerRun (.ok ([], []))).1 =
      pre ++ starting sampleDocker _ strings (sampleDocker.dockerCommand ["ls"]) (.ok (7 : ℕ)) :: post ∧
    GateOpen samplePipelineCall.interceptor samplePipelineCall.context (ProposedToolCall.toToolRequest proposed) before ∧
      proposed.parameters.get? "command" = some (.list parts) ∧ parts ≠ [] := by
  obtain ⟨s, hreached, hown, -⟩ := granted_alone sampleContainer .ascii sampleRuntime samplePipelineCall sampleCommand
    (containerAnswer (.ok ([], [])))
  have hsplit : (containerRun (.ok ([], []))).1 = (containerRun (.ok ([], []))).1.take 6 ++
      starting sampleDocker _ strings (sampleDocker.dockerCommand ["ls"]) (.ok (7 : ℕ)) ::
        (containerRun (.ok ([], []))).1.drop 7 := rfl
  obtain ⟨n, clean, done, proposed, rest, earlier, before, start, parts, -, -, -, hgate, hparts, hne, -⟩ :=
    containers_gated hreached () _ _ _ _ (hown.trans hsplit)
  exact ⟨_, _, proposed, before, parts, hsplit, hgate, hparts, hne⟩

/-- The host of the container, when the wait for the output is cancelled. -/
def cancelling : (q : SystemOp sampleContainer) → Finset Process → q.Answer × Finset Process
  | .governed (.sandbox q), running =>
    (containerAnswer (.error (.other .cancelledError)) q,
      DockerEvent.leave running ⟨q, containerAnswer (.error (.other .cancelledError)) q⟩)
  | .governed (.collaborator q), running =>
    ((granting sampleCommand (containerAnswer (.ok ([], []))) (.governed (.collaborator q)) ()).1, running)
  | .pipeline q, running => ((granting sampleCommand (containerAnswer (.ok ([], []))) (.pipeline q) ()).1, running)

lemma cancelling_answers (q : SystemOp sampleContainer) (running : Finset Process) :
    HostAnswers _ strings sampleDocker running q (cancelling q running).1 (cancelling q running).2 := by
  cases q with
  | pipeline q => exact .other _ (by simp) (Finset.Subset.refl _)
  | governed q =>
    cases q with
    | collaborator q => exact .other _ (by simp) (Finset.Subset.refl _)
    | sandbox q => exact .docker ⟨q, _⟩ (Finset.Subset.refl _)

abbrev cancelledRun : List (SystemEvent sampleContainer) × Except Exc PipelineResult × Finset Process :=
  (samplePipelineCall.program sampleContainer .ascii sampleRuntime).run cancelling ∅

theorem processes_accounted_cancelled :
    (7 : ℕ) ∈ cancelledRun.2.2 ∧ (7 : ℕ) ∈ (sandboxEvents cancelledRun.1).filterMap interrupted? := by
  have hruns := runs_run cancelling_answers (samplePipelineCall.program sampleContainer .ascii sampleRuntime) ∅
  obtain ⟨s, hreached, hown, hended, hworld⟩ := reached_alone (fun running after => after ⊆ running) hruns
  have hleft : (7 : ℕ) ∈ cancelledRun.2.2 := Finset.mem_insert_self ..
  refine ⟨hleft, ?_⟩
  rcases processes_accounted hreached 7 (hworld ▸ hleft) with hhost | ⟨_, hinterrupted | ⟨hunder, -⟩⟩
  · exact absurd hhost (Finset.notMem_empty 7)
  · rwa [hown] at hinterrupted
  · rw [hended] at hunder
    cases hunder

theorem output_kept_printed : ∃ result handled sandboxResult,
    (containerRun (.ok (Utf8.encode ['o', 'k'], []))).2.1 = .ok result ∧ result.toolCallResults[0]? = some handled ∧
      handled.sandboxResult = some sandboxResult ∧ sandboxResult.stdout = "ok" ∧ ∃ call t,
        (proposals (containerRun (.ok (Utf8.encode ['o', 'k'], []))).1)[0]? = some call ∧
          t <:+: sandboxEvents (containerRun (.ok (Utf8.encode ['o', 'k'], []))).1 ∧
          FromContainer ⟨fun _ _ => .nan, fun _ => "15.0"⟩ strings sampleDocker (ProposedToolCall.toToolRequest call) t
            sandboxResult := by
  obtain ⟨s, hreached, hown, hended⟩ := granted_alone sampleContainer .ascii sampleRuntime samplePipelineCall sampleCommand
    (containerAnswer (.ok (Utf8.encode ['o', 'k'], [])))
  obtain ⟨result, hresult, handled, hhandled, sandboxResult, hsome, hstdout⟩ :
      ∃ result, (containerRun (.ok (Utf8.encode ['o', 'k'], []))).2.1 = .ok result ∧
        ∃ handled, result.toolCallResults[0]? = some handled ∧ ∃ sandboxResult, handled.sandboxResult = some sandboxResult ∧
          sandboxResult.stdout = "ok" :=
    ⟨_, rfl, _, rfl, _, rfl, rfl⟩
  obtain ⟨call, before, t, after, hcall, hevents, -, hfrom⟩ :=
    output_kept hreached () result (hended.trans (congrArg some hresult)) 0 handled hhandled sandboxResult hsome
  rw [hown] at hcall hevents
  exact ⟨result, handled, sandboxResult, hresult, hhandled, hsome, hstdout, call, t, hcall,
    ⟨before, after, by rw [hevents, List.append_assoc]⟩, hfrom⟩

end Sample

end Aimw.Sandbox
