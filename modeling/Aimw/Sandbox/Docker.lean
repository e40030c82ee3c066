import Aimw.Interceptor.Linked
import Aimw.Lib.ShellWords
import Aimw.Lib.Utf8

/-!
# The Docker sandboxes

`sandbox/docker_sandbox.py`: `execute` starts `docker run` for the command of the request, waits for its output at most
`timeout_s`, and kills the process when that is over.

* `DockerPath`, `docker_path` — what a run of `execute` can be;
* `command_read_back` — a logged command is read back as it was.
-/

namespace Aimw.Sandbox

open Lib Coro Interceptor Audit

/-! ## Calls -/

/-- What is raised while a process is started and waited for; `FileNotFoundError` is caught by `execute`. -/
inductive Raised
  | fileNotFoundError (text : String)
  | other (e : Exc)

def Raised.toExc : Raised → Exc
  | .fileNotFoundError text => .exception text
  | .other e => e

/-- A process object, by its number. -/
abbrev Process : Type := ℕ

/-- `waitForCommunicate` is `asyncio.wait_for(proc.communicate(), timeout=timeout)`. -/
inductive DockerOp
  | monotonic
  | createSubprocessExec (argv : List String)
  | waitForCommunicate (proc : Process) (timeout : JFloat)
  | kill (proc : Process)
  | wait (proc : Process)
  | returncode (proc : Process)

abbrev DockerOp.Answer : DockerOp → Type
  | monotonic => JFloat
  | createSubprocessExec _ => Except Raised Process
  | waitForCommunicate _ _ => Except Raised (List UInt8 × List UInt8)
  | kill _ => Except Raised Unit
  | wait _ => Except Raised ℤ
  | returncode _ => Option ℤ

abbrev DockerEvent : Type := (q : DockerOp) × q.Answer

abbrev DockerProg (α : Type) : Type := Coro DockerOp DockerOp.Answer Raised α

/-! ## `DockerSandbox` -/

/-- `extraDockerFlags` is what the hook `_extra_docker_flags` of the class returns. -/
structure DockerSandbox where
  image : String := "python:3.11-slim"
  timeoutS : JFloat := .finite ⟨['1', '5', '.', '0'], rfl⟩
  memoryLimit : String := "256m"
  cpus : String := "1"
  extraDockerFlags : List String := []

/-- The subclass with more flags. -/
def RestrictedDockerSandbox (sandbox : DockerSandbox) : DockerSandbox :=
  { sandbox with
    extraDockerFlags := ["--user", "65534:65534", "--read-only", "--tmpfs", "/tmp", "--cap-drop", "ALL",
      "--security-opt", "no-new-privileges"] }

lemma isFloatText_zeroMs : isFloatText ['0', '.', '0'] = true := rfl

def zeroMs : JFloat := .finite ⟨['0', '.', '0'], isFloatText_zeroMs⟩

/-- `bytes.decode("utf-8", errors="replace")`. -/
def decodeUtf8 (bytes : List UInt8) : String := String.ofList (Utf8.decode bytes)

/-- `shlex.join`. -/
def formatCommandForLog (command : List String) : String :=
  String.ofList (ShellWords.join (command.map String.toList))

/-- **A logged command is read back as it was.** -/
theorem command_read_back (command : List String) :
    (ShellWords.split (formatCommandForLog command).toList).map (List.map String.ofList) = some command := by
  rw [formatCommandForLog, String.toList_ofList, ShellWords.split_join, Option.map_some, List.map_map]
  refine congrArg some ((List.map_congr_left fun part _ => ?_).trans (List.map_id command))
  exact String.ofList_toList

namespace DockerSandbox

variable (rt : Runtime) (py : PyStr) (sandbox : DockerSandbox) (request : ToolRequest)

/-- `_build_command`; an error is the text of a `ValueError`. -/
def buildCommand : Except String (List String) :=
  match request.parameters.get? "command" with
  | some (.list (part :: parts)) => .ok ((part :: parts).map py.str)
  | _ => .error "DockerSandbox requires request.parameters['command'] to be a list of args"

/-- What stands before the command of the request. -/
def dockerRun : List String :=
  ["docker", "run", "--rm", "--network", "none", "--memory", sandbox.memoryLimit, "--cpus", sandbox.cpus] ++
    sandbox.extraDockerFlags ++ [sandbox.image]

def dockerCommand (innerCommand : List String) : List String := sandbox.dockerRun ++ innerCommand

/-- The handler of the inner `try`: the process is killed and waited for. -/
def stop (start : JFloat) (proc : Process) : DockerProg SandboxResult := do
  await (.kill proc) id
  let _ ← await (.wait proc) id
  let now ← perform .monotonic
  return {
    stdout := ""
    stderr := s!"container execution exceeded {rt.format sandbox.timeoutS}s timeout"
    exitCode := 124
    durationMs := rt.elapsedMs start now
    timedOut := true }

/-- What the output and the exit status make. -/
def collect (start : JFloat) (proc : Process) (output : List UInt8 × List UInt8) : DockerProg SandboxResult := do
  let now ← perform .monotonic
  let returncode : Option ℤ ← perform (DockerOp.returncode proc)
  return {
    stdout := decodeUtf8 output.1
    stderr := decodeUtf8 output.2
    exitCode := returncode.getD 0
    durationMs := rt.elapsedMs start now }

/-- The inner `try`: the output, or the result when the timeout is over. -/
def communicate (start : JFloat) (proc : Process) : DockerProg ((List UInt8 × List UInt8) ⊕ SandboxResult) :=
  tryExcept
    (do
      let output ← await (.waitForCommunicate proc sandbox.timeoutS) id
      return .inl output)
    fun
    | .other (.timeoutError _) => do
      let result ← sandbox.stop rt start proc
      return .inr result
    | exc => raise exc

/-- The statements of the outer `try`. -/
def runProcess (start : JFloat) (innerCommand : List String) : DockerProg SandboxResult := do
  let proc ← await (.createSubprocessExec (sandbox.dockerCommand innerCommand)) id
  match ← sandbox.communicate rt start proc with
  | .inl output => collect rt start proc output
  | .inr result => return result

/-- `execute`, with `FileNotFoundError` told from the other exceptions. -/
def executeRaising : DockerProg SandboxResult :=
  match buildCommand py request with
  | .error text => return { stdout := "", stderr := text, exitCode := 2, durationMs := zeroMs }
  | .ok innerCommand => do
    let start ← perform .monotonic
    tryExcept (sandbox.runProcess rt start innerCommand) fun
      | .fileNotFoundError _ => do
        let now ← perform .monotonic
        return {
          stdout := ""
          stderr := "docker executable not found on PATH"
          exitCode := 127
          durationMs := rt.elapsedMs start now }
      | exc => raise exc

def execute (_context : ExecutionContext) : Coro DockerOp DockerOp.Answer Exc SandboxResult :=
  (sandbox.executeRaising rt py request).mapError Raised.toExc

/-- The sandbox as the interceptor holds it. -/
abbrev toSandbox : BaseSandbox where
  Op := DockerOp
  Answer := DockerOp.Answer
  nonempty
    | .monotonic => ⟨.nan⟩
    | .createSubprocessExec _ => ⟨.error (.other .cancelledError)⟩
    | .waitForCommunicate _ _ => ⟨.error (.other .cancelledError)⟩
    | .kill _ => ⟨.ok ()⟩
    | .wait _ => ⟨.ok 0⟩
    | .returncode _ => ⟨none⟩
  execute := fun request context => sandbox.execute rt py request context

end DockerSandbox

/-! ## The paths through `execute` -/

section Paths

variable {rt : Runtime} {py : PyStr} {sandbox : DockerSandbox} {request : ToolRequest}

/-- The call that waits for the output. -/
abbrev communicated (sandbox : DockerSandbox) (proc : Process) (a : Except Raised (List UInt8 × List UInt8)) :
    DockerEvent := ⟨.waitForCommunicate proc sandbox.timeoutS, a⟩

variable (rt sandbox) in
/-- The process has come to its end, by itself or killed after the timeout. -/
inductive Finished (start : JFloat) (proc : Process) : List DockerEvent → SandboxResult → Prop
  | exited (output : List UInt8 × List UInt8) (now : JFloat) (code : Option ℤ) :
      Finished start proc [communicated sandbox proc (.ok output), ⟨.monotonic, now⟩, ⟨.returncode proc, code⟩] {
        stdout := decodeUtf8 output.1
        stderr := decodeUtf8 output.2
        exitCode := code.getD 0
        durationMs := rt.elapsedMs start now }
  | killed (text : String) (code : ℤ) (now : JFloat) :
      Finished start proc [communicated sandbox proc (.error (.other (.timeoutError text))), ⟨.kill proc, .ok ()⟩,
        ⟨.wait proc, .ok code⟩, ⟨.monotonic, now⟩] {
          stdout := ""
          stderr := s!"container execution exceeded {rt.format sandbox.timeoutS}s timeout"
          exitCode := 124
          durationMs := rt.elapsedMs start now
          timedOut := true }

variable (sandbox) in
/-- An exception comes before the process has been waited for. -/
inductive Abandoned (proc : Process) : List DockerEvent → Raised → Prop
  | communicating {x : Raised} : (∀ text, x ≠ .other (.timeoutError text)) →
      Abandoned proc [communicated sandbox proc (.error x)] x
  | killing (text : String) (x : Raised) :
      Abandoned proc [communicated sandbox proc (.error (.other (.timeoutError text))), ⟨.kill proc, .error x⟩] x
  | waiting (text : String) (x : Raised) :
      Abandoned proc [communicated sandbox proc (.error (.other (.timeoutError text))), ⟨.kill proc, .ok ()⟩,
        ⟨.wait proc, .error x⟩] x

/-- What the outer `try` makes of an exception. -/
inductive Handled : Raised → List DockerEvent → Except Raised SandboxResult → Prop
  | notFound (text : String) (now elapsed : JFloat) : Handled (.fileNotFoundError text) [⟨.monotonic, now⟩]
      (.ok { stdout := "", stderr := "docker executable not found on PATH", exitCode := 127, durationMs := elapsed })
  | raised (e : Exc) : Handled (.other e) [] (.error (.other e))

variable (sandbox) in
/-- The two calls that start the process. -/
abbrev started (start : JFloat) (innerCommand : List String) (a : Except Raised Process) : List DockerEvent :=
  [⟨.monotonic, start⟩, ⟨.createSubprocessExec (sandbox.dockerCommand innerCommand), a⟩]

variable (rt py sandbox request) in
/-- A run of `execute`. -/
inductive DockerPath : List DockerEvent → Except Raised SandboxResult → Prop
  | invalid {text : String} : DockerSandbox.buildCommand py request = .error text →
      DockerPath [] (.ok { stdout := "", stderr := text, exitCode := 2, durationMs := zeroMs })
  | notStarted {innerCommand : List String} {x : Raised} {t : List DockerEvent} {r : Except Raised SandboxResult}
      (start : JFloat) : DockerSandbox.buildCommand py request = .ok innerCommand → Handled x t r →
      DockerPath (started sandbox start innerCommand (.error x) ++ t) r
  | finished {innerCommand : List String} {start : JFloat} {proc : Process} {t : List DockerEvent} {s : SandboxResult} :
      DockerSandbox.buildCommand py request = .ok innerCommand → Finished rt sandbox start proc t s →
      DockerPath (started sandbox start innerCommand (.ok proc) ++ t) (.ok s)
  | abandoned {innerCommand : List String} {x : Raised} {start : JFloat} {proc : Process} {t t' : List DockerEvent}
      {r : Except Raised SandboxResult} : DockerSandbox.buildCommand py request = .ok innerCommand →
      Abandoned sandbox proc t x → Handled x t' r →
      DockerPath (started sandbox start innerCommand (.ok proc) ++ (t ++ t')) r

section Runs

variable {World : Type} {E : World → (q : DockerOp) → q.Answer → World → Prop} {w w' : World} {tr : List DockerEvent}

/-- The process is killed and waited for, or an exception comes before that. -/
lemma stop_runs {start : JFloat} {proc : Process} {r : Except Raised SandboxResult}
    (text : String) (h : Runs E w (sandbox.stop rt start proc) tr r w') :
    (∃ s, r = .ok s ∧
      Finished rt sandbox start proc (communicated sandbox proc (.error (.other (.timeoutError text))) :: tr) s) ∨
      ∃ x, r = .error x ∧
        Abandoned sandbox proc (communicated sandbox proc (.error (.other (.timeoutError text))) :: tr) x := by
  rcases runs_bind_iff.1 h with ⟨x, hkill, rfl⟩ | ⟨⟨⟩, w₁, t₁, t₂, rfl, hkill, hrest⟩
  · obtain ⟨a, rfl, -, ha⟩ := runs_await_iff.1 hkill
    obtain rfl : Except.error x = a := ha
    exact Or.inr ⟨x, rfl, .killing text x⟩
  obtain ⟨a, rfl, -, ha⟩ := runs_await_iff.1 hkill
  obtain rfl : Except.ok () = a := ha
  rcases runs_bind_iff.1 hrest with ⟨x, hwait, rfl⟩ | ⟨code, w₂, t₃, t₄, rfl, hwait, hlast⟩
  · obtain ⟨a, rfl, -, ha⟩ := runs_await_iff.1 hwait
    obtain rfl : Except.error x = a := ha
    exact Or.inr ⟨x, rfl, .waiting text x⟩
  obtain ⟨a, rfl, -, ha⟩ := runs_await_iff.1 hwait
  obtain rfl : Except.ok code = a := ha
  obtain ⟨now, w₃, t, rfl, -, hret⟩ := runs_call_iff.1 hlast
  obtain ⟨rfl, rfl, -⟩ := runs_ret_iff.1 hret
  exact Or.inl ⟨_, rfl, .killed text code now⟩

/-- What happens to a process that was started. -/
lemma runProcess_runs {start : JFloat} {innerCommand : List String} {r : Except Raised SandboxResult}
    (h : Runs E w (sandbox.runProcess rt start innerCommand) tr r w') :
    (∃ x, tr = [⟨.createSubprocessExec (sandbox.dockerCommand innerCommand), .error x⟩] ∧ r = .error x) ∨
      ∃ proc t, tr = ⟨.createSubprocessExec (sandbox.dockerCommand innerCommand), .ok proc⟩ :: t ∧
        ((∃ s, r = .ok s ∧ Finished rt sandbox start proc t s) ∨ ∃ x, r = .error x ∧ Abandoned sandbox proc t x) := by
  rcases runs_bind_iff.1 h with ⟨x, hcreate, rfl⟩ | ⟨proc, w₁, t₁, t₂, rfl, hcreate, hrest⟩
  · obtain ⟨a, rfl, -, ha⟩ := runs_await_iff.1 hcreate
    obtain rfl : Except.error x = a := ha
    exact Or.inl ⟨x, rfl, rfl⟩
  obtain ⟨a, rfl, -, ha⟩ := runs_await_iff.1 hcreate
  obtain rfl : Except.ok proc = a := ha
  refine Or.inr ⟨proc, t₂, rfl, ?_⟩
  -- the inner `try`
  have hcommunicate : ∀ {t : List DockerEvent} {w w' : World}
      {o : Except Raised ((List UInt8 × List UInt8) ⊕ SandboxResult)}, Runs E w (sandbox.communicate rt start proc) t o w' →
      (∃ output, t = [communicated sandbox proc (.ok output)] ∧ o = .ok (.inl output)) ∨
        (∃ s, o = .ok (.inr s) ∧ Finished rt sandbox start proc t s) ∨
          ∃ x, o = .error x ∧ Abandoned sandbox proc t x := by
    intro t w w' o hruns
    rcases runs_tryExcept_iff.1 hruns with ⟨v, hbody, rfl⟩ | ⟨x, w₁, t₁, t₂, rfl, hbody, hhandler⟩
    · rcases runs_bind_iff.1 hbody with ⟨e, -, he⟩ | ⟨output, w₁, t₁, t₂, rfl, hwait, hret⟩
      · cases he
      · obtain ⟨a, rfl, -, ha⟩ := runs_await_iff.1 hwait
        obtain rfl : Except.ok output = a := ha
        obtain ⟨rfl, ho, -⟩ := runs_ret_iff.1 hret
        obtain rfl := Except.ok.inj ho
        exact Or.inl ⟨output, rfl, rfl⟩
    · obtain ⟨a, rfl, ha⟩ : ∃ a, t₁ = [communicated sandbox proc a] ∧ a = .error x := by
        rcases runs_bind_iff.1 hbody with ⟨e, hwait, he⟩ | ⟨output, w₁, t₁, t₂, rfl, -, hret⟩
        · obtain ⟨a, rfl, -, ha⟩ := runs_await_iff.1 hwait
          obtain rfl := Except.error.inj he
          exact ⟨a, rfl, ha.symm⟩
        · cases hret
      subst ha
      cases x with
      | fileNotFoundError text =>
        obtain ⟨rfl, rfl, -⟩ := runs_raise_iff.1 hhandler
        exact Or.inr (Or.inr ⟨_, rfl, .communicating (by simp)⟩)
      | other e =>
        cases e with
        | timeoutError text =>
          rcases runs_bind_iff.1 hhandler with ⟨x, hstop, rfl⟩ | ⟨s, w₂, t₃, t₄, rfl, hstop, hret⟩
          · rcases stop_runs text hstop with ⟨_, ⟨⟩, -⟩ | ⟨x', hx, habandoned⟩
            obtain rfl := Except.error.inj hx
            exact Or.inr (Or.inr ⟨x, rfl, habandoned⟩)
          · obtain ⟨rfl, rfl, -⟩ := runs_ret_iff.1 hret
            rcases stop_runs text hstop with ⟨s', hs, hfinished⟩ | ⟨_, ⟨⟩, -⟩
            obtain rfl := Except.ok.inj hs
            rw [List.append_nil]
            exact Or.inr (Or.inl ⟨s, rfl, hfinished⟩)
        | exception text =>
          obtain ⟨rfl, rfl, -⟩ := runs_raise_iff.1 hhandler
          exact Or.inr (Or.inr ⟨_, rfl, .communicating (by simp)⟩)
        | cancelledError =>
          obtain ⟨rfl, rfl, -⟩ := runs_raise_iff.1 hhandler
          exact Or.inr (Or.inr ⟨_, rfl, .communicating (by simp)⟩)
        | baseException text =>
          obtain ⟨rfl, rfl, -⟩ := runs_raise_iff.1 hhandler
          exact Or.inr (Or.inr ⟨_, rfl, .communicating (by simp)⟩)
  rcases runs_bind_iff.1 hrest with ⟨x, hcom, rfl⟩ | ⟨v, w₂, t₃, t₄, rfl, hcom, hlast⟩
  · rcases hcommunicate hcom with ⟨_, -, ⟨⟩⟩ | ⟨_, ⟨⟩, -⟩ | ⟨x', hx, habandoned⟩
    obtain rfl := Except.error.inj hx
    exact Or.inr ⟨x, rfl, habandoned⟩
  · rcases hcommunicate hcom with ⟨output, rfl, hv⟩ | ⟨s, hv, hfinished⟩ | ⟨_, ⟨⟩, -⟩
    · obtain rfl := Except.ok.inj hv
      obtain ⟨now, w₃, t, rfl, -, hcollect⟩ := runs_call_iff.1 hlast
      obtain ⟨code, w₄, t, rfl, -, hret⟩ := runs_call_iff.1 hcollect
      obtain ⟨rfl, rfl, -⟩ := runs_ret_iff.1 hret
      exact Or.inl ⟨_, rfl, .exited output now code⟩
    · obtain rfl := Except.ok.inj hv
      obtain ⟨rfl, rfl, -⟩ := runs_ret_iff.1 hlast
      rw [List.append_nil]
      exact Or.inl ⟨s, rfl, hfinished⟩

/-- **Every run of `execute` is one of the paths.** -/
theorem docker_path {r : Except Raised SandboxResult} (h : Runs E w (sandbox.executeRaising rt py request) tr r w') :
    DockerPath rt py sandbox request tr r := by
  unfold DockerSandbox.executeRaising at h
  cases hcommand : DockerSandbox.buildCommand py request with
  | error text =>
    rw [hcommand] at h
    obtain ⟨rfl, rfl, -⟩ := runs_ret_iff.1 h
    exact .invalid hcommand
  | ok innerCommand =>
    rw [hcommand] at h
    obtain ⟨start, w₁, t, rfl, -, hrest⟩ := runs_call_iff.1 h
    rcases runs_tryExcept_iff.1 hrest with ⟨s, hbody, rfl⟩ | ⟨x, w₂, t₁, t₂, rfl, hbody, hhandler⟩
    · rcases runProcess_runs hbody with ⟨_, -, ⟨⟩⟩ | ⟨proc, t, rfl, ⟨s', hs, hfinished⟩ | ⟨_, ⟨⟩, -⟩⟩
      obtain rfl := Except.ok.inj hs
      exact .finished hcommand hfinished
    · have hhandled : Handled x t₂ r := by
        cases x with
        | fileNotFoundError text =>
          obtain ⟨now, w₃, t, rfl, -, hret⟩ := runs_call_iff.1 hhandler
          obtain ⟨rfl, rfl, -⟩ := runs_ret_iff.1 hret
          exact .notFound text now _
        | other e =>
          obtain ⟨rfl, rfl, -⟩ := runs_raise_iff.1 hhandler
          exact .raised e
      rcases runProcess_runs hbody with ⟨x', rfl, hx⟩ | ⟨proc, t, rfl, ⟨_, ⟨⟩, -⟩ | ⟨x', hx, habandoned⟩⟩
      · obtain rfl := Except.error.inj hx
        exact .notStarted start hcommand hhandled
      · obtain rfl := Except.error.inj hx
        exact .abandoned hcommand habandoned hhandled

end Runs

end Paths

end Aimw.Sandbox
