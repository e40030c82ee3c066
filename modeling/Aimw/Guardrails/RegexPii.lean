import Aimw.Guardrails.Patterns
import Aimw.Models

/-!
# The guardrails

`interfaces/guardrail.py` and `guardrails/regex_pii.py`: what goes into the reasoning loop, and what comes out of it.
-/

namespace Aimw.Guardrails

open Lib

/-- A guardrail transforms a text, or rejects it. -/
structure BaseGuardrail where
  inspectInput : String → ExecutionContext → Except Exc String
  inspectOutput : String → ExecutionContext → Except Exc String

structure RegexPIIGuardrail where
  blockOnInjection : Bool := true

/-- `repr` of a list of labels. -/
def reprLabels (labels : List String) : String :=
  "[" ++ ", ".intercalate (labels.map fun label => "'" ++ label ++ "'") ++ "]"

namespace RegexPIIGuardrail

variable (u : CharTable) (guardrail : RegexPIIGuardrail)

def inspectInput (prompt : String) (context : ExecutionContext) : Except Exc String :=
  let markers := findInjectionMarkers u prompt
  if markers ≠ [] ∧ guardrail.blockOnInjection = true then
    .error (.exception (s!"input rejected: prompt-injection markers detected {reprLabels markers} " ++
      s!"(session={context.sessionId})"))
  else .ok (mask u prompt)

def inspectOutput (response : String) (_context : ExecutionContext) : Except Exc String := .ok (mask u response)

def toGuardrail : BaseGuardrail where
  inspectInput := guardrail.inspectInput u
  inspectOutput := inspectOutput u

variable {u guardrail}

theorem inspectInput_clean {prompt result : String} {context : ExecutionContext}
    (h : guardrail.inspectInput u prompt context = .ok result) : ∀ lp ∈ PII_PATTERNS u, NoMatch u lp.2 result := by
  unfold inspectInput at h
  dsimp only at h
  split_ifs at h
  obtain rfl := Except.ok.inj h
  exact mask_clean u prompt

theorem inspectOutput_clean {response result : String} (context : ExecutionContext)
    (h : inspectOutput u response context = .ok result) : ∀ lp ∈ PII_PATTERNS u, NoMatch u lp.2 result := by
  obtain rfl := Except.ok.inj h
  exact mask_clean u response

end RegexPIIGuardrail

end Aimw.Guardrails
