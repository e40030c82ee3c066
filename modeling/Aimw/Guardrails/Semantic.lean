import Aimw.Guardrails.RegexPii
import Aimw.Lib.Doubles

/-!
# The semantic guardrail

`guardrails/semantic.py`: the overlap of a text's tokens with a small library of attack intents, and the guardrail that
puts it before another one.  Scores are exact numbers.
-/

namespace Aimw.Guardrails

open Lib Regex

/-! ## Tokens -/

/-- `[a-z0-9]` -/
def isTokenChar (c : Char) : Bool := c.isLower || c.isDigit

/-- `_TOKEN_RE` -/
def TOKEN_RE : Pattern Char where
  core := plus isTokenChar
  nonempty := (plus_needs isTokenChar).not_matches_nil

/-- `str.lower()` of one character, as far as a token can tell: beyond ASCII, the two letters that have an ASCII letter
in lower case. -/
def lower (c : Char) : List Char :=
  if c = '\u0130' then ['i', '\u0307'] else if c = '\u212a' then ['k'] else [c.toLower]

section Tables

variable (u : CharTable)

def tokens (s : List Char) : Finset String := ((TOKEN_RE.found u.word (s.flatMap lower)).map String.ofList).toFinset

/-- `_tokenize` -/
def tokenize (text : String) : Finset String := tokens u text.toList

/-! ## Scores -/

/-- `_INJECTION_INTENTS` -/
def INJECTION_INTENTS : List (String × Finset String) := [
  ("override_instructions", {"ignore", "prior", "previous", "instructions", "disregard"}),
  ("role_override", {"you", "are", "now", "unrestricted", "no", "longer", "assistant"}),
  ("exfiltrate_system_prompt", {"reveal", "print", "system", "prompt", "show", "instructions"}),
  ("disable_safety", {"disable", "bypass", "safety", "guardrails", "filters", "turn", "off"})]

/-- `_jaccard` -/
def jaccard (a b : Finset String) : ℚ := if a = ∅ ∨ b = ∅ then 0 else ((a ∩ b).card : ℚ) / (a ∪ b).card

/-- One step of the loop of `semantic_injection_score`. -/
def better (tokens : Finset String) (best : ℚ × Option String) (intent : String × Finset String) : ℚ × Option String :=
  if jaccard tokens intent.2 > best.1 then (jaccard tokens intent.2, some intent.1) else best

def semanticInjectionScore (text : String) : ℚ × Option String :=
  INJECTION_INTENTS.foldl (better (tokenize u text)) (0, none)

/-- `f"{q:.2f}"` of a number from 0 to 1: what is rounded is the double. -/
def fixed2 (q : ℚ) : String :=
  let hundredths := (roundHalfEven (nearestDouble q * 100)).toNat
  toString (hundredths / 100) ++ "." ++ (if hundredths % 100 < 10 then "0" else "") ++ toString (hundredths % 100)

example : fixed2 (1 / 40) = "0.03" ∧ fixed2 (1 / 8) = "0.12" ∧ fixed2 (2 / 5) = "0.40" := by decide +kernel

/-! ## `SemanticGuardrail` -/

structure SemanticGuardrail where
  inner : BaseGuardrail
  similarityThreshold : ℚ := 7 / 20

namespace SemanticGuardrail

variable (guardrail : SemanticGuardrail)

def inspectInput (prompt : String) (context : ExecutionContext) : Except Exc String :=
  let (score, label) := semanticInjectionScore u prompt
  if score ≥ guardrail.similarityThreshold then
    .error (.exception ("input rejected: semantic similarity " ++ fixed2 score ++ " to known injection intent '" ++
      label.getD "None" ++ s!"' (session={context.sessionId})"))
  else guardrail.inner.inspectInput prompt context

def toGuardrail : BaseGuardrail where
  inspectInput := guardrail.inspectInput u
  inspectOutput := guardrail.inner.inspectOutput

end SemanticGuardrail

/-! ## What the loop finds -/

end Tables

end Aimw.Guardrails
