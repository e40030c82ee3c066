import Aimw.Guardrails.Patterns
import Mathlib.Data.List.Sort

/-!
# DLP classification

`audit/dlp.py`: a text is graded by the most sensitive category of PII that is found in it.
-/

namespace Aimw.Audit

open Lib Guardrails

inductive SensitivityTier
  | NONE
  | LOW
  | MEDIUM
  | RESTRICTED
  deriving DecidableEq

namespace SensitivityTier

def value : SensitivityTier → ℕ
  | NONE => 0
  | LOW => 1
  | MEDIUM => 2
  | RESTRICTED => 3

/-- `SensitivityTier.max`. -/
def max : List SensitivityTier → SensitivityTier
  | [] => NONE
  | tier :: tiers => tiers.foldl (fun a b => if a.value < b.value then b else a) tier

end SensitivityTier

def TIER_BY_CATEGORY : List (String × SensitivityTier) := [
  ("ip_address", .LOW), ("email", .MEDIUM), ("phone", .MEDIUM), ("ssn", .RESTRICTED), ("credit_card", .RESTRICTED)]

structure DLPClassification where
  tier : SensitivityTier
  categories : List String
  deriving DecidableEq

/-- `DLPClassifier.classify`. -/
def classify (u : CharTable) (text : String) : DLPClassification :=
  let categories := ((PII_PATTERNS u).filter fun (_, pattern) => search u pattern text).map Prod.fst
  { tier := .max (categories.map fun label => (TIER_BY_CATEGORY.lookup label).getD .LOW)
    categories := categories.insertionSort (· ≤ ·) }

/-- A text without matches has no category. -/
theorem classify_eq_none {u : CharTable} {text : String} (h : ∀ lp ∈ PII_PATTERNS u, NoMatch u lp.2 text) :
    classify u text = { tier := .NONE, categories := [] } := by
  have hnil : ((PII_PATTERNS u).filter fun (_, pattern) => search u pattern text) = [] := by
    rw [List.filter_eq_nil_iff]
    rintro ⟨label, pattern⟩ hlp
    have hno : search u pattern text = false := (search_eq_false u).2 (h _ hlp)
    simp [hno]
  simp only [classify, hnil]
  rfl

example : classify .ascii "IP 10.0.0.1, email jane@example.com, SSN 123-45-6789" =
    { tier := .RESTRICTED, categories := ["email", "ip_address", "ssn"] } := by decide

end Aimw.Audit
