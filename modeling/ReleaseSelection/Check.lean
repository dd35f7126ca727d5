import ReleaseSelection.Context
import ReleaseSelection.Fault
import ReleaseSelection.Rejection

/-!
# Checks

A check looks at an offer in its context and accepts it, rejects it, or fails for want of what it
has to read. A fault is none of these: it ends the check without an answer.
-/

namespace ReleaseSelection

inductive Answer where
  | accept
  | reject (reason : Reason) (message : String)
  | failure (error : String)
  deriving DecidableEq, Repr

namespace Answer

/-- Rejects unless a condition holds. -/
def require (condition : Bool) (reason : Reason) (message : String) : Answer :=
  if condition then accept else reject reason message

theorem require_eq_accept_iff {condition : Bool} {reason : Reason} {message : String} :
    require condition reason message = accept ↔ condition := by
  cases condition <;> simp [require]

end Answer

structure Check where
  name : String
  stage : Stage := .default
  severity : Severity := .temporary
  run : Offer → Context → Except Fault Answer

/-- The rejection that an answer other than acceptance comes to. -/
def Check.rejection? (check : Check) : Answer → Option Rejection
  | .accept => none
  | .reject reason message =>
    some ⟨reason, message, check.severity, check.stage, some check.name⟩
  | .failure error =>
    some ⟨.decisionError, check.name ++ ": " ++ error, .temporary, check.stage, some check.name⟩

theorem Check.rejection?_eq_none_iff {check : Check} {answer : Answer} :
    check.rejection? answer = none ↔ answer = .accept := by
  cases answer <;> simp [rejection?]

end ReleaseSelection
