import ReleaseSelection.Decision

/-!
# Passing every check

The checks are asked by stage up to the first that does not accept, so the order decides which
rejection is given, and not whether there is one: an offer is approved when all of its checks accept
it (`decide_approves_iff`).
-/

namespace ReleaseSelection

variable {o : Offer} {c : Context} {checks : List Check}

theorem mem_inOrder {check : Check} : check ∈ Check.inOrder checks ↔ check ∈ checks :=
  List.mem_mergeSort

/-- The walk finds nothing to reject when each check on its way accepts. -/
theorem consult_eq_none_iff :
    (consult o c checks).2 = .ok none ↔ ∀ check ∈ checks, check.run o c = .ok .accept := by
  induction checks with
  | nil => simp [consult]
  | cons check checks ih =>
    rw [List.forall_mem_cons, ← ih, consult]
    cases run : check.run o c with
    | error fault => simp
    | ok answer =>
      cases rejected : check.rejection? answer with
      | none =>
        have accepts := Check.rejection?_eq_none_iff.mp rejected
        simp [accepts, Check.rejection?]
      | some rejection =>
        have refused : answer ≠ .accept := fun accepts => by
          simp [Check.rejection?_eq_none_iff.mpr accepts] at rejected
        simp [rejected, refused]

theorem unfit?_eq_none_iff :
    o.unfit? c = none ↔ ∃ game parsed, o.game = some game ∧ o.parsed = some parsed := by
  unfold Offer.unfit?
  cases o.game with
  | none => simp
  | some game => cases o.parsed <;> simp

/-- An offer is approved when it is understood and every check accepts it, with the source that the
context gives it. -/
theorem decide_approves_iff :
    (∃ d, o.decide checks c = .ok d ∧ d.isApproved) ↔
      (∃ game parsed, o.game = some game ∧ o.parsed = some parsed) ∧
        ∀ check ∈ checks, check.run (o.inContext c) c = .ok .accept := by
  have understood : (o.inContext c).unfit? c = none ↔
      ∃ game parsed, o.game = some game ∧ o.parsed = some parsed := unfit?_eq_none_iff
  have passed : (consult (o.inContext c) c (Check.inOrder checks)).2 = .ok none ↔
      ∀ check ∈ checks, check.run (o.inContext c) c = .ok .accept := by
    simp only [consult_eq_none_iff, mem_inOrder]
  rw [← understood, ← passed, Offer.decide, Offer.judge]
  cases unfit : (o.inContext c).unfit? c with
  | some rejection => simp [Decision.isApproved]
  | none =>
    cases verdict : (consult (o.inContext c) c (Check.inOrder checks)).2 with
    | error fault => simp [verdict, Except.map]
    | ok rejection => simp [verdict, Except.map, Decision.isApproved]

end ReleaseSelection
