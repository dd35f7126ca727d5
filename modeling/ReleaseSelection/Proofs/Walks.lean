import Mathlib.Data.List.Forall2
import ReleaseSelection.Proofs.Verdict

/-!
# Walks side by side

What becomes of a walk when its checks read another store, or when it is taken in another context:
checks that are alike come to one outcome (`consult_eq_of_alike`), and a permanent rejection stays
when the checks before it go on accepting (`consult_permanent`).
-/

namespace ReleaseSelection

variable {o : Offer} {c c' : Context} {check other : Check} {checks others rest : List Check}
  {r : Rejection}

/-! ## One step -/

theorem consult_cons_of_accept (run : check.run o c = .ok .accept) :
    (consult o c (check :: checks)).2 = (consult o c checks).2 := by
  simp only [consult, run, Check.rejection?]

theorem consult_cons_of_rejects {answer : Answer} (run : check.run o c = .ok answer)
    (rejects : check.Rejects answer r) : (consult o c (check :: checks)).2 = .ok (some r) := by
  simp only [consult, run, Check.rejection?_eq_some_iff.mpr rejects]

theorem consult_append_of_accept (accept : ∀ check ∈ checks, check.run o c = .ok .accept) :
    (consult o c (checks ++ others)).2 = (consult o c others).2 := by
  induction checks with
  | nil => rfl
  | cons check checks ih =>
    obtain ⟨first, rest⟩ := List.forall_mem_cons.mp accept
    rw [List.cons_append, consult_cons_of_accept first]
    exact ih rest

/-- What is decided by the first check in order that does not accept. -/
theorem Offer.decide_of_rejects {answer : Answer} (fit : (o.inContext c).unfit? c = none)
    (order : Check.inOrder checks = others ++ check :: rest)
    (accept : ∀ check ∈ others, check.run (o.inContext c) c = .ok .accept)
    (run : check.run (o.inContext c) c = .ok answer) (rejects : check.Rejects answer r) :
    o.decide checks c = .ok ⟨o.inContext c, some r⟩ := by
  have verdict : (consult (o.inContext c) c (Check.inOrder checks)).2 = .ok (some r) := by
    rw [order, consult_append_of_accept accept]
    exact consult_cons_of_rejects run rejects
  simp only [decide, judge, fit, verdict, Except.map]

/-- The first check in order that does not accept may also fault. -/
theorem Offer.decide_of_faults {fault : Fault} (fit : (o.inContext c).unfit? c = none)
    (order : Check.inOrder checks = others ++ check :: rest)
    (accept : ∀ check ∈ others, check.run (o.inContext c) c = .ok .accept)
    (run : check.run (o.inContext c) c = .error fault) : o.decide checks c = .error fault := by
  have verdict : (consult (o.inContext c) c (Check.inOrder checks)).2 = .error fault := by
    rw [order, consult_append_of_accept accept]
    simp only [consult, run]
  simp only [decide, judge, fit, verdict, Except.map]

/-- A rejection comes from the first check, or from the rest behind its acceptance. -/
theorem consult_cons_eq_some (h : (consult o c (check :: checks)).2 = .ok (some r)) :
    (check.run o c = .ok .accept ∧ (consult o c checks).2 = .ok (some r)) ∨
      ∃ answer, check.run o c = .ok answer ∧ check.Rejects answer r := by
  cases run : check.run o c with
  | error fault => simp [consult, run] at h
  | ok answer =>
    cases rejected : check.rejection? answer with
    | none =>
      obtain rfl := Check.rejection?_eq_none_iff.mp rejected
      rw [consult_cons_of_accept run] at h
      exact .inl ⟨rfl, h⟩
    | some r' =>
      have rejects := Check.rejection?_eq_some_iff.mp rejected
      rw [consult_cons_of_rejects run rejects] at h
      cases h
      exact .inr ⟨answer, rfl, rejects⟩

theorem exists_rejects_of_consult (rejected : (consult o c checks).2 = .ok (some r)) :
    ∃ check ∈ checks, ∃ answer, check.run o c = .ok answer ∧ check.Rejects answer r := by
  induction checks with
  | nil => cases rejected
  | cons check checks ih =>
    rcases consult_cons_eq_some rejected with ⟨_, later⟩ | ⟨answer, run, rejects⟩
    · obtain ⟨other, mem, rejects⟩ := ih later
      exact ⟨other, List.mem_cons_of_mem check mem, rejects⟩
    · exact ⟨check, List.mem_cons_self, answer, run, rejects⟩

/-! ## Checks that are alike -/

namespace Check

/-- Two checks that make the same of an offer. -/
structure Alike (o : Offer) (c : Context) (check other : Check) : Prop where
  name : check.name = other.name
  stage : check.stage = other.stage
  severity : check.severity = other.severity
  run : check.run o c = other.run o c

theorem Alike.refl (check : Check) : Alike o c check check := ⟨rfl, rfl, rfl, rfl⟩

theorem Alike.rejection? (alike : Alike o c check other) (answer : Answer) :
    check.rejection? answer = other.rejection? answer := by
  cases answer with
  | accept => rfl
  | reject reason message =>
    simp only [Check.rejection?, alike.name, alike.stage, alike.severity]
  | failure error => simp only [Check.rejection?, alike.name, alike.stage]

end Check

theorem consult_eq_of_alike (alike : checks.Forall₂ (Check.Alike o c) others) :
    (consult o c checks).2 = (consult o c others).2 := by
  induction alike with
  | nil => rfl
  | cons first _ ih =>
    simp only [consult, first.run, first.rejection?]
    split
    · rfl
    · split
      · rfl
      · exact ih

/-! ## Walks in another context -/

theorem Check.Rejects.severity {answer : Answer} (rejects : check.Rejects answer r)
    (permanent : r.severity = .permanent) : check.severity = .permanent := by
  cases rejects with
  | refused => exact permanent
  | failed => cases permanent

theorem consult_temporary (temporary : ∀ check ∈ checks, check.severity = .temporary)
    (rejected : (consult o c checks).2 = .ok (some r)) : r.severity = .temporary := by
  obtain ⟨check, mem, answer, _, rejects⟩ := exists_rejects_of_consult rejected
  cases severity : r.severity with
  | temporary => rfl
  | permanent => cases (temporary check mem).symm.trans (rejects.severity severity)

/-- A permanent rejection stays if up to its check all that accepted accept again, and permanent
checks answer as before. What follows the last permanent check does not matter. -/
theorem consult_permanent {firm passing : List Check}
    (accepts : ∀ check ∈ firm, check.run o c = .ok .accept → check.run o c' = .ok .accept)
    (same : ∀ check ∈ firm, check.severity = .permanent → check.run o c' = check.run o c)
    (temporary : ∀ check ∈ passing, check.severity = .temporary)
    (rejected : (consult o c (firm ++ passing)).2 = .ok (some r))
    (permanent : r.severity = .permanent) :
    (consult o c' (firm ++ passing)).2 = .ok (some r) := by
  induction firm with
  | nil => cases permanent.symm.trans (consult_temporary temporary rejected)
  | cons check firm ih =>
    obtain ⟨acceptsFirst, acceptsRest⟩ := List.forall_mem_cons.mp accepts
    obtain ⟨sameFirst, sameRest⟩ := List.forall_mem_cons.mp same
    rcases consult_cons_eq_some rejected with ⟨run, later⟩ | ⟨answer, run, rejects⟩
    · rw [List.cons_append, consult_cons_of_accept (acceptsFirst run)]
      exact ih acceptsRest sameRest later
    · have again := (sameFirst (rejects.severity permanent)).trans run
      exact consult_cons_of_rejects again rejects

/-- Where the checks that do not accept all reject for one reason, no other reason comes out. -/
theorem consult_reason {reason : Reason}
    (answers : ∀ check ∈ checks, check.run o c = .ok .accept ∨
      ∃ message, check.run o c = .ok (.reject reason message)) :
    ∃ outcome, (consult o c checks).2 = .ok outcome ∧ ∀ r ∈ outcome, r.reason = reason := by
  induction checks with
  | nil => exact ⟨none, rfl, by simp⟩
  | cons check checks ih =>
    obtain ⟨first, rest⟩ := List.forall_mem_cons.mp answers
    rcases first with run | ⟨message, run⟩
    · rw [consult_cons_of_accept run]
      exact ih rest
    · refine ⟨some _, consult_cons_of_rejects run (.refused reason message), ?_⟩
      rintro _ ⟨⟩
      rfl

end ReleaseSelection
