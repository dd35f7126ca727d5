import Mathlib.Data.List.Forall2
import ReleaseSelection.Check.Standard
import ReleaseSelection.Proofs.Verdict

/-!
# The standard checks together

In which order they are asked (`Check.inOrder_standard`), and what they look at beside the offer.
Six of them look at the store (`Check.forall₂_standard`) and four at the context
(`Check.heedless_of_mem_firm`, `Check.heedless_of_mem_passing`). None looks at the source of the
offer, so an approval is the acceptance of every check on the offer as it is (`Offer.approved_iff`).
-/

namespace ReleaseSelection

namespace Check

variable {policy : Policy} {readers : Readers} {check : Check}

/-! ## Order -/

/-- The walk as far as the last check that rejects for good. The one on flags is registered for a
later stage than its kind, so the last grab is looked at before it. -/
def firm (policy : Policy) (readers : Readers) : List Check :=
  [monitored, platform, language, qualityAllowed, content, acceptableSize, blocklist readers,
    indexerTag readers, alreadyImported policy readers, history policy readers,
    requiredFlags readers]

/-- The rest of the walk, which rejects for the time being only. -/
def passing (policy : Policy) (readers : Readers) : List Check :=
  [queue policy readers, minimumScore, repack policy, delay policy, proper policy, disk policy]

theorem inOrder_standard (policy : Policy) (readers : Readers) :
    inOrder (standard policy readers) = firm policy readers ++ passing policy readers := by
  refine (Staged.eq_inOrder ⟨?_, ?_⟩).symm
  · rw [← List.pairwise_map (f := fun check : Check => check.stage.rank) (R := (· ≤ ·))]
    show [0, 0, 0, 0, 0, 0, 1, 1, 1, 1, 2, 2, 2, 2, 2, 2, 3].Pairwise (· ≤ ·)
    decide
  · intro stage
    cases stage <;> rfl

theorem mem_standard_iff :
    check ∈ standard policy readers ↔
      check ∈ firm policy readers ∨ check ∈ passing policy readers := by
  rw [← mem_inOrder, inOrder_standard, List.mem_append]

theorem temporary_of_mem_passing :
    ∀ check ∈ passing policy readers, check.severity = .temporary := by
  simp only [passing, List.forall_mem_cons]
  exact ⟨rfl, rfl, rfl, rfl, rfl, rfl, nofun⟩

theorem mem_permanent (mem : check ∈ standard policy readers)
    (permanent : check.severity = .permanent) :
    check = blocklist readers ∨ check = requiredFlags readers ∨ check = indexerTag readers ∨
      check = alreadyImported policy readers := by
  have all : ∀ check ∈ standard policy readers, check.severity = .permanent →
      check = blocklist readers ∨ check = requiredFlags readers ∨ check = indexerTag readers ∨
        check = alreadyImported policy readers := by
    simp only [standard, List.forall_mem_cons]
    refine ⟨nofun, nofun, nofun, nofun, nofun, nofun, ?_, ?_, ?_, ?_, nofun, nofun, nofun, nofun,
      nofun, nofun, nofun, List.forall_mem_nil _⟩
    · exact fun _ => .inl trivial
    · exact fun _ => .inr (.inl trivial)
    · exact fun _ => .inr (.inr (.inl trivial))
    · exact fun _ => .inr (.inr (.inr trivial))
  exact all check mem permanent

/-! ## What is looked at -/

/-- Two walks whose readings differ are related step by step if the six checks that read are. -/
theorem forall₂_standard {others : Readers} {R : Check → Check → Prop}
    (refl : ∀ check, R check check) (seen : R (blocklist readers) (blocklist others))
    (tag : R (indexerTag readers) (indexerTag others))
    (imported : R (alreadyImported policy readers) (alreadyImported policy others))
    (grabbed : R (history policy readers) (history policy others))
    (flags : R (requiredFlags readers) (requiredFlags others))
    (queued : R (queue policy readers) (queue policy others)) :
    (inOrder (standard policy readers)).Forall₂ R (inOrder (standard policy others)) := by
  rw [inOrder_standard, inOrder_standard]
  apply List.rel_append
  · simp only [firm, List.forall₂_cons]
    exact ⟨refl _, refl _, refl _, refl _, refl _, refl _, seen, tag, imported, grabbed, flags,
      .nil⟩
  · simp only [passing, List.forall₂_cons]
    exact ⟨queued, refl _, refl _, refl _, refl _, refl _, .nil⟩

/-- A check to which one context is as good as another. -/
def Heedless (check : Check) : Prop := ∀ o c c', check.run o c = check.run o c'

theorem heedless_of_run {run : Offer → Except Fault Answer} (h : check.run = fun o _ => run o) :
    check.Heedless := by
  intro o c c'
  rw [h]

theorem heedless_of_mem_firm :
    ∀ check ∈ firm policy readers,
      check = monitored ∨ check = history policy readers ∨ check.Heedless := by
  simp only [firm, List.forall_mem_cons]
  refine ⟨.inl trivial, ?_, ?_, ?_, ?_, ?_, ?_, ?_, ?_, .inr (.inl trivial), ?_, nofun⟩
  all_goals exact .inr (.inr (heedless_of_run rfl))

theorem heedless_of_mem_passing :
    ∀ check ∈ passing policy readers,
      check = delay policy ∨ check = proper policy ∨ check.Heedless := by
  simp only [passing, List.forall_mem_cons]
  refine ⟨?_, ?_, ?_, .inl trivial, .inr (.inl trivial), ?_, nofun⟩
  all_goals exact .inr (.inr (heedless_of_run rfl))

/-- No check looks at the source of an offer. -/
theorem run_inContext (mem : check ∈ standard policy readers) (o : Offer) (c c' : Context) :
    check.run (o.inContext c) c' = check.run o c' := by
  have all : ∀ check ∈ standard policy readers,
      check.run (o.inContext c) c' = check.run o c' := by
    simp only [standard, List.forall_mem_cons]
    refine ⟨?_, ?_, ?_, ?_, ?_, ?_, ?_, ?_, ?_, ?_, ?_, ?_, ?_, ?_, ?_, ?_, ?_, nofun⟩
    all_goals rfl
  exact all check mem

end Check

/-! ## Approval -/

/-- The standard checks approve an offer. -/
def Offer.Approved (policy : Policy) (readers : Readers) (c : Context) (o : Offer) : Prop :=
  ∃ d, o.decide (Check.standard policy readers) c = .ok d ∧ d.isApproved

theorem Offer.approved_iff {policy : Policy} {readers : Readers} {c : Context} {o : Offer} :
    o.Approved policy readers c ↔
      (∃ game parsed, o.game = some game ∧ o.parsed = some parsed) ∧
        ∀ check ∈ Check.standard policy readers, check.run o c = .ok .accept := by
  rw [Approved, decide_approves_iff]
  refine and_congr_right fun _ => forall₂_congr fun check mem => ?_
  rw [Check.run_inContext mem]

end ReleaseSelection
