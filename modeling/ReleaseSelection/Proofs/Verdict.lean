import ReleaseSelection.Proofs.Held
import ReleaseSelection.Proofs.Pipeline
import ReleaseSelection.Proofs.Sorting

/-!
# The verdict of the checks

Checks are walked through by stage, and those of a stage as they were registered. The first that
does not accept gives the rejection, and none behind it is asked (`consult_verdict`). Its stage is
the earliest at which any check refuses, so it does not depend on the order of registration
(`EarliestRefusal.perm`).
-/

namespace ReleaseSelection

variable {o : Offer} {c : Context} {checks walk : List Check}

/-! ## The walk -/

namespace Check

/-- A walk through checks by stage, those of one stage in the order of their registration. -/
structure Staged (checks walk : List Check) : Prop where
  byStage : walk.Pairwise fun a b => a.stage.rank ≤ b.stage.rank
  registered : KeepsTies Check.stage walk checks

theorem earlierStage_trans (a b d : Check) (hab : decide (a.stage.rank ≤ b.stage.rank))
    (hbd : decide (b.stage.rank ≤ d.stage.rank)) : decide (a.stage.rank ≤ d.stage.rank) :=
  decide_eq_true (Nat.le_trans (of_decide_eq_true hab) (of_decide_eq_true hbd))

theorem earlierStage_total (a b : Check) :
    decide (a.stage.rank ≤ b.stage.rank) || decide (b.stage.rank ≤ a.stage.rank) := by
  simpa using Nat.le_total a.stage.rank b.stage.rank

theorem staged_inOrder (checks : List Check) : Staged checks (inOrder checks) where
  byStage := by
    have sorted := List.pairwise_mergeSort earlierStage_trans earlierStage_total checks
    exact sorted.imp of_decide_eq_true
  registered := by
    refine keepsTies_mergeSort earlierStage_trans earlierStage_total ?_ checks
    intro a b same
    simp [same]

/-- The stages and the registration leave no choice of a walk. -/
theorem Staged.eq_inOrder (h : Staged checks walk) : walk = inOrder checks := by
  have other := staged_inOrder checks
  have ties : KeepsTies Check.stage walk (inOrder checks) := fun stage =>
    (h.registered stage).trans (other.registered stage).symm
  have antisymm {s t : Stage} (hst : s.rank ≤ t.rank) (hts : t.rank ≤ s.rank) : s = t :=
    Stage.rank_inj.mp (Nat.le_antisymm hst hts)
  exact ties.eq_of_pairwise (R := fun s t => s.rank ≤ t.rank) antisymm h.byStage other.byStage

/-- What a check makes of an answer that is not acceptance. -/
inductive Rejects (check : Check) : Answer → Rejection → Prop where
  | refused (reason : Reason) (message : String) :
      Rejects check (.reject reason message)
        ⟨reason, message, check.severity, check.stage, some check.name⟩
  | failed (error : String) :
      Rejects check (.failure error)
        ⟨.decisionError, check.name ++ ": " ++ error, .temporary, check.stage, some check.name⟩

theorem rejection?_eq_some_iff {check : Check} {answer : Answer} {r : Rejection} :
    check.rejection? answer = some r ↔ check.Rejects answer r := by
  constructor
  · intro h
    cases answer with
    | accept => simp [rejection?] at h
    | reject reason message =>
      obtain rfl := Option.some.inj h
      exact .refused reason message
    | failure error =>
      obtain rfl := Option.some.inj h
      exact .failed error
  · intro h
    cases h <;> rfl

namespace Rejects

variable {check : Check} {answer : Answer} {r : Rejection}

theorem stage (h : check.Rejects answer r) : r.stage = check.stage := by cases h <;> rfl

theorem check_eq (h : check.Rejects answer r) : r.check = some check.name := by cases h <;> rfl

theorem ne_accept (h : check.Rejects answer r) : answer ≠ .accept := by cases h <;> nofun

end Rejects

end Check

/-! ## The verdict -/

/-- How a walk ends: all checks are asked and accept, or those up to the first that does not. -/
inductive Verdict (o : Offer) (c : Context) (walk : List Check) :
    List Check → Option Rejection → Prop where
  | passed (accept : ∀ check ∈ walk, check.run o c = .ok .accept) : Verdict o c walk walk none
  | stopped (before : List Check) (check : Check) (after : List Check) (answer : Answer)
      (r : Rejection) (walked : walk = before ++ check :: after)
      (accept : ∀ b ∈ before, b.run o c = .ok .accept) (run : check.run o c = .ok answer)
      (rejects : check.Rejects answer r) : Verdict o c walk (before ++ [check]) (some r)

/-- One more check in front of a walk is asked first, and it accepts. -/
theorem Verdict.cons {asked : List Check} {r : Option Rejection} (h : Verdict o c walk asked r)
    {check : Check} (run : check.run o c = .ok .accept) :
    Verdict o c (check :: walk) (check :: asked) r := by
  cases h with
  | passed accept => exact .passed (List.forall_mem_cons.mpr ⟨run, accept⟩)
  | stopped before last after answer r walked accept stops rejects =>
    exact .stopped (check :: before) last after answer r (congrArg _ walked)
      (List.forall_mem_cons.mpr ⟨run, accept⟩) stops rejects

theorem consult_verdict (answers : ∀ check ∈ walk, ∃ answer, check.run o c = .ok answer) :
    ∃ asked r, consult o c walk = (asked, .ok r) ∧ Verdict o c walk asked r := by
  induction walk with
  | nil => exact ⟨[], none, rfl, .passed (List.forall_mem_nil _)⟩
  | cons check walk ih =>
    obtain ⟨⟨answer, run⟩, others⟩ := List.forall_mem_cons.mp answers
    cases rejected : check.rejection? answer with
    | none =>
      obtain rfl := Check.rejection?_eq_none_iff.mp rejected
      obtain ⟨asked, r, consulted, verdict⟩ := ih others
      refine ⟨check :: asked, r, ?_, verdict.cons run⟩
      simp only [consult, run, rejected, consulted]
    | some r =>
      refine ⟨[check], some r, ?_, ?_⟩
      · simp only [consult, run, rejected]
      · exact .stopped [] check walk answer r rfl (List.forall_mem_nil _) run
          (Check.rejection?_eq_some_iff.mp rejected)

/-! ## The stage of a rejection -/

/-- A check refuses at this stage, and none does at an earlier one. -/
structure EarliestRefusal (o : Offer) (c : Context) (checks : List Check) (stage : Stage) :
    Prop where
  refused : ∃ check ∈ checks, check.stage = stage ∧ check.run o c ≠ .ok .accept
  earliest : ∀ check ∈ checks, check.run o c ≠ .ok .accept → stage.rank ≤ check.stage.rank

theorem EarliestRefusal.perm {others : List Check} {stage : Stage}
    (h : EarliestRefusal o c checks stage) (perm : checks.Perm others) :
    EarliestRefusal o c others stage := by
  obtain ⟨check, registered, refusal⟩ := h.refused
  exact ⟨⟨check, perm.mem_iff.mp registered, refusal⟩,
    fun other mem => h.earliest other (perm.mem_iff.mpr mem)⟩

theorem EarliestRefusal.unique {s t : Stage} (hs : EarliestRefusal o c checks s)
    (ht : EarliestRefusal o c checks t) : s = t := by
  obtain ⟨a, ha, rfl, refusedA⟩ := hs.refused
  obtain ⟨b, hb, rfl, refusedB⟩ := ht.refused
  exact Stage.rank_inj.mp (Nat.le_antisymm (hs.earliest b hb refusedB) (ht.earliest a ha refusedA))

theorem Verdict.eq_none_iff {asked : List Check} {r : Option Rejection}
    (h : Verdict o c walk asked r) : r = none ↔ ∀ check ∈ walk, check.run o c = .ok .accept := by
  cases h with
  | passed accept => exact ⟨fun _ => accept, fun _ => rfl⟩
  | stopped before check after answer r walked _ run rejects =>
    refine ⟨nofun, fun accept => ?_⟩
    have accepts := accept check (by simp [walked])
    exact absurd (Except.ok.inj (run.symm.trans accepts)) rejects.ne_accept

theorem Verdict.earliestRefusal {asked : List Check} {r : Rejection}
    (h : Verdict o c walk asked (some r)) (staged : Check.Staged checks walk) :
    EarliestRefusal o c checks r.stage := by
  cases h with
  | stopped before check after answer r walked accept run rejects =>
    have registered {a : Check} : a ∈ walk ↔ a ∈ checks := staged.registered.mem_iff
    constructor
    · refine ⟨check, registered.mp (by simp [walked]), rejects.stage.symm, fun accepts => ?_⟩
      exact rejects.ne_accept (Except.ok.inj (run.symm.trans accepts))
    · intro other mem refused
      rw [rejects.stage]
      have place := registered.mpr mem
      have byStage := staged.byStage
      rw [walked, List.mem_append, List.mem_cons] at place
      rw [walked, List.pairwise_append] at byStage
      rcases place with early | rfl | late
      · exact absurd (accept other early) refused
      · exact Nat.le_refl _
      · exact (List.pairwise_cons.mp byStage.2.1).1 other late

/-! ## The decision -/

/-- What is known of a decision from the checks that were asked for it. -/
structure Judged (o : Offer) (c : Context) (checks asked : List Check) (d : Decision) : Prop where
  offer : d.offer = o.inContext c
  verdict : ∃ walk, Check.Staged checks walk ∧ Verdict (o.inContext c) c walk asked d.rejection
  approved : d.isApproved ↔ ∀ check ∈ checks, check.run (o.inContext c) c = .ok .accept
  stage : ∀ r, d.rejection = some r → EarliestRefusal (o.inContext c) c checks r.stage

theorem judge_judged {game : Game} {parsed : ParsedTitle} (matched : o.game = some game)
    (understood : o.parsed = some parsed)
    (answers : ∀ check ∈ checks, ∃ answer, check.run (o.inContext c) c = .ok answer) :
    ∃ asked d, o.judge checks c = (asked, .ok d) ∧ Judged o c checks asked d := by
  have fit : (o.inContext c).unfit? c = none :=
    unfit?_eq_none_iff.mpr ⟨game, parsed, matched, understood⟩
  have staged := Check.staged_inOrder checks
  have registered {a : Check} : a ∈ Check.inOrder checks ↔ a ∈ checks :=
    staged.registered.mem_iff
  have walked : ∀ check ∈ Check.inOrder checks,
      ∃ answer, check.run (o.inContext c) c = .ok answer :=
    fun check mem => answers check (registered.mp mem)
  obtain ⟨asked, r, consulted, verdict⟩ := consult_verdict walked
  refine ⟨asked, ⟨o.inContext c, r⟩, ?_, ?_⟩
  · simp only [Offer.judge, fit, consulted, Except.map]
  · constructor
    · rfl
    · exact ⟨_, staged, verdict⟩
    · rw [Decision.isApproved, Option.isNone_iff_eq_none, verdict.eq_none_iff]
      simp only [registered]
    · rintro r rfl
      exact verdict.earliestRefusal staged

/-- The registration may be of another order: the approval and the stage of a rejection stay. -/
theorem Judged.perm {others asked asked' : List Check} {d d' : Decision}
    (h : Judged o c checks asked d) (h' : Judged o c others asked' d')
    (perm : checks.Perm others) :
    d'.isApproved = d.isApproved ∧
      d'.rejection.map (·.stage) = d.rejection.map (·.stage) := by
  have approved : d'.isApproved = d.isApproved := by
    rw [Bool.eq_iff_iff, h.approved, h'.approved]
    simp only [perm.mem_iff]
  refine ⟨approved, ?_⟩
  cases rejected : d.rejection with
  | none =>
    rw [Decision.isApproved, Decision.isApproved, rejected] at approved
    rw [Option.isNone_iff_eq_none.mp approved]
  | some r =>
    cases rejected' : d'.rejection with
    | none => simp [Decision.isApproved, rejected, rejected'] at approved
    | some r' =>
      have same := (h'.stage r' rejected').unique ((h.stage r rejected).perm perm)
      simp [same]

/-- **The first check in order that does not accept decides**, for whatever checks there are and
however they are registered. -/
theorem Offer.judge_first_refusal {game : Game} {parsed : ParsedTitle}
    (matched : o.game = some game) (understood : o.parsed = some parsed)
    (answers : ∀ check ∈ checks, ∃ answer, check.run (o.inContext c) c = .ok answer) :
    ∃ asked d, o.judge checks c = (asked, .ok d) ∧ Judged o c checks asked d ∧
      ∀ others, checks.Perm others → ∃ asked' d', o.judge others c = (asked', .ok d') ∧
        d'.isApproved = d.isApproved ∧
        d'.rejection.map (·.stage) = d.rejection.map (·.stage) := by
  obtain ⟨asked, d, judged, known⟩ := judge_judged matched understood answers
  refine ⟨asked, d, judged, known, fun others perm => ?_⟩
  have answers' : ∀ check ∈ others, ∃ answer, check.run (o.inContext c) c = .ok answer :=
    fun check mem => answers check (perm.mem_iff.mpr mem)
  obtain ⟨asked', d', judged', known'⟩ := judge_judged matched understood answers'
  exact ⟨asked', d', judged', known.perm known' perm⟩

namespace Check

/-- A check with one answer to every offer. -/
def answering (name : String) (stage : Stage) (answer : Answer) : Check where
  name := name
  stage := stage
  run := fun _ _ => .ok answer

def betterFile : Check :=
  answering "File" .disk (.reject .diskHigherPreference "Existing file is better")

def lostRecords : Check := answering "Records" .default (.failure "history store unavailable")

def extraContent : Check :=
  answering "Content" .default (.reject .dlcOnly "Release is DLC only")

def plainTitle : Check := answering "Title" .parsing .accept

def shuffled : List Check := [betterFile, lostRecords, extraContent, plainTitle]

/-- Of the two checks of one stage the one registered first stays ahead. -/
theorem inOrder_shuffled :
    inOrder shuffled = [plainTitle, lostRecords, extraContent, betterFile] := by
  refine (Staged.eq_inOrder ⟨?_, ?_⟩).symm
  · simp [betterFile, lostRecords, extraContent, plainTitle, answering, Stage.rank]
  · intro stage
    cases stage <;> rfl

end Check

def Offer.plain : Offer :=
  (Game.ofTitle .nil "Small" .small).offered (.unversioned .retail 1 [])

theorem Offer.judge_first_refusal_shuffled :
    ∃ asked d, Offer.plain.judge Check.shuffled (.rss ⟨0, 0⟩) = (asked, .ok d) ∧
      Judged .plain (.rss ⟨0, 0⟩) Check.shuffled asked d ∧
      (∀ others, Check.shuffled.Perm others → ∃ asked' d',
        Offer.plain.judge others (.rss ⟨0, 0⟩) = (asked', .ok d') ∧
        d'.isApproved = d.isApproved ∧
        d'.rejection.map (·.stage) = d.rejection.map (·.stage)) ∧
      asked = [.plainTitle, .lostRecords] ∧
      d.rejection = some ⟨.decisionError, "Records: history store unavailable", .temporary,
        .default, some "Records"⟩ := by
  have answers : ∀ check ∈ Check.shuffled, ∃ answer,
      check.run (Offer.plain.inContext (.rss ⟨0, 0⟩)) (.rss ⟨0, 0⟩) = .ok answer := by
    simp [Check.shuffled, Check.betterFile, Check.lostRecords, Check.extraContent,
      Check.plainTitle, Check.answering]
  obtain ⟨asked, d, judged, known, others⟩ := Offer.judge_first_refusal rfl rfl answers
  refine ⟨asked, d, judged, known, others, ?_⟩
  rw [Offer.judge, Check.inOrder_shuffled] at judged
  cases judged
  exact ⟨rfl, rfl⟩

end ReleaseSelection
