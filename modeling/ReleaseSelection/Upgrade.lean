import ReleaseSelection.Policy
import ReleaseSelection.Record

/-!
# Upgrades

Whether a candidate improves on what is held already. Quality decides first, by its rank in the
profile; revision, format score and version follow, each within limits that the profile and the
rules set. `compareRated` is the comparison once both sides are scored, and `evaluate` scores them.
-/

namespace ReleaseSelection

/-- One side of a comparison. -/
structure Standing where
  quality : QualityModel
  formats : List Format
  version : Option GameVersion
  deriving DecidableEq, Repr

def GameFile.standing (f : GameFile) : Standing := ⟨f.quality, f.formats, f.version⟩

def QueueItem.standing (q : QueueItem) : Standing := ⟨q.quality, q.formats, q.version⟩

def HistoryEntry.standing (h : HistoryEntry) : Standing := ⟨h.quality, h.formats, h.version⟩

/-- What makes a candidate an upgrade. -/
inductive Gain where
  | betterQuality | betterRevision | betterFormatScore | newerVersion
  deriving DecidableEq, Repr

/-- What keeps a candidate from being an upgrade. -/
inductive Shortfall where
  | upgradesNotAllowed | betterQuality | betterRevision | qualityCutoff | customFormatCutoff
  | customFormatScore | minCustomFormatScore
  deriving DecidableEq, Repr

inductive Outcome where
  | upgrade (gain : Gain)
  | notUpgrade (shortfall : Shortfall)
  deriving DecidableEq, Repr

def Outcome.isUpgrade : Outcome → Bool
  | upgrade _ => true
  | notUpgrade _ => false

/-- A quality that the profile does not list ranks below all that it lists. -/
def Profile.rank (p : Profile) (q : Quality) : Int :=
  match p.rankOf q with
  | some n => n
  | none => -1

/-- The rank of a quality is at or above the cutoff of the profile. -/
def Profile.qualityCutoffMet (p : Profile) (q : Quality) : Bool :=
  match p.cutoffIndex, p.rankOf q with
  | some cutoff, some rank => cutoff ≤ rank
  | _, _ => false

structure UpgradeRules where
  propers : Propers
  ceiling : Ceiling
  deriving DecidableEq, Repr

def Policy.upgradeRules (p : Policy) : UpgradeRules := ⟨p.propers, p.ceiling⟩

namespace UpgradeRules

def formatCutoffMet (rules : UpgradeRules) (p : Profile) (score : Score) : Bool :=
  match rules.ceiling with
  | .metAtCeiling => p.cutoffFormatScore.val ≤ score.val
  | .climbAtCeiling => p.cutoffFormatScore.val < score.val

/-- Whether a score improves on another by enough, and if not, what is missing first. -/
def formatGain (rules : UpgradeRules) (p : Profile) (incumbent candidate : Score) :
    Except Shortfall Unit :=
  if rules.formatCutoffMet p incumbent then .error .customFormatCutoff
  else if candidate.val ≤ incumbent.val then .error .customFormatScore
  else if (Bounded.saturate (candidate.val - incumbent.val) : Score).val <
      p.minUpgradeFormatScore.val then
    .error .minCustomFormatScore
  else .ok ()

/-- Higher revisions win only where they are preferred. -/
def revisionGain (rules : UpgradeRules) (incumbent candidate : QualityModel) : Bool :=
  rules.propers == .preferAndUpgrade && compare candidate.revision incumbent.revision == .gt

/-- Lower revisions lose unless revisions are to be ignored. -/
def revisionLoss (rules : UpgradeRules) (incumbent candidate : QualityModel) : Bool :=
  rules.propers != .doNotPrefer && compare candidate.revision incumbent.revision == .lt

/-- A lower quality wins only past the quality cutoff, with a score above the ceiling that the
incumbent has not reached. -/
def compareRated (rules : UpgradeRules) (p : Profile) (incumbent candidate : QualityModel)
    (incumbentScore candidateScore : Score) : Outcome :=
  let cutoffMet := p.qualityCutoffMet incumbent.quality
  let gain := rules.formatGain p incumbentScore candidateScore
  match compare (p.rank candidate.quality) (p.rank incumbent.quality) with
  | .gt =>
    if !cutoffMet then .upgrade .betterQuality
    else if rules.revisionGain incumbent candidate then .upgrade .betterRevision
    else
      match gain with
      | .ok _ => .upgrade .betterFormatScore
      | .error _ => .notUpgrade .qualityCutoff
  | .eq =>
    if rules.revisionLoss incumbent candidate then .notUpgrade .betterRevision
    else if rules.revisionGain incumbent candidate then .upgrade .betterRevision
    else
      match gain with
      | .ok _ => .upgrade .betterFormatScore
      | .error shortfall => .notUpgrade shortfall
  | .lt =>
    match gain with
    | .ok _ =>
      if cutoffMet && !rules.revisionLoss incumbent candidate &&
          p.cutoffFormatScore.val < candidateScore.val then
        .upgrade .betterFormatScore
      else .notUpgrade .betterQuality
    | .error _ => .notUpgrade .betterQuality

/-- A newer version makes an upgrade of whatever is none without it. -/
def withVersion (incumbent candidate : Option GameVersion) : Outcome → Outcome
  | .upgrade gain => .upgrade gain
  | .notUpgrade shortfall =>
    if GameVersion.isUpgrade incumbent candidate then .upgrade .newerVersion
    else .notUpgrade shortfall

/-- A locked profile refuses every upgrade, and nothing is scored. -/
def evaluate (rules : UpgradeRules) (p : Profile) (incumbent candidate : Standing) :
    Except Fault Outcome := do
  if p.upgradeAllowed then
    let incumbentScore ← p.scoreOf incumbent.formats
    let candidateScore ← p.scoreOf candidate.formats
    return withVersion incumbent.version candidate.version
      (rules.compareRated p incumbent.quality candidate.quality incumbentScore candidateScore)
  else return .notUpgrade .upgradesNotAllowed

def isUpgrade (rules : UpgradeRules) (p : Profile) (incumbent candidate : Standing) :
    Except Fault Bool :=
  Outcome.isUpgrade <$> rules.evaluate p incumbent candidate

/-- Whether there is room above the incumbent: below the quality cutoff, below the format ceiling,
or under a higher revision of the same quality. -/
def cutoffNotMet (rules : UpgradeRules) (p : Profile) (incumbent : Standing)
    (candidate : Option QualityModel) : Except Fault Bool := do
  if p.qualityCutoffMet incumbent.quality.quality then
    let score ← p.scoreOf incumbent.formats
    return !rules.formatCutoffMet p score ||
      (rules.propers != .doNotPrefer &&
        candidate.any (incumbent.quality.isRevisionUpgrade ·))
  else return true

end UpgradeRules

end ReleaseSelection
