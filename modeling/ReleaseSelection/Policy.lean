import ReleaseSelection.Release

/-!
# Policies

What the library wants of releases beyond the profiles of its games: how proper releases count, how
long to wait for a better release, and how far back recorded facts matter.
-/

namespace ReleaseSelection

/-- How much a higher revision of the same quality counts. -/
inductive Propers where
  | preferAndUpgrade | doNotUpgrade | doNotPrefer
  deriving DecidableEq, Repr

namespace Propers

def all : List Propers := [preferAndUpgrade, doNotUpgrade, doNotPrefer]

def name : Propers → String
  | preferAndUpgrade => "prefer_and_upgrade"
  | doNotUpgrade => "do_not_upgrade"
  | doNotPrefer => "do_not_prefer"

end Propers

instance : Named Propers := ⟨Propers.all, Propers.name⟩

/-- Whether a score that equals the cutoff score of a profile has reached it. -/
inductive Ceiling where
  | metAtCeiling | climbAtCeiling
  deriving DecidableEq, Repr

namespace Ceiling

def all : List Ceiling := [metAtCeiling, climbAtCeiling]

def name : Ceiling → String
  | metAtCeiling => "met_at_ceiling"
  | climbAtCeiling => "climb_at_ceiling"

end Ceiling

instance : Named Ceiling := ⟨Ceiling.all, Ceiling.name⟩

/-- The protocols that a delay profile tells apart. -/
inductive Transport where
  | usenet | torrent
  deriving DecidableEq, Repr

namespace Transport

def all : List Transport := [usenet, torrent]

def name : Transport → String
  | usenet => "usenet"
  | torrent => "torrent"

def ofProtocol? : Protocol → Option Transport
  | .unknown => none
  | .usenet => some usenet
  | .torrent => some torrent

end Transport

instance : Named Transport := ⟨Transport.all, Transport.name⟩

structure DelayProfile where
  order : Score
  tags : List Count
  preferred : Transport
  usenetDelay : Count
  torrentDelay : Count
  bypassIfHighestQuality : Bool
  bypassIfAboveScore : Bool
  minimumScore : Score
  deriving DecidableEq, Repr

namespace DelayProfile

/-- No delay, behind every other profile. -/
def default : DelayProfile := ⟨2147483647, [], .usenet, 0, 0, false, false, 0⟩

def delay (p : DelayProfile) : Transport → Count
  | .usenet => p.usenetDelay
  | .torrent => p.torrentDelay

def isTagged (p : DelayProfile) : Bool := !p.tags.isEmpty

def sharesTag (p : DelayProfile) (tags : List Count) : Bool := p.tags.any tags.contains

end DelayProfile

structure Policy where
  propers : Propers
  completedDownloadHandling : Bool
  preferIndexerFlags : Bool
  ceiling : Ceiling
  historyRecencyHours : Period
  properMaxFileAgeDays : Period
  maxConcurrentEvaluations : Size
  evaluationTimeout : Size
  delayProfiles : List DelayProfile
  deriving DecidableEq, Repr

namespace Policy

def default : Policy where
  propers := .preferAndUpgrade
  completedDownloadHandling := true
  preferIndexerFlags := false
  ceiling := .metAtCeiling
  historyRecencyHours := 12
  properMaxFileAgeDays := 7
  maxConcurrentEvaluations := 8
  evaluationTimeout := 5000
  delayProfiles := []

/-- A bound of a policy that is not kept. -/
inductive Error where
  | historyRecency (hours : Period)
  | properFileAge (days : Period)
  | noConcurrency
  | noTimeout
  deriving DecidableEq, Repr

namespace Error

def message : Error → String
  | historyRecency hours =>
    "decision.history_recency_hours must be between 1 and 876000, got " ++ Text.numeral hours.val
  | properFileAge days =>
    "decision.proper_max_file_age_days must be between 1 and 36500, got " ++ Text.numeral days.val
  | noConcurrency => "decision.max_concurrent_evaluations must be at least 1"
  | noTimeout => "decision.evaluation_timeout_ms must be at least 1"

end Error

/-- The bounds are checked in a fixed order and the first that is not kept is reported. Windows are
limited to a hundred years. -/
def validate (p : Policy) : Except Error Unit :=
  if p.historyRecencyHours.val < 1 ∨ 876000 < p.historyRecencyHours.val then
    .error (.historyRecency p.historyRecencyHours)
  else if p.properMaxFileAgeDays.val < 1 ∨ 36500 < p.properMaxFileAgeDays.val then
    .error (.properFileAge p.properMaxFileAgeDays)
  else if p.maxConcurrentEvaluations.val = 0 then .error .noConcurrency
  else if p.evaluationTimeout.val = 0 then .error .noTimeout
  else .ok ()

/-- The first profile by order that shares a tag, else the first without tags, else no delay. -/
def delayProfileFor (p : Policy) (tags : List Count) : DelayProfile :=
  let profiles := p.delayProfiles.mergeSort fun a b => a.order.val ≤ b.order.val
  ((profiles.find? fun d => d.isTagged && d.sharesTag tags).or
    (profiles.find? fun d => !d.isTagged)).getD .default

/-- The nanoseconds for which a grab counts as recent; windows that are too long do not end. -/
def recencyWindow (p : Policy) : Option Int :=
  if (p.historyRecencyHours.val * 3600).natAbs ≤ 9223372036854775 then
    some (Instant.hours p.historyRecencyHours.val)
  else none

def isRecent (p : Policy) (now date : Instant) : Bool :=
  p.recencyWindow.all fun window => now.nanosSince date < window

/-- A file is old when it was added before the days of the window, if the window starts at all. -/
def isOldFile (p : Policy) (now added : Instant) : Bool :=
  (now.daysBefore? p.properMaxFileAgeDays.val).any fun oldest => added < oldest

end Policy

/-- The settings of a delay profile in the order of a row. -/
def DelayProfile.settings : List String :=
  ["order", "tags", "preferred_protocol", "usenet_delay_minutes", "torrent_delay_minutes",
    "bypass_if_highest_quality", "bypass_if_above_custom_format_score",
    "minimum_custom_format_score"]

instance : DataForm DelayProfile where
  toData p := .record
    [("order", toData p.order), ("tags", toData p.tags),
      ("preferred_protocol", toData p.preferred), ("usenet_delay_minutes", toData p.usenetDelay),
      ("torrent_delay_minutes", toData p.torrentDelay),
      ("bypass_if_highest_quality", toData p.bypassIfHighestQuality),
      ("bypass_if_above_custom_format_score", toData p.bypassIfAboveScore),
      ("minimum_custom_format_score", toData p.minimumScore)]
  ofData? d := do
    let m ← Members.of? DelayProfile.settings d
    return {
      order := ← m.required "order"
      tags := ← m.required "tags"
      preferred := ← m.required "preferred_protocol"
      usenetDelay := ← m.required "usenet_delay_minutes"
      torrentDelay := ← m.required "torrent_delay_minutes"
      bypassIfHighestQuality := ← m.required "bypass_if_highest_quality"
      bypassIfAboveScore := ← m.required "bypass_if_above_custom_format_score"
      minimumScore := ← m.required "minimum_custom_format_score" }

/-- The settings of a policy in the order of a row. -/
def Policy.settings : List String :=
  ["download_propers_and_repacks", "enable_completed_download_handling", "prefer_indexer_flags",
    "format_ceiling_policy", "history_recency_hours", "proper_max_file_age_days",
    "max_concurrent_evaluations", "evaluation_timeout_ms", "delay_profiles"]

instance : DataForm Policy where
  toData p := .record
    [("download_propers_and_repacks", toData p.propers),
      ("enable_completed_download_handling", toData p.completedDownloadHandling),
      ("prefer_indexer_flags", toData p.preferIndexerFlags),
      ("format_ceiling_policy", toData p.ceiling),
      ("history_recency_hours", toData p.historyRecencyHours),
      ("proper_max_file_age_days", toData p.properMaxFileAgeDays),
      ("max_concurrent_evaluations", toData p.maxConcurrentEvaluations),
      ("evaluation_timeout_ms", toData p.evaluationTimeout),
      ("delay_profiles", toData p.delayProfiles)]
  ofData? d := do
    let m ← Members.of? Policy.settings d
    return {
      propers := ← m.required "download_propers_and_repacks"
      completedDownloadHandling := ← m.required "enable_completed_download_handling"
      preferIndexerFlags := ← m.required "prefer_indexer_flags"
      ceiling := ← m.required "format_ceiling_policy"
      historyRecencyHours := ← m.required "history_recency_hours"
      properMaxFileAgeDays := ← m.required "proper_max_file_age_days"
      maxConcurrentEvaluations := ← m.required "max_concurrent_evaluations"
      evaluationTimeout := ← m.required "evaluation_timeout_ms"
      delayProfiles := ← m.required "delay_profiles" }

end ReleaseSelection
