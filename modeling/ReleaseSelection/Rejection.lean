/-!
# Rejections

Why an offer is turned down, how firmly, and at which stage.
-/

namespace ReleaseSelection

/-- Stages run in this order: what the title says first, the file on disk last. -/
inductive Stage where
  | parsing | database | default | disk
  deriving DecidableEq, Repr

namespace Stage

def rank : Stage → Nat
  | parsing => 0
  | database => 1
  | default => 2
  | disk => 3

theorem rank_inj {a b : Stage} : a.rank = b.rank ↔ a = b := by cases a <;> cases b <;> decide

end Stage

/-- A permanent rejection is not looked at again for the same release. -/
inductive Severity where
  | permanent | temporary
  deriving DecidableEq, Repr

def Severity.name : Severity → String
  | permanent => "permanent"
  | temporary => "temporary"

inductive Reason where
  | unknownGame | unableToParse | error | decisionError | blocklisted | requiredFlags
  | gameNotMonitored | platformNotPreferred | wantedLanguage | qualityNotWanted
  | customFormatMinimumScore | dlcOnly | updateOnly | seasonPassOnly | alreadyImportedSameHash
  | alreadyImportedSameName | historyRecentCutoffMet | historyCdhDisabledCutoffMet
  | historyHigherPreference | historyCdhDisabledHigherPreference | queueCutoffMet
  | queueHigherPreference | queueUpgradesNotAllowed | repackDisabled | repackUnknownReleaseGroup
  | repackReleaseGroupDoesNotMatch | diskCutoffMet | diskHigherPreference | diskHigherRevision
  | diskCustomFormatCutoffMet | diskCustomFormatScore | diskCustomFormatScoreIncrement
  | diskUpgradesNotAllowed | minimumAgeDelay | noMatchingTag | propersDisabled | properForOldFile
  deriving DecidableEq, Repr

def Reason.name : Reason → String
  | unknownGame => "unknown_game"
  | unableToParse => "unable_to_parse"
  | error => "error"
  | decisionError => "decision_error"
  | blocklisted => "blocklisted"
  | requiredFlags => "required_flags"
  | gameNotMonitored => "game_not_monitored"
  | platformNotPreferred => "platform_not_preferred"
  | wantedLanguage => "wanted_language"
  | qualityNotWanted => "quality_not_wanted"
  | customFormatMinimumScore => "custom_format_minimum_score"
  | dlcOnly => "dlc_only"
  | updateOnly => "update_only"
  | seasonPassOnly => "season_pass_only"
  | alreadyImportedSameHash => "already_imported_same_hash"
  | alreadyImportedSameName => "already_imported_same_name"
  | historyRecentCutoffMet => "history_recent_cutoff_met"
  | historyCdhDisabledCutoffMet => "history_cdh_disabled_cutoff_met"
  | historyHigherPreference => "history_higher_preference"
  | historyCdhDisabledHigherPreference => "history_cdh_disabled_higher_preference"
  | queueCutoffMet => "queue_cutoff_met"
  | queueHigherPreference => "queue_higher_preference"
  | queueUpgradesNotAllowed => "queue_upgrades_not_allowed"
  | repackDisabled => "repack_disabled"
  | repackUnknownReleaseGroup => "repack_unknown_release_group"
  | repackReleaseGroupDoesNotMatch => "repack_release_group_does_not_match"
  | diskCutoffMet => "disk_cutoff_met"
  | diskHigherPreference => "disk_higher_preference"
  | diskHigherRevision => "disk_higher_revision"
  | diskCustomFormatCutoffMet => "disk_custom_format_cutoff_met"
  | diskCustomFormatScore => "disk_custom_format_score"
  | diskCustomFormatScoreIncrement => "disk_custom_format_score_increment"
  | diskUpgradesNotAllowed => "disk_upgrades_not_allowed"
  | minimumAgeDelay => "minimum_age_delay"
  | noMatchingTag => "no_matching_tag"
  | propersDisabled => "propers_disabled"
  | properForOldFile => "proper_for_old_file"

/-- A rejection that no check made has no check. -/
structure Rejection where
  reason : Reason
  message : String
  severity : Severity
  stage : Stage
  check : Option String
  deriving DecidableEq, Repr

def Rejection.text (r : Rejection) : String := "[" ++ r.severity.name ++ "] " ++ r.message

end ReleaseSelection
