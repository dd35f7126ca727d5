import ReleaseSelection.Game
import ReleaseSelection.Release

/-!
# Validation

The violations of a profile, a game or a release, in a fixed order. A value without violations is
valid.
-/

namespace ReleaseSelection

structure Violation where
  field : String
  message : String
  deriving DecidableEq, Repr

def Violation.text (v : Violation) : String := v.field ++ ": " ++ v.message

/-- The violation of a rule that is broken. -/
def violationIf (broken : Bool) (field message : String) : List Violation :=
  if broken then [⟨field, message⟩] else []

/-- A size that cannot be aimed at. -/
def Profile.isUnusableSize (size : Float) : Bool := !size.isFinite || size ≤ 0

def Profile.violations (p : Profile) : List Violation :=
  violationIf (Text.isBlankText p.name) "name" "name cannot be empty" ++
  violationIf (!p.items.any (·.allowed)) "items" "at least one quality must be allowed" ++
  violationIf (p.upgradeAllowed && !p.isAllowed p.cutoff) "cutoff"
    "cutoff must be an allowed quality" ++
  violationIf (p.minUpgradeFormatScore.val < 1) "min_upgrade_format_score"
    "minimum upgrade score must be >= 1" ++
  violationIf (p.preferredSize.any Profile.isUnusableSize) "preferred_size_mb_per_minute"
    "preferred size must be positive when provided"

def Game.violations (g : Game) : List Violation :=
  violationIf (Text.isBlankText g.title) "title" "title cannot be empty" ++ g.profile.violations

def Release.violations (r : Release) : List Violation :=
  violationIf (Text.isBlankText r.title) "title" "title cannot be empty" ++
  violationIf (r.protocol != .torrent && (r.seeders.isSome || r.peers.isSome)) "seeders"
    "swarm counts are only valid for torrents"

end ReleaseSelection
