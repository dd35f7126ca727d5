import ReleaseSelection.Decision
import ReleaseSelection.Policy
import ReleaseSelection.Ranking.Bucket

/-!
# Ranking

Approved offers of a game are ordered by a key, the greatest first. The key is a list of numbers
that are compared one after another, so a part counts only where all before it tie.
-/

namespace ReleaseSelection

/-- What ranks an offer, the weightiest part first. -/
structure RankKey where
  lead : Int × Int × Int
  qualityWeight : Int
  formatScore : Int
  completeness : Int
  freshness : Int × Int
  proximity : Int
  deferredRevision : Int × Int
  preferredTransport : Bool
  swarm : Int × Int
  indexerPriority : Int
  flagScore : Int
  deriving DecidableEq, Repr

namespace RankKey

def parts (k : RankKey) : List Int :=
  [k.lead.1, k.lead.2.1, k.lead.2.2, k.qualityWeight, k.formatScore, k.completeness,
    k.freshness.1, k.freshness.2, k.proximity, k.deferredRevision.1, k.deferredRevision.2,
    if k.preferredTransport then 1 else 0, k.swarm.1, k.swarm.2, k.indexerPriority, k.flagScore]

instance : Ord RankKey := ⟨fun a b => compare a.parts b.parts⟩

end RankKey

/-- A release with all additional content counts more, one without the game itself less. -/
def Content.completeness : Content → Int
  | .baseGameWithAllDlc => 2
  | .baseGame | .unknown | .expansion => 1
  | .dlcOnly | .updateOnly | .seasonPass => 0

def Flag.score : Flag → Int
  | .doubleUpload | .freeleech | .approved | .golden | .internal => 2
  | .halfleech => 1
  | .scene => 0

namespace Offer

/-- The size in bytes that a release of the game should have, if that is a positive number. -/
def preferredSize? (o : Offer) : Option Float := do
  let game ← o.game
  let perMinute ← game.profile.preferredSize
  let target := perMinute * Float.ofInt game.runtime.val * 1048576
  if target > 0 then some target else none

def isPreferredTransport (o : Offer) (policy : Policy) : Bool :=
  let tags := (o.game.map (·.tags)).getD []
  Transport.ofProtocol? o.release.protocol == some (policy.delayProfileFor tags).preferred

/-- Younger is better, then larger in steps of 200 MiB. -/
def freshness (o : Offer) (now : Instant) : Int × Int :=
  (-Bucket.similarity (Float.ofInt (o.release.ageMinutes now)) 0.1, o.release.size.val / 209715200)

def swarmBucket (count : Option Count) : Int :=
  Bucket.similarity (Float.ofInt ((count.map (·.val)).getD 0)) 0.1

/-- Only torrents have a swarm. -/
def swarm (o : Offer) : Int × Int :=
  if o.release.protocol == .torrent then
    (swarmBucket o.release.seeders, swarmBucket o.release.peers)
  else (0, 0)

/-- Revisions lead where they are preferred. Where they are not, the score leads and revisions
come after the size. -/
def rankKey (o : Offer) (policy : Policy) (now : Instant) : RankKey :=
  let prefersRevision := policy.propers != .doNotPrefer
  let revision := (o.quality.map (·.revision)).getD .first
  { lead :=
      if prefersRevision then
        (revision.real.val, revision.version.val, if revision.isRepack then 1 else 0)
      else (o.score.val, 0, 0)
    qualityWeight := (o.quality.map (·.quality.weight)).getD 0
    formatScore := if prefersRevision then o.score.val else 0
    completeness := (o.parsed.map (·.content.completeness)).getD 0
    freshness := if o.preferredSize?.isSome then (0, 0) else o.freshness now
    proximity :=
      match o.preferredSize? with
      | some target => -Bucket.proximity (Float.ofInt o.release.size.val) target 0.05
      | none => 0
    deferredRevision :=
      if prefersRevision then (0, 0) else (revision.version.val, revision.real.val)
    preferredTransport := o.isPreferredTransport policy
    swarm := o.swarm
    indexerPriority := -o.release.indexerPriority.val
    flagScore := if policy.preferIndexerFlags then total (o.release.flags.map Flag.score) else 0 }

/-- `gt` when the first offer should be grabbed before the second. -/
def compareRank (policy : Policy) (now : Instant) (a b : Offer) : Ordering :=
  compare (a.rankKey policy now) (b.rankKey policy now)

end Offer

namespace Decision

/-- The first decision does not rank behind the second. -/
def ranksBefore (policy : Policy) (now : Instant) (a b : Decision) : Bool :=
  a.offer.compareRank policy now b.offer != .lt

/-- Decisions of one game, the best first. Of those that tie the earlier stays ahead. -/
def best (policy : Policy) (now : Instant) (ds : List Decision) : List Decision :=
  ds.mergeSort (ranksBefore policy now)

/-- Puts a decision into the group of its game, or into a new one behind all others. -/
def join (d : Decision) :
    List (Option GameId × List Decision) → List (Option GameId × List Decision)
  | [] => [(d.offer.gameId, [d])]
  | (game, group) :: groups =>
    if game == d.offer.gameId then (game, group ++ [d]) :: groups
    else (game, group) :: join d groups

/-- Decisions in groups, one for each game. -/
def byGame (ds : List Decision) : List (Option GameId × List Decision) :=
  ds.foldl (fun groups d => join d groups) []

/-- Approved decisions game by game, each the best first, and then the rejected ones as they
were. -/
def prioritize (policy : Policy) (now : Instant) (ds : List Decision) : List Decision :=
  let (approved, rejected) := ds.partition (·.isApproved)
  (byGame approved).flatMap (fun group => best policy now group.2) ++ rejected

end Decision

end ReleaseSelection
