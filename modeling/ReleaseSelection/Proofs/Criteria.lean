import ReleaseSelection.Proofs.Admission
import ReleaseSelection.Ranking

/-!
# Criteria

A ranking looks at one thing after another and stops at the first in which two offers differ. What
the policy or the profile leaves out is not looked at, and score and revision change places with
what the policy prefers. `Game.criteria` says so as a list, without a word on keys. Offers for the
game compare as that list does (`Offer.compareRank_eq_inTurn`), so no part of a key counts where it
should not.
-/

namespace ReleaseSelection

/-! ## Criteria -/

/-- The first result that is not a tie. -/
def firstDifference (results : List Ordering) : Ordering :=
  (results.find? (· != .eq)).getD .eq

theorem firstDifference_cons (result : Ordering) (results : List Ordering) :
    firstDifference (result :: results) = result.then (firstDifference results) := by
  cases result <;> rfl

theorem firstDifference_append (before after : List Ordering) :
    firstDifference (before ++ after) =
      (firstDifference before).then (firstDifference after) := by
  induction before with
  | nil => rfl
  | cons result before ih =>
    rw [List.cons_append, firstDifference_cons, firstDifference_cons, ih, Ordering.then_assoc]

/-- How two offers compare in one thing; `gt` where the first is better. -/
abbrev Criterion := Offer → Offer → Ordering

namespace Criterion

def more (measure : Offer → Int) : Criterion := fun l r => compare (measure l) (measure r)

def less (measure : Offer → Int) : Criterion := fun l r => compare (measure r) (measure l)

/-- To have a property is better than not to have it. -/
def has (property : Offer → Bool) : Criterion := fun l r => compare (property l) (property r)

/-- The first of the criteria in which two offers differ. -/
def inTurn (criteria : List Criterion) : Criterion := fun l r =>
  firstDifference (criteria.map (· l r))

theorem inTurn_append (before after : List Criterion) (l r : Offer) :
    inTurn (before ++ after) l r = (inTurn before l r).then (inTurn after l r) := by
  unfold inTurn
  rw [List.map_append, firstDifference_append]

end Criterion

namespace Offer

/-- A release that was not understood counts as a first revision. -/
def revision (o : Offer) : Revision := (o.parsed.map (·.quality.revision)).getD .first

def weight (o : Offer) : Int := (o.parsed.map (·.quality.quality.weight)).getD 0

def completeness (o : Offer) : Int := (o.parsed.map (·.content.completeness)).getD 0

def ageBucket (now : Instant) (o : Offer) : Int :=
  Bucket.similarity (Float.ofInt (o.release.ageMinutes now)) 0.1

def sizeStep (o : Offer) : Int := o.release.size.val / (200 * 1048576)

def distanceBucket (target : Float) (o : Offer) : Int :=
  Bucket.proximity (Float.ofInt o.release.size.val) target 0.05

def transport? (o : Offer) : Option Transport :=
  Transport.ofProtocol? o.release.protocol

/-- Seeders or peers; what is no torrent has none. -/
def swarmSize (count : Release → Option Count) (o : Offer) : Int :=
  if o.release.protocol = .torrent then
    Bucket.similarity (Float.ofInt (((count o.release).map (·.val)).getD 0)) 0.1
  else 0

def flagScore (o : Offer) : Int := total (o.release.flags.map Flag.score)

end Offer

/-- The size in bytes that the profile wishes for a game of this runtime, if it is positive. -/
def Game.wantedSize? (game : Game) : Option Float :=
  (game.profile.preferredSize.map (· * Float.ofInt game.runtime.val * 1048576)).filter (0 < ·)

namespace Policy

open Criterion

def ranksRevisions (policy : Policy) : Bool := policy.propers != .doNotPrefer

/-- Revisions lead where they are preferred, and the score where they are not. -/
def leading (policy : Policy) : List Criterion :=
  if policy.ranksRevisions then
    [more (·.revision.real.val), more (·.revision.version.val), has (·.revision.isRepack)]
  else [more (·.score.val)]

def scoreBehind (policy : Policy) : List Criterion :=
  if policy.ranksRevisions then [more (·.score.val)] else []

def revisionBehind (policy : Policy) : List Criterion :=
  if policy.ranksRevisions then []
  else [more (·.revision.version.val), more (·.revision.real.val)]

def flagsLast (policy : Policy) : List Criterion :=
  if policy.preferIndexerFlags then [more (·.flagScore)] else []

end Policy

namespace Game

open Criterion

/-- The younger and then the larger, or the nearest to the size that is wanted. -/
def bySize (game : Game) (now : Instant) : List Criterion :=
  match game.wantedSize? with
  | none => [less (·.ageBucket now), more (·.sizeStep)]
  | some target => [less (·.distanceBucket target)]

/-- How well a release can be had: over which protocol, from how many, and through whom. -/
def bySupply (game : Game) (policy : Policy) : List Criterion :=
  [has (·.transport? == some (policy.delayProfileFor game.tags).preferred),
    more (·.swarmSize (·.seeders)), more (·.swarmSize (·.peers)),
    less (·.release.indexerPriority.val)]

/-- What ranks two offers for a game, the weightiest first. -/
def criteria (game : Game) (policy : Policy) (now : Instant) : List Criterion :=
  policy.leading ++ [more (·.weight)] ++ policy.scoreBehind ++ [more (·.completeness)] ++
    game.bySize now ++ policy.revisionBehind ++ game.bySupply policy ++ policy.flagsLast

end Game

/-! ## Keys -/

theorem compare_neg (m n : Int) : compare (-m) (-n) = compare n m := by
  cases order : compare n m with
  | lt =>
    have := Int.compare_eq_lt.mp order
    exact Int.compare_eq_lt.mpr (by omega)
  | eq =>
    have := Int.compare_eq_eq.mp order
    exact Int.compare_eq_eq.mpr (by omega)
  | gt =>
    have := Int.compare_eq_gt.mp order
    exact Int.compare_eq_gt.mpr (by omega)

theorem compare_toInt (p q : Bool) :
    compare (if p then 1 else 0 : Int) (if q then 1 else 0) = compare p q := by
  cases p <;> cases q <;> rfl

/-- Lists of one length compare by the first place in which they differ. -/
theorem compare_eq_firstDifference {ms ns : List Int} (length : ms.length = ns.length) :
    compare ms ns = firstDifference (List.zipWith compare ms ns) := by
  induction ms generalizing ns with
  | nil =>
    cases ns with
    | nil => rfl
    | cons n ns => cases length
  | cons m ms ih =>
    cases ns with
    | nil => cases length
    | cons n ns =>
      have rest := ih (Nat.succ.inj length)
      have both : compare (m :: ms) (n :: ns) = (compare m n).then (compare ms ns) :=
        List.compareLex_cons_cons
      rw [both, rest, List.zipWith_cons_cons, firstDifference_cons]

theorem RankKey.compare_eq (a b : RankKey) :
    compare a b = firstDifference
      ([compare a.lead.1 b.lead.1, compare a.lead.2.1 b.lead.2.1,
          compare a.lead.2.2 b.lead.2.2] ++
        [compare a.qualityWeight b.qualityWeight] ++ [compare a.formatScore b.formatScore] ++
        [compare a.completeness b.completeness] ++
        [compare a.freshness.1 b.freshness.1, compare a.freshness.2 b.freshness.2,
          compare a.proximity b.proximity] ++
        [compare a.deferredRevision.1 b.deferredRevision.1,
          compare a.deferredRevision.2 b.deferredRevision.2] ++
        [compare a.preferredTransport b.preferredTransport, compare a.swarm.1 b.swarm.1,
          compare a.swarm.2 b.swarm.2, compare a.indexerPriority b.indexerPriority] ++
        [compare a.flagScore b.flagScore]) := by
  have parts : compare a b = firstDifference (List.zipWith compare a.parts b.parts) :=
    compare_eq_firstDifference rfl
  rw [parts]
  simp only [RankKey.parts, List.zipWith_cons_cons, List.zipWith_nil_right, compare_toInt,
    List.cons_append, List.nil_append]

namespace Offer

open Criterion

variable {policy : Policy} {now : Instant} {game : Game} {l r : Offer}

theorem preferredSize?_eq {o : Offer} (matched : o.game = some game) :
    o.preferredSize? = game.wantedSize? := by
  simp only [preferredSize?, Game.wantedSize?, matched, Option.bind_eq_bind, Option.bind_some]
  cases game.profile.preferredSize with
  | none => rfl
  | some perMinute =>
    simp only [Option.bind_some, Option.map_some, Option.filter_some, decide_eq_true_eq]

theorem revision_eq (o : Offer) : (o.quality.map (·.revision)).getD .first = o.revision := by
  unfold quality revision
  rw [Option.map_map]
  rfl

/-! Each stretch of a key compares as the criteria in its place. What is left out of the criteria is
zero in every key, and so it ties. -/

theorem inTurn_leading (policy : Policy) (now : Instant) (l r : Offer) :
    inTurn policy.leading l r = firstDifference
      [compare (l.rankKey policy now).lead.1 (r.rankKey policy now).lead.1,
        compare (l.rankKey policy now).lead.2.1 (r.rankKey policy now).lead.2.1,
        compare (l.rankKey policy now).lead.2.2 (r.rankKey policy now).lead.2.2] := by
  unfold inTurn Policy.leading Policy.ranksRevisions
  by_cases preferred : policy.propers != .doNotPrefer
  · simp only [rankKey, preferred, if_true, revision_eq, List.map, more, has, compare_toInt]
  · simp only [rankKey, preferred, if_false, Bool.false_eq_true, List.map, more,
      firstDifference_cons, Std.compare_self, Ordering.eq_then]

theorem inTurn_scoreBehind (policy : Policy) (now : Instant) (l r : Offer) :
    inTurn policy.scoreBehind l r = firstDifference
      [compare (l.rankKey policy now).formatScore (r.rankKey policy now).formatScore] := by
  unfold inTurn Policy.scoreBehind Policy.ranksRevisions
  by_cases preferred : policy.propers != .doNotPrefer
  · simp only [rankKey, preferred, if_true, List.map, more]
  · simp only [rankKey, preferred, if_false, Bool.false_eq_true, List.map, firstDifference_cons,
      Std.compare_self, Ordering.eq_then]

theorem inTurn_revisionBehind (policy : Policy) (now : Instant) (l r : Offer) :
    inTurn policy.revisionBehind l r = firstDifference
      [compare (l.rankKey policy now).deferredRevision.1 (r.rankKey policy now).deferredRevision.1,
        compare (l.rankKey policy now).deferredRevision.2
          (r.rankKey policy now).deferredRevision.2] := by
  unfold inTurn Policy.revisionBehind Policy.ranksRevisions
  by_cases preferred : policy.propers != .doNotPrefer
  · simp only [rankKey, preferred, if_true, List.map, firstDifference_cons, Std.compare_self,
      Ordering.eq_then]
  · simp only [rankKey, preferred, if_false, Bool.false_eq_true, revision_eq, List.map, more]

theorem inTurn_flagsLast (policy : Policy) (now : Instant) (l r : Offer) :
    inTurn policy.flagsLast l r = firstDifference
      [compare (l.rankKey policy now).flagScore (r.rankKey policy now).flagScore] := by
  unfold inTurn Policy.flagsLast
  by_cases preferred : policy.preferIndexerFlags
  · simp only [rankKey, preferred, if_true, List.map, more, flagScore]
  · simp only [rankKey, preferred, if_false, Bool.false_eq_true, List.map, firstDifference_cons,
      Std.compare_self, Ordering.eq_then]

theorem inTurn_bySize (policy : Policy) (now : Instant) (hl : l.game = some game)
    (hr : r.game = some game) :
    inTurn (game.bySize now) l r = firstDifference
      [compare (l.rankKey policy now).freshness.1 (r.rankKey policy now).freshness.1,
        compare (l.rankKey policy now).freshness.2 (r.rankKey policy now).freshness.2,
        compare (l.rankKey policy now).proximity (r.rankKey policy now).proximity] := by
  unfold inTurn Game.bySize
  simp only [rankKey, preferredSize?_eq hl, preferredSize?_eq hr]
  cases game.wantedSize? with
  | none =>
    simp only [Option.isSome_none, Bool.false_eq_true, if_false, freshness, compare_neg,
      List.map, less, more, ageBucket, sizeStep, firstDifference_cons, Std.compare_self,
      Ordering.eq_then]
    rfl
  | some target =>
    simp only [Option.isSome_some, if_true, compare_neg, List.map, less, distanceBucket,
      firstDifference_cons, Std.compare_self, Ordering.eq_then]

theorem swarm_eq (o : Offer) :
    o.swarm = (o.swarmSize (·.seeders), o.swarmSize (·.peers)) := by
  unfold swarm swarmSize
  by_cases torrent : o.release.protocol = .torrent
  · simp only [torrent, beq_self_eq_true, if_true]
    rfl
  · simp only [torrent, beq_iff_eq, if_false]

theorem isPreferredTransport_eq {o : Offer} (policy : Policy) (matched : o.game = some game) :
    o.isPreferredTransport policy =
      (o.transport? == some (policy.delayProfileFor game.tags).preferred) := by
  unfold isPreferredTransport
  rw [matched]
  rfl

theorem inTurn_bySupply (policy : Policy) (now : Instant) (hl : l.game = some game)
    (hr : r.game = some game) :
    inTurn (game.bySupply policy) l r = firstDifference
      [compare (l.rankKey policy now).preferredTransport (r.rankKey policy now).preferredTransport,
        compare (l.rankKey policy now).swarm.1 (r.rankKey policy now).swarm.1,
        compare (l.rankKey policy now).swarm.2 (r.rankKey policy now).swarm.2,
        compare (l.rankKey policy now).indexerPriority (r.rankKey policy now).indexerPriority] := by
  unfold inTurn Game.bySupply
  simp only [rankKey, isPreferredTransport_eq policy hl, isPreferredTransport_eq policy hr,
    swarm_eq, compare_neg, List.map, has, more, less]

theorem inTurn_weight (policy : Policy) (now : Instant) (l r : Offer) :
    inTurn [more (·.weight)] l r = firstDifference
      [compare (l.rankKey policy now).qualityWeight (r.rankKey policy now).qualityWeight] := by
  have measured (o : Offer) : (o.rankKey policy now).qualityWeight = o.weight := by
    simp only [rankKey, quality, weight, Option.map_map]
    rfl
  simp only [inTurn, measured, List.map, more]

/-- **Offers for one game compare by the first criterion in which they differ**, and tie where they
differ in none. -/
theorem compareRank_eq_inTurn (policy : Policy) (now : Instant) (hl : l.game = some game)
    (hr : r.game = some game) :
    l.compareRank policy now r = inTurn (game.criteria policy now) l r := by
  unfold compareRank Game.criteria
  rw [RankKey.compare_eq]
  simp only [inTurn_append, firstDifference_append]
  rw [inTurn_leading policy now, inTurn_weight policy now, inTurn_scoreBehind policy now,
    inTurn_bySize policy now hl hr, inTurn_revisionBehind policy now,
    inTurn_bySupply policy now hl hr, inTurn_flagsLast policy now]
  rfl

/-- Where revisions are not preferred the score leads, and scene is ahead of retail. -/
theorem compareRank_eq_inTurn_bonus :
    (Game.small.offered (.unversioned .scene 1 [.bonus])).game = some .small ∧
      (Game.small.offered (.unversioned .retail 2 [])).game = some .small ∧
      (Game.small.offered (.unversioned .scene 1 [.bonus])).compareRank
        { Policy.default with propers := .doNotPrefer } ⟨0, 0⟩
        (Game.small.offered (.unversioned .retail 2 [])) = .gt := by
  have matched (s : Standing) : (Game.small.offered s).game = some .small := rfl
  refine ⟨matched _, matched _, ?_⟩
  rw [compareRank_eq_inTurn _ _ (matched _) (matched _)]
  rfl

end Offer

end ReleaseSelection
