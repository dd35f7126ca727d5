import ReleaseSelection.Proofs.Criteria
import ReleaseSelection.Proofs.Placement

/-!
# Revisions in rankings and upgrades

An upgrade to another revision goes by its version first and by its reals behind, a ranking by the
reals first. So where two releases differ in their revision alone, the one that improves on the
other ranks before it unless it has fewer reals, and then it ranks behind
(`Offer.compareRank_of_isUpgrade`).
-/

namespace ReleaseSelection

variable {policy : Policy} {now : Instant} {p : Profile} {o : Offer} {r s : Revision}
  {held next : Standing}

/-! ## Upgrades -/

theorem Revision.ordinal_lt_iff :
    r.ordinal < s.ordinal ↔
      r.version.val < s.version.val ∨
        r.version.val = s.version.val ∧ r.real.val < s.real.val := by
  have := r.real.lo_le
  have := r.real.lt_base
  have := s.real.lo_le
  have := s.real.lt_base
  unfold Revision.ordinal Count.base at *
  omega

/-- Where all but the revision is the same, nothing but a higher revision is an upgrade. -/
theorem UpgradeRules.revision_of_isUpgrade {rules : UpgradeRules}
    (upgrade : rules.isUpgrade p held next = .ok true)
    (quality : held.quality.quality = next.quality.quality) (formats : held.formats = next.formats)
    (version : held.version = next.version) :
    rules.propers = .preferAndUpgrade ∧
      held.quality.revision.ordinal < next.quality.revision.ordinal := by
  obtain ⟨_, heldScore, nextScore, hs, ns, gained⟩ := isUpgrade_eq_ok_true_iff.mp upgrade
  rw [formats] at hs
  cases hs.symm.trans ns
  have rank : p.rank held.quality.quality = p.rank next.quality.quality := congrArg _ quality
  rcases gained with improves | newer
  · cases improves with
    | quality higher short => exact absurd rank (Int.ne_of_lt higher)
    | revision least preferred higher => exact ⟨preferred, higher⟩
    | score least kept gain => exact absurd gain.higher (Int.lt_irrefl _)
    | ceiling lower met kept above gain => exact absurd rank.symm (Int.ne_of_lt lower)
  · rw [version] at newer
    exact absurd newer (Int.lt_irrefl _)

/-! ## Rankings -/

theorem RankKey.compare_lead (k : RankKey) (a b : Int × Int × Int) :
    compare { k with lead := a } { k with lead := b } =
      (compare a.1 b.1).then ((compare a.2.1 b.2.1).then (compare a.2.2 b.2.2)) := by
  have none : firstDifference [] = .eq := rfl
  rw [RankKey.compare_eq]
  simp only [List.cons_append, List.nil_append, firstDifference_cons, none, Std.compare_self,
    Ordering.then_eq]

namespace Offer

/-- The same release, found to be of this revision. -/
def inRevision (o : Offer) (revision : Revision) : Offer :=
  { o with parsed := o.parsed.map fun title =>
      { title with quality := { title.quality with revision := revision } } }

/-- Where revisions are ranked, another revision changes the lead of a key and nothing else. -/
theorem rankKey_inRevision (ranked : policy.propers ≠ .doNotPrefer) {title : ParsedTitle}
    (parsed : o.parsed = some title) (r : Revision) :
    (o.inRevision r).rankKey policy now =
      { o.rankKey policy now with
        lead := (r.real.val, r.version.val, if r.isRepack then 1 else 0) } := by
  have ranked : (policy.propers != .doNotPrefer) = true := bne_iff_ne.mpr ranked
  simp only [rankKey, inRevision, quality, ranked, parsed, Option.map_some, Option.getD_some,
    if_true]
  rfl

theorem compareRank_inRevision (ranked : policy.propers ≠ .doNotPrefer) {title : ParsedTitle}
    (parsed : o.parsed = some title) (r s : Revision) :
    (o.inRevision s).compareRank policy now (o.inRevision r) =
      (compare s.real.val r.real.val).then
        ((compare s.version.val r.version.val).then (compare s.isRepack r.isRepack)) := by
  unfold compareRank
  rw [rankKey_inRevision ranked parsed, rankKey_inRevision ranked parsed, RankKey.compare_lead,
    compare_toInt]

/-- A higher revision leads unless it has fewer reals. -/
theorem compareRank_of_ordinal_lt (ranked : policy.propers ≠ .doNotPrefer) {title : ParsedTitle}
    (parsed : o.parsed = some title) (higher : r.ordinal < s.ordinal) :
    (o.inRevision s).compareRank policy now (o.inRevision r) =
      if r.real.val ≤ s.real.val then .gt else .lt := by
  rw [compareRank_inRevision ranked parsed]
  have higher := Revision.ordinal_lt_iff.mp higher
  by_cases most : r.real.val ≤ s.real.val
  · rw [if_pos most]
    rcases Int.lt_or_eq_of_le most with more | same
    · rw [Int.compare_eq_gt.mpr more]
      rfl
    · have version : r.version.val < s.version.val := by omega
      rw [Int.compare_eq_eq.mpr same.symm, Int.compare_eq_gt.mpr version]
      rfl
  · have fewer := Int.not_le.mp most
    rw [if_neg most, Int.compare_eq_lt.mpr fewer]
    rfl

theorem standing?_inRevision (understood : (o.inRevision r).standing? = some held) :
    ∃ title, o.parsed = some title ∧
      held = ⟨⟨title.quality.quality, r⟩, o.formats, title.version⟩ := by
  obtain ⟨_, revised, rfl⟩ := Option.map_eq_some_iff.mp understood
  obtain ⟨title, parsed, rfl⟩ := Option.map_eq_some_iff.mp revised
  exact ⟨title, parsed, rfl⟩

end Offer

theorem Decision.compareRank_ne_lt {ds : List Decision} {d e : Decision}
    (before : [d, e].Sublist (prioritize policy now ds)) (leads : d.isApproved)
    (follows : e.isApproved) (game : d.offer.gameId = e.offer.gameId) :
    d.offer.compareRank policy now e.offer ≠ .lt := by
  have approved : [d, e].filter (·.isApproved) = [d, e] := by simp [leads, follows]
  have pair := before.filter (·.isApproved)
  rw [approved] at pair
  have best := (prioritized_prioritize policy now ds).bestFirst.sublist pair
  simp only [List.pairwise_cons, List.mem_singleton, forall_eq] at best
  exact best.1 game

/-- **Of two releases that differ in their revision alone, the upgrade ranks before the other unless
it has fewer reals.** So a release that a ranking puts first of the two is improved on by the other
only at the price of reals. -/
theorem Offer.compareRank_of_isUpgrade (policy : Policy) (now : Instant) (p : Profile) (o : Offer)
    (first : (o.inRevision r).standing? = some held)
    (second : (o.inRevision s).standing? = some next)
    (upgrade : policy.upgradeRules.isUpgrade p held next = .ok true) :
    (o.inRevision s).compareRank policy now (o.inRevision r) =
        (if r.real.val ≤ s.real.val then .gt else .lt) ∧
      ∀ (ds : List Decision) (d e : Decision), [d, e].Sublist (Decision.prioritize policy now ds) →
        d.isApproved → e.isApproved → d.offer = o.inRevision r → e.offer = o.inRevision s →
          s.real.val < r.real.val := by
  obtain ⟨title, parsed, rfl⟩ := standing?_inRevision first
  obtain ⟨_, again, rfl⟩ := standing?_inRevision second
  cases parsed.symm.trans again
  obtain ⟨preferred, higher⟩ := UpgradeRules.revision_of_isUpgrade upgrade rfl rfl rfl
  have ranked : policy.propers ≠ .doNotPrefer := by
    intro ignored
    cases preferred.symm.trans ignored
  have order : (o.inRevision s).compareRank policy now (o.inRevision r) =
      if r.real.val ≤ s.real.val then .gt else .lt :=
    compareRank_of_ordinal_lt ranked parsed higher
  refine ⟨order, ?_⟩
  intro ds d e before leads follows own other
  have behind := Decision.compareRank_ne_lt before leads follows (by rw [own, other]; rfl)
  rw [own, other] at behind
  by_cases most : r.real.val ≤ s.real.val
  · rw [if_pos most, compareRank] at order
    exact absurd (Std.OrientedCmp.lt_of_gt order) behind
  · exact Int.not_le.mp most

/-- A second version without reals improves on a first with one and ranks behind it. -/
theorem Offer.compareRank_of_isUpgrade_real :
    ∃ held next,
      ((Game.small.offered (.unversioned .retail 1 [])).inRevision ⟨1, 1, false⟩).standing? =
        some held ∧
      ((Game.small.offered (.unversioned .retail 1 [])).inRevision ⟨2, 0, false⟩).standing? =
        some next ∧
      Policy.default.upgradeRules.isUpgrade .small held next = .ok true ∧
      ((Game.small.offered (.unversioned .retail 1 [])).inRevision ⟨2, 0, false⟩).compareRank
        .default ⟨0, 0⟩
        ((Game.small.offered (.unversioned .retail 1 [])).inRevision ⟨1, 1, false⟩) = .lt := by
  have order := (compareRank_of_isUpgrade .default ⟨0, 0⟩ .small
    (Game.small.offered (.unversioned .retail 1 [])) (r := ⟨1, 1, false⟩) (s := ⟨2, 0, false⟩)
    rfl rfl rfl).1
  exact ⟨_, _, rfl, rfl, rfl, order⟩

/-- An upgrade that is no better for the ranking. -/
theorem Offer.upgrade_ranks_behind :
    ¬ ∀ (policy : Policy) (now : Instant) (p : Profile) (o : Offer) (game : Game)
        (r s : Revision) (held next : Standing),
      policy.propers = .preferAndUpgrade → p.upgradeAllowed → o.game = some game →
      o.version = none → (o.inRevision r).standing? = some held →
      (o.inRevision s).standing? = some next →
      policy.upgradeRules.isUpgrade p held next = .ok true →
        (o.inRevision s).compareRank policy now (o.inRevision r) = .gt := by
  intro agree
  have order := agree .default ⟨0, 0⟩ .small (Game.small.offered (.unversioned .retail 1 []))
    .small ⟨1, 1, false⟩ ⟨2, 0, false⟩ _ _ rfl rfl rfl rfl rfl rfl rfl
  cases order

end ReleaseSelection
