import ReleaseSelection.Proofs.Rating

/-!
# More of everything is no worse

A release that is higher on every axis is an upgrade wherever a lower one is, and the lower one is
improved on by whatever improves on the higher (`isUpgrade_mono`).
-/

namespace ReleaseSelection

/-- At most as high on every axis. -/
structure Rating.AtMost (a b : Rating) : Prop where
  rank : a.rank ≤ b.rank
  revision : a.revision ≤ b.revision
  score : a.score ≤ b.score

namespace UpgradeRules

variable {rules : UpgradeRules} {p : Profile}

theorem KeepsRevision.mono {held held' offered offered' : Int}
    (h : rules.KeepsRevision held offered) (lower : held' ≤ held) (higher : offered ≤ offered') :
    rules.KeepsRevision held' offered' :=
  h.imp_right fun le => by omega

/-- A candidate that rises past the rank it is compared with changes the way in which it improves,
and needs no more for the new way than it had for the old. -/
theorem Improves.mono_offered {held offered offered' : Rating}
    (h : rules.Improves p held offered) (le : offered.AtMost offered') :
    rules.Improves p held offered' := by
  obtain ⟨rank, revision, score⟩ := le
  cases h with
  | quality less short => exact .quality (by omega) short
  | revision least preferred higher => exact .revision (by omega) preferred (by omega)
  | score least kept gain =>
    refine .score (by omega) (fun same => ?_) (gain.mono (Int.le_refl _) score)
    exact (kept (by omega)).mono (Int.le_refl _) revision
  | ceiling less met kept above gain =>
    have kept := kept.mono (Int.le_refl _) revision
    have gain := gain.mono (Int.le_refl _) score
    rcases Int.lt_or_le offered'.rank held.rank with still | past
    · exact .ceiling still met kept (by omega) gain
    · exact .score past (fun _ => kept) gain

theorem Improves.anti_held {held held' offered : Rating} (h : rules.Improves p held offered)
    (le : held'.AtMost held) (same : held'.rank = held.rank) : rules.Improves p held' offered := by
  obtain ⟨_, revision, score⟩ := le
  cases h with
  | quality less short => exact .quality (by omega) (same ▸ short)
  | revision least preferred higher => exact .revision (by omega) preferred (by omega)
  | score least kept gain =>
    refine .score (by omega) (fun equal => ?_) (gain.mono score (Int.le_refl _))
    exact (kept (by omega)).mono revision (Int.le_refl _)
  | ceiling less met kept above gain =>
    exact .ceiling (by omega) (same ▸ met) (kept.mono revision (Int.le_refl _)) above
      (gain.mono score (Int.le_refl _))

end UpgradeRules

/-- Both sides have a score, and one is at most as high as the other on every axis. A missing
version stands with the empty one. -/
structure Profile.AtMost (p : Profile) (lower higher : Standing) : Prop where
  rank : p.rank lower.quality.quality ≤ p.rank higher.quality.quality
  revision : (compare lower.quality.revision higher.quality.revision).isLE
  score : ∃ lowerScore higherScore, p.scoreOf lower.formats = .ok lowerScore ∧
    p.scoreOf higher.formats = .ok higherScore ∧ lowerScore.val ≤ higherScore.val
  version : (compare (lower.version.getD .zero) (higher.version.getD .zero)).isLE

theorem Profile.AtMost.ratings {p : Profile} {lower higher : Standing}
    (h : p.AtMost lower higher) :
    ∃ lowerScore higherScore, p.scoreOf lower.formats = .ok lowerScore ∧
      p.scoreOf higher.formats = .ok higherScore ∧
      (p.rating lower.quality lowerScore).AtMost (p.rating higher.quality higherScore) := by
  obtain ⟨lowerScore, higherScore, hl, hh, le⟩ := h.score
  refine ⟨lowerScore, higherScore, hl, hh, h.rank, ?_, le⟩
  have revision := h.revision
  rwa [Revision.compare_eq, Int.isLE_compare] at revision

theorem Profile.AtMost.ordinalOf_le {p : Profile} {lower higher : Standing}
    (h : p.AtMost lower higher) :
    GameVersion.ordinalOf lower.version ≤ GameVersion.ordinalOf higher.version := by
  have version := h.version
  rwa [GameVersion.compare_eq, Int.isLE_compare] at version

/-- What improves on a release improves on a lower one of its rank, and with a release each higher
one improves. The rank held must stay: below the quality cutoff no score is a reason to go down in
rank. -/
theorem UpgradeRules.isUpgrade_mono (rules : UpgradeRules) (p : Profile)
    {lower higher : Standing} (le : p.AtMost lower higher) :
    (∀ held, rules.isUpgrade p held lower = .ok true → rules.isUpgrade p held higher = .ok true) ∧
      (p.rank lower.quality.quality = p.rank higher.quality.quality →
        ∀ offered, rules.isUpgrade p higher offered = .ok true →
          rules.isUpgrade p lower offered = .ok true) := by
  obtain ⟨lowerScore, higherScore, hl, hh, ratings⟩ := le.ratings
  have newer := le.ordinalOf_le
  constructor
  · intro held h
    obtain ⟨unlocked, heldScore, offeredScore, hs, os, upgrade⟩ := isUpgrade_eq_ok_true_iff.mp h
    cases hl.symm.trans os
    refine isUpgrade_eq_ok_true_iff.mpr ⟨unlocked, heldScore, higherScore, hs, hh, ?_⟩
    exact upgrade.imp (·.mono_offered ratings) (by omega)
  · intro same offered h
    obtain ⟨unlocked, heldScore, offeredScore, hs, os, upgrade⟩ := isUpgrade_eq_ok_true_iff.mp h
    cases hh.symm.trans hs
    refine isUpgrade_eq_ok_true_iff.mpr ⟨unlocked, lowerScore, offeredScore, hl, os, ?_⟩
    exact upgrade.imp (·.anti_held ratings same) (by omega)

theorem isUpgrade_mono_bonus :
    Profile.small.AtMost (.unversioned .retail 1 []) (.unversioned .retail 1 [.bonus]) ∧
      (Policy.default.upgradeRules.isUpgrade .small (.unversioned .scene 1 [])
          (.unversioned .retail 1 []) = .ok true ∧
        Policy.default.upgradeRules.isUpgrade .small (.unversioned .scene 1 [])
          (.unversioned .retail 1 [.bonus]) = .ok true) ∧
      Policy.default.upgradeRules.isUpgrade .small (.unversioned .retail 1 [.bonus])
          (.unversioned .retail 2 []) = .ok true ∧
        Policy.default.upgradeRules.isUpgrade .small (.unversioned .retail 1 [])
          (.unversioned .retail 2 []) = .ok true := by
  have le : Profile.small.AtMost (.unversioned .retail 1 []) (.unversioned .retail 1 [.bonus]) :=
    ⟨by decide, rfl, ⟨0, 20, rfl, rfl, by decide⟩, rfl⟩
  have mono := Policy.default.upgradeRules.isUpgrade_mono .small le
  exact ⟨le, ⟨rfl, mono.1 _ rfl⟩, rfl, mono.2 rfl _ rfl⟩

end ReleaseSelection
