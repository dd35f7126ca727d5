import ReleaseSelection.Proofs.Rating

/-!
# Settings

The rules of a comparison are two settings, one for revisions and one for the ceiling of scores.
An upgrade where revisions are kept but not upgraded is one where they are upgraded and one where
they are ignored, and conversely (`isUpgrade_doNotUpgrade`). The two readings of the ceiling differ
only on a score that equals the cutoff score, where `climbAtCeiling` lets more pass
(`ceilings_agree_off_cutoff`).
-/

namespace ReleaseSelection

namespace UpgradeRules

variable {rules other : UpgradeRules} {p : Profile}

/-! ## More lenient rules -/

theorem Gains.of_room {held offered : Int} (h : rules.Gains p held offered)
    (room : ¬ other.ReachesCeiling p held) : other.Gains p held offered :=
  ⟨room, h.higher, h.enough⟩

/-- What improves under some rules improves under all that are as lenient: they upgrade revisions if
those do, take a revision for kept if those do, and leave room below the ceiling if those do. -/
theorem Improves.of_lenient {held offered : Rating} (h : rules.Improves p held offered)
    (upgraded : rules.propers = .preferAndUpgrade → other.propers = .preferAndUpgrade)
    (keeps : rules.KeepsRevision held.revision offered.revision →
      other.KeepsRevision held.revision offered.revision)
    (room : ¬ rules.ReachesCeiling p held.score → ¬ other.ReachesCeiling p held.score) :
    other.Improves p held offered := by
  cases h with
  | quality rank short => exact .quality rank short
  | revision rank preferred higher => exact .revision rank (upgraded preferred) higher
  | score rank kept gain =>
    exact .score rank (fun same => keeps (kept same)) (gain.of_room (room gain.room))
  | ceiling rank met kept above gain =>
    exact .ceiling rank met (keeps kept) above (gain.of_room (room gain.room))

theorem isUpgrade_of_improves {held offered : Standing}
    (upgrade : rules.isUpgrade p held offered = .ok true)
    (lenient : ∀ a b : Rating, rules.Improves p a b → other.Improves p a b) :
    other.isUpgrade p held offered = .ok true := by
  obtain ⟨unlocked, heldScore, offeredScore, hs, os, gain⟩ := isUpgrade_eq_ok_true_iff.mp upgrade
  exact isUpgrade_eq_ok_true_iff.mpr
    ⟨unlocked, heldScore, offeredScore, hs, os, gain.imp_left (lenient _ _)⟩

/-! ## Revisions -/

/-- Unless revisions are ignored, a lower one improves only by a higher rank. -/
theorem Improves.revision_le {held offered : Rating} (h : rules.Improves p held offered)
    (heeded : rules.propers ≠ .doNotPrefer) (rank : offered.rank ≤ held.rank) :
    held.revision ≤ offered.revision := by
  cases h with
  | quality less => omega
  | revision _ _ higher => exact Int.le_of_lt higher
  | score le kept =>
    have same := Int.le_antisymm le rank
    exact (kept same).resolve_left heeded
  | ceiling _ _ kept => exact kept.resolve_left heeded

/-- What improves while revisions are ignored improves by more than a revision, and what improves
while they are upgraded loses none. -/
theorem improves_doNotUpgrade_iff (ceiling : Ceiling) (held offered : Rating) :
    Improves ⟨.doNotUpgrade, ceiling⟩ p held offered ↔
      Improves ⟨.preferAndUpgrade, ceiling⟩ p held offered ∧
        Improves ⟨.doNotPrefer, ceiling⟩ p held offered := by
  constructor
  · intro h
    constructor
    · exact h.of_lenient nofun (fun kept => .inr (kept.resolve_left nofun)) id
    · exact h.of_lenient nofun (fun _ => .inl rfl) id
  · rintro ⟨upgraded, ignored⟩
    have kept (rank : offered.rank ≤ held.rank) :
        KeepsRevision ⟨.doNotUpgrade, ceiling⟩ held.revision offered.revision :=
      .inr (upgraded.revision_le nofun rank)
    cases ignored with
    | quality rank short => exact .quality rank short
    | revision _ preferred => cases preferred
    | score rank _ gain =>
      exact .score rank (fun same => kept (Int.le_of_eq same.symm)) (gain.of_room gain.room)
    | ceiling rank met _ above gain =>
      exact .ceiling rank met (kept (Int.le_of_lt rank)) above (gain.of_room gain.room)

/-- A locked profile refuses, and an unlocked one answers by comparison and by version. -/
theorem isUpgrade_of_scores {held offered : Standing} {heldScore offeredScore : Score}
    (hs : p.scoreOf held.formats = .ok heldScore)
    (os : p.scoreOf offered.formats = .ok offeredScore) :
    rules.isUpgrade p held offered = .ok (p.upgradeAllowed &&
      (withVersion held.version offered.version
        (rules.compareRated p held.quality offered.quality heldScore offeredScore)).isUpgrade) := by
  by_cases unlocked : p.upgradeAllowed
  · rw [isUpgrade, evaluate_of_scores unlocked hs os, unlocked, Bool.true_and]
    rfl
  · have locked : p.upgradeAllowed = false := Bool.eq_false_iff.mpr unlocked
    rw [isUpgrade, evaluate, if_neg unlocked, locked]
    rfl

/-- **Keeping revisions without upgrading them is upgrading and ignoring them at once.** -/
theorem isUpgrade_doNotUpgrade (ceiling : Ceiling) (p : Profile) {held offered : Standing}
    (heldScored : ∃ score, p.scoreOf held.formats = .ok score)
    (offeredScored : ∃ score, p.scoreOf offered.formats = .ok score) :
    ∃ upgraded ignored,
      isUpgrade ⟨.preferAndUpgrade, ceiling⟩ p held offered = .ok upgraded ∧
      isUpgrade ⟨.doNotPrefer, ceiling⟩ p held offered = .ok ignored ∧
      isUpgrade ⟨.doNotUpgrade, ceiling⟩ p held offered = .ok (upgraded && ignored) := by
  obtain ⟨heldScore, hs⟩ := heldScored
  obtain ⟨offeredScore, os⟩ := offeredScored
  refine ⟨_, _, isUpgrade_of_scores hs os, isUpgrade_of_scores hs os, ?_⟩
  rw [isUpgrade_of_scores hs os, Except.ok.injEq, Bool.eq_iff_iff]
  simp only [Bool.and_eq_true, isUpgrade_withVersion_iff, isUpgrade_compareRated_iff,
    improves_doNotUpgrade_iff]
  rw [and_or_right, and_and_left]

/-- A second revision alone is an upgrade only where revisions are upgraded. -/
theorem isUpgrade_doNotUpgrade_revision :
    (∃ score, Profile.small.scoreOf (Standing.unversioned .retail 1 []).formats = .ok score) ∧
    (∃ score, Profile.small.scoreOf (Standing.unversioned .retail 2 []).formats = .ok score) ∧
    ∃ upgraded ignored,
      isUpgrade ⟨.preferAndUpgrade, .metAtCeiling⟩ .small (.unversioned .retail 1 [])
        (.unversioned .retail 2 []) = .ok upgraded ∧
      isUpgrade ⟨.doNotPrefer, .metAtCeiling⟩ .small (.unversioned .retail 1 [])
        (.unversioned .retail 2 []) = .ok ignored ∧
      isUpgrade ⟨.doNotUpgrade, .metAtCeiling⟩ .small (.unversioned .retail 1 [])
        (.unversioned .retail 2 []) = .ok (upgraded && ignored) :=
  ⟨⟨0, rfl⟩, ⟨0, rfl⟩, isUpgrade_doNotUpgrade .metAtCeiling .small ⟨0, rfl⟩ ⟨0, rfl⟩⟩

/-! ## Ceilings -/

/-- Rules that treat revisions alike, and the ceiling at the score held. -/
structure AgreeAt (rules other : UpgradeRules) (p : Profile) (held : Standing) : Prop where
  propers : rules.propers = other.propers
  ceiling : ∀ score, p.scoreOf held.formats = .ok score →
    rules.formatCutoffMet p score = other.formatCutoffMet p score

namespace AgreeAt

variable {held : Standing}

/-- A comparison asks for the ceiling only at the score held. -/
theorem compareRated_eq (h : rules.AgreeAt other p held) {heldScore : Score}
    (hs : p.scoreOf held.formats = .ok heldScore) (offered : QualityModel)
    (offeredScore : Score) :
    rules.compareRated p held.quality offered heldScore offeredScore =
      other.compareRated p held.quality offered heldScore offeredScore := by
  have score : rules.formatGain p heldScore offeredScore =
      other.formatGain p heldScore offeredScore := by
    rw [formatGain, formatGain, h.ceiling heldScore hs]
  have gain : rules.revisionGain held.quality offered =
      other.revisionGain held.quality offered := by
    rw [revisionGain, revisionGain, h.propers]
  have loss : rules.revisionLoss held.quality offered =
      other.revisionLoss held.quality offered := by
    rw [revisionLoss, revisionLoss, h.propers]
  rw [compareRated, compareRated, score, gain, loss]

theorem evaluate_eq (h : rules.AgreeAt other p held) (offered : Standing) :
    rules.evaluate p held offered = other.evaluate p held offered := by
  unfold evaluate
  cases hs : p.scoreOf held.formats with
  | error fault => rfl
  | ok heldScore => simp only [bind, Except.bind, h.compareRated_eq hs]

theorem cutoffNotMet_eq (h : rules.AgreeAt other p held) (candidate : Option QualityModel) :
    rules.cutoffNotMet p held candidate = other.cutoffNotMet p held candidate := by
  unfold cutoffNotMet
  cases hs : p.scoreOf held.formats with
  | error fault => rfl
  | ok heldScore => simp only [bind, Except.bind, h.ceiling heldScore hs, h.propers]

end AgreeAt

/-- Off the cutoff score both readings of the ceiling come to the same. -/
theorem agreeAt_of_ne (propers : Propers) {held : Standing}
    (off : p.scoreOf held.formats ≠ .ok p.cutoffFormatScore) :
    AgreeAt ⟨propers, .metAtCeiling⟩ ⟨propers, .climbAtCeiling⟩ p held where
  propers := rfl
  ceiling score scored := by
    have apart : score.val ≠ p.cutoffFormatScore.val := fun same =>
      off (Bounded.val_inj.mp same ▸ scored)
    simp only [formatCutoffMet, decide_eq_decide]
    omega

/-- A score past the ceiling has reached it. -/
theorem ReachesCeiling.met {propers : Propers} {score : Int}
    (past : ReachesCeiling ⟨propers, .climbAtCeiling⟩ p score) :
    ReachesCeiling ⟨propers, .metAtCeiling⟩ p score :=
  Int.le_of_lt past

theorem Improves.climb {propers : Propers} {held offered : Rating}
    (h : Improves ⟨propers, .metAtCeiling⟩ p held offered) :
    Improves ⟨propers, .climbAtCeiling⟩ p held offered :=
  h.of_lenient id id fun room past => room past.met

theorem formatCutoffMet_climb {propers : Propers} {score : Score}
    (room : formatCutoffMet ⟨propers, .metAtCeiling⟩ p score = false) :
    formatCutoffMet ⟨propers, .climbAtCeiling⟩ p score = false := by
  rw [← Bool.not_eq_true, formatCutoffMet_iff] at *
  exact fun past => room past.met

theorem cutoffNotMet_climb {propers : Propers} {held : Standing} {candidate : Option QualityModel}
    (room : cutoffNotMet ⟨propers, .metAtCeiling⟩ p held candidate = .ok true) :
    cutoffNotMet ⟨propers, .climbAtCeiling⟩ p held candidate = .ok true := by
  unfold cutoffNotMet at *
  by_cases met : p.qualityCutoffMet held.quality.quality
  · rw [if_pos met] at *
    obtain ⟨score, hs, room⟩ := Fault.bind_eq_ok_iff.mp room
    refine Fault.bind_eq_ok_iff.mpr ⟨score, hs, ?_⟩
    rw [Fault.pure_eq_ok_iff, Bool.or_eq_true, Bool.not_eq_true'] at *
    exact room.imp_left formatCutoffMet_climb
  · rw [if_neg met]
    rfl

/-- **The ceiling is read in two ways only where the score held equals the cutoff score**, and there
what is let through without climbing is let through with it. -/
theorem ceilings_agree_off_cutoff (propers : Propers) (p : Profile) (held : Standing) :
    (p.scoreOf held.formats ≠ .ok p.cutoffFormatScore →
      (∀ offered, evaluate ⟨propers, .metAtCeiling⟩ p held offered =
        evaluate ⟨propers, .climbAtCeiling⟩ p held offered) ∧
      ∀ candidate, cutoffNotMet ⟨propers, .metAtCeiling⟩ p held candidate =
        cutoffNotMet ⟨propers, .climbAtCeiling⟩ p held candidate) ∧
    (∀ offered, isUpgrade ⟨propers, .metAtCeiling⟩ p held offered = .ok true →
      isUpgrade ⟨propers, .climbAtCeiling⟩ p held offered = .ok true) ∧
    ∀ candidate, cutoffNotMet ⟨propers, .metAtCeiling⟩ p held candidate = .ok true →
      cutoffNotMet ⟨propers, .climbAtCeiling⟩ p held candidate = .ok true := by
  refine ⟨fun off => ?_, ?_, ?_⟩
  · have agree := agreeAt_of_ne propers off
    exact ⟨agree.evaluate_eq, agree.cutoffNotMet_eq⟩
  · intro offered upgrade
    exact isUpgrade_of_improves upgrade fun _ _ => Improves.climb
  · intro candidate
    exact cutoffNotMet_climb

/-- Off the cutoff score of ten, where a score of zero leaves room to both readings. -/
theorem ceilings_agree_off_cutoff_retail :
    Profile.small.scoreOf (Standing.unversioned .retail 1 []).formats ≠
        .ok Profile.small.cutoffFormatScore ∧
      evaluate ⟨.doNotUpgrade, .metAtCeiling⟩ .small (.unversioned .retail 1 [])
          (.unversioned .scene 1 [.bonus]) =
        evaluate ⟨.doNotUpgrade, .climbAtCeiling⟩ .small (.unversioned .retail 1 [])
          (.unversioned .scene 1 [.bonus]) ∧
      (isUpgrade ⟨.doNotUpgrade, .metAtCeiling⟩ .small (.unversioned .retail 1 [])
          (.unversioned .scene 1 [.bonus]) = .ok true ∧
        isUpgrade ⟨.doNotUpgrade, .climbAtCeiling⟩ .small (.unversioned .retail 1 [])
          (.unversioned .scene 1 [.bonus]) = .ok true) ∧
      cutoffNotMet ⟨.doNotUpgrade, .metAtCeiling⟩ .small (.unversioned .retail 1 []) none =
          .ok true ∧
        cutoffNotMet ⟨.doNotUpgrade, .climbAtCeiling⟩ .small (.unversioned .retail 1 []) none =
          .ok true := by
  have off : Profile.small.scoreOf (Standing.unversioned .retail 1 []).formats ≠
      .ok Profile.small.cutoffFormatScore :=
    fun same => absurd (Except.ok.inj same) (by decide)
  obtain ⟨agree, upgrade, room⟩ :=
    ceilings_agree_off_cutoff .doNotUpgrade .small (.unversioned .retail 1 [])
  exact ⟨off, (agree off).1 _, ⟨rfl, upgrade _ rfl⟩, rfl, room _ rfl⟩

/-- On the cutoff score the readings differ. -/
example :
    isUpgrade ⟨.doNotUpgrade, .metAtCeiling⟩ { Profile.small with cutoffFormatScore := 20 }
        (.unversioned .retail 1 [.bonus]) (.unversioned .retail 1 [.bonus, .bonus]) = .ok false ∧
      isUpgrade ⟨.doNotUpgrade, .climbAtCeiling⟩ { Profile.small with cutoffFormatScore := 20 }
        (.unversioned .retail 1 [.bonus]) (.unversioned .retail 1 [.bonus, .bonus]) = .ok true :=
  ⟨rfl, rfl⟩

end UpgradeRules

end ReleaseSelection
