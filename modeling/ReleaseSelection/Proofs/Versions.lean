import ReleaseSelection.Proofs.Rating

/-!
# Versions

A newer version makes an upgrade of what would be none, and a comparison depends on versions in no
other way. `evaluate_overridden` says what the versions make of the outcome without them: a locked
profile comes first, then an upgrade for its own reason, then the newer version, and a refusal keeps
its reason.
-/

namespace ReleaseSelection

namespace GameVersion

/-- Part by part the version held is below the one offered. A missing version stands with the empty
one, at the bottom. -/
def IsNewer (held offered : Option GameVersion) : Prop :=
  compare (held.getD zero) (offered.getD zero) = .lt

theorem isUpgrade_iff_isNewer (held offered : Option GameVersion) :
    isUpgrade held offered ↔ IsNewer held offered := by
  rw [isUpgrade_iff, IsNewer, compare_eq, Int.compare_eq_lt]
  rfl

theorem not_isNewer_none (held : Option GameVersion) : ¬ IsNewer held none := by
  rw [← isUpgrade_iff_isNewer]
  simp [isUpgrade]

end GameVersion

/-- The same release without its version. -/
def Standing.withoutVersion (s : Standing) : Standing := { s with version := none }

namespace UpgradeRules

variable {rules : UpgradeRules} {p : Profile}

theorem withVersion_of_isNewer {held offered : Option GameVersion}
    (newer : GameVersion.IsNewer held offered) (shortfall : Shortfall) :
    withVersion held offered (.notUpgrade shortfall) = .upgrade .newerVersion :=
  if_pos ((GameVersion.isUpgrade_iff_isNewer held offered).mpr newer)

theorem withVersion_of_not_isNewer {held offered : Option GameVersion}
    (older : ¬ GameVersion.IsNewer held offered) (outcome : Outcome) :
    withVersion held offered outcome = outcome := by
  cases outcome with
  | upgrade gain => rfl
  | notUpgrade shortfall =>
    exact if_neg fun newer => older ((GameVersion.isUpgrade_iff_isNewer held offered).mp newer)

/-- Without versions the comparison is the same, and versions come in last. -/
theorem evaluate_eq_withVersion (unlocked : p.upgradeAllowed) (held offered : Standing) :
    rules.evaluate p held offered = withVersion held.version offered.version <$>
      rules.evaluate p held.withoutVersion offered.withoutVersion := by
  have plain (outcome : Outcome) : withVersion none none outcome = outcome :=
    withVersion_of_not_isNewer (GameVersion.not_isNewer_none none) outcome
  rw [evaluate, evaluate, if_pos unlocked, if_pos unlocked]
  simp only [Standing.withoutVersion, plain]
  cases p.scoreOf held.formats with
  | error fault => rfl
  | ok heldScore =>
    cases p.scoreOf offered.formats with
    | error fault => rfl
    | ok offeredScore => rfl

/-- The outcome for two releases with these versions, against the outcome `base` without them. -/
structure Overridden (held offered : Option GameVersion) (base outcome : Except Fault Outcome) :
    Prop where
  /-- An upgrade stays the upgrade that it is. -/
  upgrade : ∀ gain, base = .ok (.upgrade gain) → outcome = .ok (.upgrade gain)
  newer : ∀ shortfall, base = .ok (.notUpgrade shortfall) → GameVersion.IsNewer held offered →
    outcome = .ok (.upgrade .newerVersion)
  /-- What falls short does so for the same reason. -/
  refused : ∀ shortfall, base = .ok (.notUpgrade shortfall) →
    ¬ GameVersion.IsNewer held offered → outcome = .ok (.notUpgrade shortfall)
  fault : ∀ fault, base = .error fault → outcome = .error fault

theorem overridden_map (held offered : Option GameVersion) (base : Except Fault Outcome) :
    Overridden held offered base (withVersion held offered <$> base) := by
  constructor
  · rintro gain rfl
    rfl
  · rintro shortfall rfl newer
    exact congrArg Except.ok (withVersion_of_isNewer newer shortfall)
  · rintro shortfall rfl older
    exact congrArg Except.ok (withVersion_of_not_isNewer older _)
  · rintro fault rfl
    rfl

/-- **The version decides last, and apart from all else.** -/
theorem evaluate_overridden (rules : UpgradeRules) (p : Profile) (held offered : Standing) :
    (p.upgradeAllowed = false →
      rules.evaluate p held offered = .ok (.notUpgrade .upgradesNotAllowed)) ∧
    (p.upgradeAllowed = true →
      Overridden held.version offered.version
        (rules.evaluate p held.withoutVersion offered.withoutVersion)
        (rules.evaluate p held offered)) := by
  constructor
  · intro locked
    rw [evaluate, if_neg (Bool.eq_false_iff.mp locked)]
    rfl
  · intro unlocked
    rw [evaluate_eq_withVersion unlocked held offered]
    exact overridden_map held.version offered.version _

/-- Scene in the second version, over retail in the first or in the third. -/
theorem evaluate_overridden_scene :
    (Policy.default.upgradeRules.evaluate .small (.unversioned .retail 1 [])
        (.unversioned .scene 1 []) = .ok (.notUpgrade .betterQuality) ∧
      GameVersion.IsNewer (some ⟨1, 0, 0, 0⟩) (some ⟨2, 0, 0, 0⟩) ∧
      Policy.default.upgradeRules.evaluate .small
        { Standing.unversioned .retail 1 [] with version := some ⟨1, 0, 0, 0⟩ }
        { Standing.unversioned .scene 1 [] with version := some ⟨2, 0, 0, 0⟩ } =
          .ok (.upgrade .newerVersion)) ∧
    ¬ GameVersion.IsNewer (some ⟨3, 0, 0, 0⟩) (some ⟨2, 0, 0, 0⟩) ∧
      Policy.default.upgradeRules.evaluate .small
        { Standing.unversioned .retail 1 [] with version := some ⟨3, 0, 0, 0⟩ }
        { Standing.unversioned .scene 1 [] with version := some ⟨2, 0, 0, 0⟩ } =
          .ok (.notUpgrade .betterQuality) := by
  have newer : GameVersion.IsNewer (some ⟨1, 0, 0, 0⟩) (some ⟨2, 0, 0, 0⟩) := rfl
  have older : ¬ GameVersion.IsNewer (some ⟨3, 0, 0, 0⟩) (some ⟨2, 0, 0, 0⟩) := nofun
  refine ⟨⟨rfl, newer, ?_⟩, older, ?_⟩
  · exact ((evaluate_overridden _ _ _ _).2 rfl).newer .betterQuality rfl newer
  · exact ((evaluate_overridden _ _ _ _).2 rfl).refused .betterQuality rfl older

end UpgradeRules

end ReleaseSelection
