import ReleaseSelection.Proofs.Order
import ReleaseSelection.Upgrade

/-!
# Ratings

A comparison sees of each side only its rank, its revision and its score, all integers once a
profile is given. `formatGain_exact` says that scores compare as those integers, although their
difference may leave the range of scores. `Improves` lists the four ways in which one rating
improves on another, and `isUpgrade_eq_ok_true_iff` says that they and a newer version are all there
is to an upgrade.
-/

namespace ReleaseSelection

structure Rating where
  rank : Int
  revision : Int
  score : Int
  deriving DecidableEq, Repr

def Profile.rating (p : Profile) (q : QualityModel) (score : Score) : Rating :=
  ⟨p.rank q.quality, q.revision.ordinal, score.val⟩

/-! ## The quality cutoff -/

namespace Profile

variable {p : Profile}

/-- The profile is content with what has this rank. -/
def MeetsCutoff (p : Profile) (rank : Int) : Prop :=
  ∃ cutoff : Nat, p.cutoffIndex = some cutoff ∧ cutoff ≤ rank

theorem qualityCutoffMet_iff (p : Profile) (q : Quality) :
    p.qualityCutoffMet q ↔ p.MeetsCutoff (p.rank q) := by
  unfold qualityCutoffMet MeetsCutoff rank
  cases p.cutoffIndex with
  | none => simp
  | some cutoff =>
    cases p.rankOf q with
    | none => simp; omega
    | some n => simp

theorem MeetsCutoff.mono {lower higher : Int} (h : p.MeetsCutoff lower) (le : lower ≤ higher) :
    p.MeetsCutoff higher := by
  obtain ⟨cutoff, hc, hl⟩ := h
  exact ⟨cutoff, hc, by omega⟩

/-- No two qualities share a place in the list. -/
theorem rank_inj {a b : Quality} (listed : 0 ≤ p.rank a) (same : p.rank a = p.rank b) :
    a = b := by
  unfold rank at listed same
  cases ha : p.rankOf a with
  | none => simp [ha] at listed
  | some n =>
    cases hb : p.rankOf b with
    | none =>
      simp only [ha, hb] at same
      omega
    | some m =>
      simp only [ha, hb, Int.ofNat_inj] at same
      subst same
      obtain ⟨_, qa, _⟩ := List.findIdx?_eq_some_iff_getElem.mp ha
      obtain ⟨_, qb, _⟩ := List.findIdx?_eq_some_iff_getElem.mp hb
      exact (beq_iff_eq.mp qa).symm.trans (beq_iff_eq.mp qb)

end Profile

namespace UpgradeRules

variable {rules : UpgradeRules} {p : Profile}

/-! ## Scores and revisions -/

/-- A score that leaves no room for a better one. -/
def ReachesCeiling (rules : UpgradeRules) (p : Profile) (score : Int) : Prop :=
  match rules.ceiling with
  | .metAtCeiling => p.cutoffFormatScore.val ≤ score
  | .climbAtCeiling => p.cutoffFormatScore.val < score

theorem formatCutoffMet_iff (score : Score) :
    rules.formatCutoffMet p score ↔ rules.ReachesCeiling p score.val := by
  unfold formatCutoffMet ReachesCeiling
  cases rules.ceiling <;> simp

theorem ReachesCeiling.mono {lower higher : Int} (h : rules.ReachesCeiling p lower)
    (le : lower ≤ higher) : rules.ReachesCeiling p higher := by
  unfold ReachesCeiling at *
  split at h <;> omega

/-- The score rises, from below the ceiling and by enough. -/
structure Gains (rules : UpgradeRules) (p : Profile) (held offered : Int) : Prop where
  room : ¬ rules.ReachesCeiling p held
  higher : held < offered
  enough : p.minUpgradeFormatScore.val ≤ offered - held

/-- What keeps a score from gaining: the first of the three that is missing. -/
inductive FallsShort (rules : UpgradeRules) (p : Profile) (held offered : Int) : Shortfall → Prop
  | room (reached : rules.ReachesCeiling p held) :
      FallsShort rules p held offered .customFormatCutoff
  | rise (room : ¬ rules.ReachesCeiling p held) (level : offered ≤ held) :
      FallsShort rules p held offered .customFormatScore
  | margin (room : ¬ rules.ReachesCeiling p held) (higher : held < offered)
      (short : offered - held < p.minUpgradeFormatScore.val) :
      FallsShort rules p held offered .minCustomFormatScore

theorem gains_or_fallsShort (rules : UpgradeRules) (p : Profile) (held offered : Int) :
    rules.Gains p held offered ∨ ∃ shortfall, rules.FallsShort p held offered shortfall := by
  by_cases reached : rules.ReachesCeiling p held
  · exact .inr ⟨_, .room reached⟩
  · by_cases higher : held < offered
    · by_cases enough : p.minUpgradeFormatScore.val ≤ offered - held
      · exact .inl ⟨reached, higher, enough⟩
      · exact .inr ⟨_, .margin reached higher (Int.not_le.mp enough)⟩
    · exact .inr ⟨_, .rise reached (Int.not_lt.mp higher)⟩

/-- A rise that leaves the range of scores is beyond every margin that a profile can ask for. -/
theorem saturated_rise_lt_iff {held offered : Score} (higher : held.val < offered.val)
    (margin : Score) :
    (Bounded.saturate (offered.val - held.val) : Score).val < margin.val ↔
      offered.val - held.val < margin.val :=
  Bounded.val_saturate_lt_iff (by omega) margin

theorem formatGain_of_gains {held offered : Score} (h : rules.Gains p held.val offered.val) :
    rules.formatGain p held offered = .ok () := by
  have room : ¬ rules.formatCutoffMet p held := by
    rw [formatCutoffMet_iff]
    exact h.room
  have enough : ¬ (Bounded.saturate (offered.val - held.val) : Score).val <
      p.minUpgradeFormatScore.val := by
    rw [saturated_rise_lt_iff h.higher]
    exact Int.not_lt.mpr h.enough
  rw [formatGain, if_neg room, if_neg (Int.not_le.mpr h.higher), if_neg enough]

theorem formatGain_of_fallsShort {held offered : Score} {shortfall : Shortfall}
    (h : rules.FallsShort p held.val offered.val shortfall) :
    rules.formatGain p held offered = .error shortfall := by
  have below (room : ¬ rules.ReachesCeiling p held.val) : ¬ rules.formatCutoffMet p held := by
    rwa [formatCutoffMet_iff]
  cases h with
  | room reached => rw [formatGain, if_pos ((formatCutoffMet_iff held).mpr reached)]
  | rise room level => rw [formatGain, if_neg (below room), if_pos level]
  | margin room higher short =>
    -- Only a rise is held against the margin, so nothing is ever cut off at the lower end.
    have short := (saturated_rise_lt_iff higher p.minUpgradeFormatScore).mpr short
    rw [formatGain, if_neg (below room), if_neg (Int.not_le.mpr higher), if_pos short]

theorem formatGain_eq_ok_iff (held offered : Score) :
    rules.formatGain p held offered = .ok () ↔ rules.Gains p held.val offered.val := by
  constructor
  · intro gained
    rcases gains_or_fallsShort rules p held.val offered.val with gains | ⟨shortfall, short⟩
    · exact gains
    · rw [formatGain_of_fallsShort short] at gained
      cases gained
  · exact formatGain_of_gains

theorem formatGain_eq_error_iff {held offered : Score} {shortfall : Shortfall} :
    rules.formatGain p held offered = .error shortfall ↔
      rules.FallsShort p held.val offered.val shortfall := by
  constructor
  · intro refused
    rcases gains_or_fallsShort rules p held.val offered.val with gains | ⟨first, short⟩
    · rw [formatGain_of_gains gains] at refused
      cases refused
    · rw [formatGain_of_fallsShort short] at refused
      cases refused
      exact short
  · exact formatGain_of_fallsShort

/-- **Scores are compared as integers.** Their difference is cut off where it leaves the range of
scores, yet a gain is granted, or refused for the first that is missing, as the exact one has it. -/
theorem formatGain_exact (rules : UpgradeRules) (p : Profile) (held offered : Score) :
    (rules.formatGain p held offered = .ok () ↔ rules.Gains p held.val offered.val) ∧
    ∀ shortfall, rules.formatGain p held offered = .error shortfall ↔
      rules.FallsShort p held.val offered.val shortfall :=
  ⟨formatGain_eq_ok_iff held offered, fun _ => formatGain_eq_error_iff⟩

/-- A rise from end to end, twice what a score can hold, meets the widest margin. -/
example (p : Profile) :
    formatGain ⟨.preferAndUpgrade, .metAtCeiling⟩
      { p with cutoffFormatScore := 0, minUpgradeFormatScore := 2147483647 }
      (.saturate (-2147483648)) 2147483647 = .ok () :=
  rfl

theorem Gains.mono {held held' offered offered' : Int} (h : rules.Gains p held offered)
    (lower : held' ≤ held) (higher : offered ≤ offered') : rules.Gains p held' offered' where
  room reached := h.room (reached.mono lower)
  higher := by have := h.higher; omega
  enough := by have := h.enough; omega

/-- The offered revision is no lower, where that matters. -/
def KeepsRevision (rules : UpgradeRules) (held offered : Int) : Prop :=
  rules.propers = .doNotPrefer ∨ held ≤ offered

theorem revisionGain_iff (held offered : QualityModel) :
    rules.revisionGain held offered ↔
      rules.propers = .preferAndUpgrade ∧ held.revision.ordinal < offered.revision.ordinal := by
  rw [revisionGain, Bool.and_eq_true, beq_iff_eq, beq_iff_eq, Revision.compare_eq,
    Int.compare_eq_gt]

theorem revisionLoss_eq_false_iff (held offered : QualityModel) :
    rules.revisionLoss held offered = false ↔
      rules.KeepsRevision held.revision.ordinal offered.revision.ordinal := by
  rw [revisionLoss, Bool.and_eq_false_iff, bne_eq_false_iff_eq, beq_eq_false_iff_ne,
    Revision.compare_eq, Int.compare_ne_lt]
  rfl

/-! ## Improvement -/

/-- The four ways in which a release improves on another. Only the last takes a lower rank. -/
inductive Improves (rules : UpgradeRules) (p : Profile) (held offered : Rating) : Prop
  | quality (rank : held.rank < offered.rank) (short : ¬ p.MeetsCutoff held.rank)
  | revision (rank : held.rank ≤ offered.rank) (preferred : rules.propers = .preferAndUpgrade)
      (higher : held.revision < offered.revision)
  | score (rank : held.rank ≤ offered.rank)
      (kept : held.rank = offered.rank → rules.KeepsRevision held.revision offered.revision)
      (gain : rules.Gains p held.score offered.score)
  | ceiling (rank : offered.rank < held.rank) (met : p.MeetsCutoff held.rank)
      (kept : rules.KeepsRevision held.revision offered.revision)
      (above : p.cutoffFormatScore.val < offered.score)
      (gain : rules.Gains p held.score offered.score)

theorem improves_of_compareRated {held offered : QualityModel} {heldScore offeredScore : Score}
    (h : (rules.compareRated p held offered heldScore offeredScore).isUpgrade) :
    rules.Improves p (p.rating held heldScore) (p.rating offered offeredScore) := by
  unfold compareRated at h
  cases order : compare (p.rank offered.quality) (p.rank held.quality) with
  | gt =>
    have rank := Int.compare_eq_gt.mp order
    simp only [order] at h
    split at h
    · rename_i short
      refine .quality rank fun met => ?_
      simp [(p.qualityCutoffMet_iff held.quality).mpr met] at short
    · split at h
      · rename_i gain
        obtain ⟨preferred, higher⟩ := (revisionGain_iff held offered).mp gain
        exact .revision (Int.le_of_lt rank) preferred higher
      · split at h
        · rename_i gain
          exact .score (Int.le_of_lt rank) (fun same => absurd same (Int.ne_of_lt rank))
            ((formatGain_eq_ok_iff heldScore offeredScore).mp gain)
        · cases h
  | eq =>
    have rank := Int.le_of_eq (Int.compare_eq_eq.mp order).symm
    simp only [order] at h
    split at h
    · cases h
    · rename_i kept
      split at h
      · rename_i gain
        obtain ⟨preferred, higher⟩ := (revisionGain_iff held offered).mp gain
        exact .revision rank preferred higher
      · split at h
        · rename_i gain
          exact .score rank
            (fun _ => (revisionLoss_eq_false_iff held offered).mp (Bool.eq_false_iff.mpr kept))
            ((formatGain_eq_ok_iff heldScore offeredScore).mp gain)
        · cases h
  | lt =>
    have rank := Int.compare_eq_lt.mp order
    simp only [order] at h
    split at h
    · rename_i gain
      split at h
      · rename_i past
        simp only [Bool.and_eq_true, Bool.not_eq_true', decide_eq_true_eq] at past
        exact .ceiling rank ((p.qualityCutoffMet_iff held.quality).mp past.1.1)
          ((revisionLoss_eq_false_iff held offered).mp past.1.2) past.2
          ((formatGain_eq_ok_iff heldScore offeredScore).mp gain)
      · cases h
    · cases h

theorem compareRated_of_improves {held offered : QualityModel} {heldScore offeredScore : Score}
    (h : rules.Improves p (p.rating held heldScore) (p.rating offered offeredScore)) :
    (rules.compareRated p held offered heldScore offeredScore).isUpgrade := by
  have greater (rank : p.rank held.quality < p.rank offered.quality) :=
    Int.compare_eq_gt.mpr rank
  have equal (rank : p.rank held.quality = p.rank offered.quality) :=
    Int.compare_eq_eq.mpr rank.symm
  unfold compareRated
  cases h with
  | quality rank short =>
    have short : p.qualityCutoffMet held.quality = false :=
      Bool.eq_false_iff.mpr fun met => short ((p.qualityCutoffMet_iff _).mp met)
    simp only [greater rank, short, Bool.not_false, if_true]
    rfl
  | revision rank preferred higher =>
    have gain : rules.revisionGain held offered :=
      (revisionGain_iff held offered).mpr ⟨preferred, higher⟩
    rcases Int.lt_or_eq_of_le rank with rank | rank
    · simp only [greater rank, gain, if_true]
      split <;> rfl
    · have kept : rules.revisionLoss held offered = false :=
        (revisionLoss_eq_false_iff held offered).mpr (.inr (Int.le_of_lt higher))
      simp only [equal rank, gain, kept, Bool.false_eq_true, if_false, if_true]
      rfl
  | score rank kept gain =>
    have gain := (formatGain_eq_ok_iff heldScore offeredScore).mpr gain
    rcases Int.lt_or_eq_of_le rank with rank | rank
    · simp only [greater rank, gain]
      split
      · rfl
      · split <;> rfl
    · have kept : rules.revisionLoss held offered = false :=
        (revisionLoss_eq_false_iff held offered).mpr (kept rank)
      simp only [equal rank, kept, gain, Bool.false_eq_true, if_false]
      split <;> rfl
  | ceiling rank met kept above gain =>
    have less : compare (p.rank offered.quality) (p.rank held.quality) = .lt :=
      Int.compare_eq_lt.mpr rank
    have met := (p.qualityCutoffMet_iff held.quality).mpr met
    have kept : rules.revisionLoss held offered = false :=
      (revisionLoss_eq_false_iff held offered).mpr kept
    have gain := (formatGain_eq_ok_iff heldScore offeredScore).mpr gain
    have above := decide_eq_true (show p.cutoffFormatScore.val < offeredScore.val from above)
    simp only [less, gain, met, kept, above, Bool.not_false, Bool.and_self, if_true]
    rfl

theorem isUpgrade_compareRated_iff (held offered : QualityModel)
    (heldScore offeredScore : Score) :
    (rules.compareRated p held offered heldScore offeredScore).isUpgrade ↔
      rules.Improves p (p.rating held heldScore) (p.rating offered offeredScore) :=
  ⟨improves_of_compareRated, compareRated_of_improves⟩

/-! ## Upgrades -/

theorem isUpgrade_withVersion_iff (held offered : Option GameVersion) (outcome : Outcome) :
    (withVersion held offered outcome).isUpgrade ↔
      outcome.isUpgrade ∨ GameVersion.ordinalOf held < GameVersion.ordinalOf offered := by
  rw [← GameVersion.isUpgrade_iff]
  cases outcome with
  | upgrade gain => simp [withVersion, Outcome.isUpgrade]
  | notUpgrade shortfall =>
    by_cases newer : GameVersion.isUpgrade held offered <;>
      simp [withVersion, Outcome.isUpgrade, newer]

/-- An unlocked profile compares once both sides are scored. -/
theorem evaluate_of_scores {held offered : Standing} {heldScore offeredScore : Score}
    (unlocked : p.upgradeAllowed) (hs : p.scoreOf held.formats = .ok heldScore)
    (os : p.scoreOf offered.formats = .ok offeredScore) :
    rules.evaluate p held offered = .ok (withVersion held.version offered.version
      (rules.compareRated p held.quality offered.quality heldScore offeredScore)) := by
  rw [evaluate, if_pos unlocked, hs, os]
  rfl

theorem evaluate_answers {held offered : Standing}
    (hs : ∃ score, p.scoreOf held.formats = .ok score)
    (os : ∃ score, p.scoreOf offered.formats = .ok score) :
    ∃ outcome, rules.evaluate p held offered = .ok outcome := by
  obtain ⟨heldScore, hs⟩ := hs
  obtain ⟨offeredScore, os⟩ := os
  by_cases unlocked : p.upgradeAllowed
  · exact ⟨_, evaluate_of_scores unlocked hs os⟩
  · rw [evaluate, if_neg unlocked]
    exact ⟨_, rfl⟩

theorem isUpgrade_eq_ok_true_iff {held offered : Standing} :
    rules.isUpgrade p held offered = .ok true ↔
      p.upgradeAllowed ∧ ∃ heldScore offeredScore, p.scoreOf held.formats = .ok heldScore ∧
        p.scoreOf offered.formats = .ok offeredScore ∧
        (rules.Improves p (p.rating held.quality heldScore)
            (p.rating offered.quality offeredScore) ∨
          GameVersion.ordinalOf held.version < GameVersion.ordinalOf offered.version) := by
  rw [isUpgrade, Fault.map_eq_ok_iff]
  constructor
  · rintro ⟨outcome, h, upgrade⟩
    unfold evaluate at h
    split at h
    · rename_i unlocked
      obtain ⟨heldScore, hs, h⟩ := Fault.bind_eq_ok_iff.mp h
      obtain ⟨offeredScore, os, h⟩ := Fault.bind_eq_ok_iff.mp h
      cases Fault.pure_eq_ok_iff.mp h
      rw [isUpgrade_withVersion_iff, isUpgrade_compareRated_iff] at upgrade
      exact ⟨unlocked, heldScore, offeredScore, hs, os, upgrade⟩
    · cases Fault.pure_eq_ok_iff.mp h
      cases upgrade
  · rintro ⟨unlocked, heldScore, offeredScore, hs, os, upgrade⟩
    refine ⟨_, evaluate_of_scores unlocked hs os, ?_⟩
    rwa [isUpgrade_withVersion_iff, isUpgrade_compareRated_iff]

end UpgradeRules

/-! ## A small profile -/

/-- The identifier of zeros. -/
def Uuid.nil : Uuid := ⟨List.replicate 32 0, List.length_replicate⟩

def Uuid.last : Uuid := ⟨List.replicate 32 (Fin.last 15), List.length_replicate⟩

def Format.bonus : Format := ⟨.nil, "Bonus"⟩

/-- Content with retail in the middle of three qualities, and with a score of ten, which the one
format that counts exceeds. -/
def Profile.small : Profile :=
  { ofItems .nil "Small" [⟨.scene, true⟩, ⟨.retail, true⟩, ⟨.portable, true⟩] .retail with
    formatItems := [⟨Format.bonus.id, 20⟩]
    cutoffFormatScore := 10 }

def Standing.unversioned (q : Quality) (revision : Count) (formats : List Format) : Standing :=
  ⟨⟨q, ⟨revision, 0, false⟩⟩, formats, none⟩

end ReleaseSelection
