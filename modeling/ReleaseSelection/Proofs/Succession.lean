import ReleaseSelection.Proofs.Held

/-!
# Files in succession

A candidate that the check on the file accepts becomes the file that the next one is compared with.
Each step improves, but not all in one order: most steps rise by rank first (`Rating.Precedes`),
while one kind gives rank up for a score past the ceiling (`UpgradeRules.Undercuts`). Below the
quality cutoff the lost rank is then worth an upgrade again, so such a step opens a loop, and there
is no loop without one (`Succession.undercuts_of_repeat`).
-/

namespace ReleaseSelection

/-! ## Steps -/

/-- Higher by rank, then by revision where revisions are upgraded, then by score. -/
def Rating.Precedes (propers : Propers) (a b : Rating) : Prop :=
  a.rank < b.rank ∨ a.rank = b.rank ∧
    (propers = .preferAndUpgrade ∧ a.revision < b.revision ∨
      (propers = .preferAndUpgrade → a.revision = b.revision) ∧ a.score < b.score)

namespace Rating.Precedes

variable {propers : Propers} {a b c : Rating}

theorem irrefl (a : Rating) : ¬ a.Precedes propers a := by
  unfold Precedes
  omega

theorem trans (hab : a.Precedes propers b) (hbc : b.Precedes propers c) :
    a.Precedes propers c := by
  unfold Precedes at *
  by_cases upgraded : propers = .preferAndUpgrade
  · simp only [upgraded, true_and, forall_const] at *
    omega
  · simp only [upgraded, false_and, false_or, false_imp_iff, true_and] at *
    omega

end Rating.Precedes

namespace UpgradeRules

variable {rules : UpgradeRules} {p : Profile} {held next : Rating}

/-- Past the quality cutoff, rank is given up for a score past the ceiling, and unless revisions are
upgraded the cutoff is given up with it. -/
structure Undercuts (rules : UpgradeRules) (p : Profile) (held next : Rating) : Prop where
  rank : next.rank < held.rank
  met : p.MeetsCutoff held.rank
  room : ¬ rules.ReachesCeiling p held.score
  above : p.cutoffFormatScore.val < next.score
  short : rules.propers ≠ .preferAndUpgrade → ¬ p.MeetsCutoff next.rank

theorem Improves.precedes (h : rules.Improves p held next) (rank : held.rank ≤ next.rank) :
    held.Precedes rules.propers next := by
  rcases Int.lt_or_eq_of_le rank with less | same
  · exact .inl less
  refine .inr ⟨same, ?_⟩
  cases h with
  | quality less => omega
  | ceiling less => omega
  | revision _ preferred higher => exact .inl ⟨preferred, higher⟩
  | score _ kept gain =>
    by_cases preferred : rules.propers = .preferAndUpgrade
    · rcases kept same with ignored | le
      · cases preferred.symm.trans ignored
      · rcases Int.lt_or_eq_of_le le with higher | equal
        · exact .inl ⟨preferred, higher⟩
        · exact .inr ⟨fun _ => equal, gain.higher⟩
    · exact .inr ⟨fun preferred' => absurd preferred' preferred, gain.higher⟩

/-- Past the quality cutoff, where revisions are not upgraded, only the score is left to gain. -/
theorem Improves.score_lt (h : rules.Improves p held next)
    (preferred : rules.propers ≠ .preferAndUpgrade) (met : p.MeetsCutoff held.rank) :
    held.score < next.score := by
  cases h with
  | quality _ short => exact absurd met short
  | revision _ preferred' => exact absurd preferred' preferred
  | score _ _ gain => exact gain.higher
  | ceiling _ _ _ _ gain => exact gain.higher

theorem Improves.undercuts (h : rules.Improves p held next) (rank : next.rank < held.rank)
    (short : rules.propers ≠ .preferAndUpgrade → ¬ p.MeetsCutoff next.rank) :
    rules.Undercuts p held next := by
  cases h with
  | quality less => omega
  | revision le => omega
  | score le => omega
  | ceiling _ met _ above gain => exact ⟨rank, met, gain.room, above, short⟩

end UpgradeRules

/-! ## Loops -/

/-- Steps of a transitive relation relate the ends of a run. -/
theorem rel_of_steps {R : Rating → Rating → Prop} (trans : ∀ {a b c}, R a b → R b c → R a c)
    {f : Nat → Rating} {i j : Nat} (hij : i < j)
    (step : ∀ k, i ≤ k → k < j → R (f k) (f (k + 1))) : R (f i) (f j) := by
  induction j with
  | zero => omega
  | succ j ih =>
    have last := step j (by omega) (by omega)
    by_cases first : i = j
    · exact first ▸ last
    · exact trans (ih (by omega) fun k hk hkj => step k hk (by omega)) last

/-- What each step of a run keeps is there at its end. -/
theorem holds_of_steps {P : Rating → Prop} {f : Nat → Rating} {i j : Nat} (hij : i ≤ j)
    (step : ∀ k, i ≤ k → k < j → P (f k) → P (f (k + 1))) (first : P (f i)) : P (f j) := by
  induction j with
  | zero =>
    obtain rfl : i = 0 := by omega
    exact first
  | succ j ih =>
    by_cases here : i = j + 1
    · exact here ▸ first
    · have before := ih (by omega) fun k hk hkj => step k hk (by omega)
      exact step j (by omega) (by omega) before

section
variable {rules : UpgradeRules} {p : Profile} {f : Nat → Rating} {i j : Nat}

theorem exists_fall (hij : i < j) (same : f i = f j)
    (step : ∀ k, i ≤ k → k < j → rules.Improves p (f k) (f (k + 1))) :
    ∃ k, i ≤ k ∧ k < j ∧ (f (k + 1)).rank < (f k).rank := by
  apply Classical.byContradiction
  intro never
  have rises := rel_of_steps (R := Rating.Precedes rules.propers) Rating.Precedes.trans hij
    fun k hk hkj => (step k hk hkj).precedes
      (Int.not_lt.mp fun fall => never ⟨k, hk, hkj, fall⟩)
  rw [← same] at rises
  exact Rating.Precedes.irrefl (f i) rises

/-- Where revisions are not upgraded, a loop crosses the quality cutoff: all on one side of it, the
steps would rise either by score or by rank. -/
theorem exists_crossing (preferred : rules.propers ≠ .preferAndUpgrade) (hij : i < j)
    (same : f i = f j) (step : ∀ k, i ≤ k → k < j → rules.Improves p (f k) (f (k + 1))) :
    ∃ k, i ≤ k ∧ k < j ∧ p.MeetsCutoff (f k).rank ∧ ¬ p.MeetsCutoff (f (k + 1)).rank := by
  apply Classical.byContradiction
  intro never
  have stays (k : Nat) (hk : i ≤ k) (hkj : k < j) (met : p.MeetsCutoff (f k).rank) :
      p.MeetsCutoff (f (k + 1)).rank :=
    Classical.byContradiction fun short => never ⟨k, hk, hkj, met, short⟩
  have persists {k l : Nat} (hk : i ≤ k) (hkl : k ≤ l) (hl : l ≤ j)
      (met : p.MeetsCutoff (f k).rank) : p.MeetsCutoff (f l).rank :=
    holds_of_steps (P := fun a => p.MeetsCutoff a.rank) hkl
      (fun t hkt htl => stays t (by omega) (by omega)) met
  by_cases met : p.MeetsCutoff (f i).rank
  · have past (k : Nat) (hk : i ≤ k) (hkj : k < j) : p.MeetsCutoff (f k).rank :=
      persists (Nat.le_refl i) hk (by omega) met
    have rises := rel_of_steps (R := fun a b => a.score < b.score) Int.lt_trans hij
      fun k hk hkj => (step k hk hkj).score_lt preferred (past k hk hkj)
    rw [same] at rises
    omega
  · obtain ⟨k, hk, hkj, fall⟩ := exists_fall hij same step
    cases step k hk hkj with
    | quality less => omega
    | revision le => omega
    | score le => omega
    | ceiling _ past => exact met (same ▸ persists hk (by omega) (Nat.le_refl j) past)

theorem exists_undercut (hij : i < j) (same : f i = f j)
    (step : ∀ k, i ≤ k → k < j → rules.Improves p (f k) (f (k + 1))) :
    ∃ k, i ≤ k ∧ k < j ∧ rules.Undercuts p (f k) (f (k + 1)) := by
  by_cases preferred : rules.propers = .preferAndUpgrade
  · obtain ⟨k, hk, hkj, fall⟩ := exists_fall hij same step
    exact ⟨k, hk, hkj, (step k hk hkj).undercuts fall fun other => absurd preferred other⟩
  · obtain ⟨k, hk, hkj, met, short⟩ := exists_crossing preferred hij same step
    have fall : (f (k + 1)).rank < (f k).rank :=
      Int.not_le.mp fun le => short (met.mono le)
    exact ⟨k, hk, hkj, (step k hk hkj).undercuts fall fun _ => short⟩

end

/-! ## Files -/

/-- A candidate that the check on the file accepts takes the place of the file. -/
def Policy.Replaces (policy : Policy) (p : Profile) (held next : GameFile) : Prop :=
  ∃ (o : Offer) (c : Context) (game : Game), o.game = some game ∧ game.profile = p ∧
    game.file = some held ∧ o.standing? = some next.standing ∧
    (Check.disk policy).run o c = .ok .accept

/-- A run of files of one game that starts with any file and in which none carries a version. -/
structure Succession (policy : Policy) (p : Profile) (last : Nat) where
  file : Nat → GameFile
  unversioned : ∀ t, t ≤ last → (file t).version = none
  step : ∀ t, t < last → policy.Replaces p (file t) (file (t + 1))

/-- A step that gives rank up: the file meets the quality cutoff and has room below the format
ceiling, and what takes its place ranks lower with a score above the cutoff score. Unless revisions
are upgraded, it does not meet the quality cutoff itself; where they are, a later revision can give
the score up again, and a loop need not leave the cutoff. -/
structure Policy.Undercuts (policy : Policy) (p : Profile) (held next : GameFile) : Prop where
  rank : p.rank next.quality.quality < p.rank held.quality.quality
  cutoff : p.qualityCutoffMet held.quality.quality
  scores : ∃ heldScore nextScore, p.scoreOf held.formats = .ok heldScore ∧
    p.scoreOf next.formats = .ok nextScore ∧
    policy.upgradeRules.formatCutoffMet p heldScore = false ∧
    p.cutoffFormatScore.val < nextScore.val
  short : policy.propers ≠ .preferAndUpgrade → p.qualityCutoffMet next.quality.quality = false

theorem Policy.replaces_iff {policy : Policy} {p : Profile} {held next : GameFile} :
    policy.Replaces p held next ↔ policy.upgradeRules.Clears p held.standing next.standing := by
  constructor
  · rintro ⟨o, c, game, matched, rfl, file, parsed, accepted⟩
    exact (Answer.disk_eq_accept_iff matched parsed).mp accepted held file
  · intro clears
    let game : Game := { Game.ofTitle held.id "" p with file := some held }
    have parsed : (game.offered next.standing).standing? = some next.standing := rfl
    have matched : (game.offered next.standing).game = some game := rfl
    refine ⟨game.offered next.standing, .rss ⟨0, 0⟩, game, matched, rfl, rfl, parsed, ?_⟩
    refine (Answer.disk_eq_accept_iff matched parsed).mpr ?_
    rintro _ ⟨⟩
    exact clears

/-- What a comparison sees of a file; a file that cannot be scored is in no run of two files. -/
def GameFile.rating (p : Profile) (file : GameFile) : Rating :=
  p.rating file.quality ((p.scoreOf file.formats).toOption.getD 0)

theorem GameFile.rating_of_score {p : Profile} {file : GameFile} {score : Score}
    (h : p.scoreOf file.formats = .ok score) : file.rating p = p.rating file.quality score := by
  rw [rating, h]
  rfl

namespace Succession

variable {policy : Policy} {p : Profile} {last : Nat}

theorem scores (run : Succession policy p last) {t : Nat} (ht : t < last) :
    p.upgradeAllowed ∧ ∃ heldScore nextScore, p.scoreOf (run.file t).formats = .ok heldScore ∧
      p.scoreOf (run.file (t + 1)).formats = .ok nextScore := by
  have upgrade := (Policy.replaces_iff.mp (run.step t ht)).upgrade
  obtain ⟨unlocked, heldScore, nextScore, hs, ns, _⟩ :=
    UpgradeRules.isUpgrade_eq_ok_true_iff.mp upgrade
  exact ⟨unlocked, heldScore, nextScore, hs, ns⟩

theorem improves (run : Succession policy p last) {t : Nat} (ht : t < last) :
    policy.upgradeRules.Improves p ((run.file t).rating p) ((run.file (t + 1)).rating p) := by
  have upgrade := (Policy.replaces_iff.mp (run.step t ht)).upgrade
  obtain ⟨_, heldScore, nextScore, hs, ns, gain⟩ :=
    UpgradeRules.isUpgrade_eq_ok_true_iff.mp upgrade
  rw [GameFile.rating_of_score hs, GameFile.rating_of_score ns]
  refine gain.resolve_right ?_
  simp [GameFile.standing, run.unversioned t (by omega), run.unversioned (t + 1) (by omega)]

theorem undercuts_of_ratings (run : Succession policy p last) {t : Nat} (ht : t < last)
    (h : policy.upgradeRules.Undercuts p ((run.file t).rating p) ((run.file (t + 1)).rating p)) :
    policy.Undercuts p (run.file t) (run.file (t + 1)) := by
  obtain ⟨_, heldScore, nextScore, hs, ns⟩ := run.scores ht
  rw [GameFile.rating_of_score hs, GameFile.rating_of_score ns] at h
  refine ⟨h.rank, (p.qualityCutoffMet_iff _).mpr h.met, ⟨heldScore, nextScore, hs, ns, ?_, h.above⟩,
    fun preferred => Bool.eq_false_iff.mpr fun met => ?_⟩
  · exact Bool.eq_false_iff.mpr fun reached =>
      h.room ((UpgradeRules.formatCutoffMet_iff heldScore).mp reached)
  · exact h.short preferred ((p.qualityCutoffMet_iff _).mp met)

/-- The way back from a step that gives up the quality cutoff is open: below the cutoff any higher
rank is an upgrade. -/
theorem replaces_back (run : Succession policy p last) {t : Nat} (ht : t < last)
    (met : p.qualityCutoffMet (run.file t).quality.quality)
    (short : p.qualityCutoffMet (run.file (t + 1)).quality.quality = false) :
    policy.Replaces p (run.file (t + 1)) (run.file t) := by
  obtain ⟨unlocked, heldScore, nextScore, hs, ns⟩ := run.scores ht
  have below : ¬ p.MeetsCutoff (p.rank (run.file (t + 1)).quality.quality) := fun meets => by
    simp [(p.qualityCutoffMet_iff _).mpr meets] at short
  have rank : p.rank (run.file (t + 1)).quality.quality < p.rank (run.file t).quality.quality :=
    Int.not_le.mp fun le => below (((p.qualityCutoffMet_iff _).mp met).mono le)
  refine Policy.replaces_iff.mpr (UpgradeRules.clears_iff.mpr ⟨?_, fun overshoots => ?_⟩)
  · exact UpgradeRules.isUpgrade_eq_ok_true_iff.mpr
      ⟨unlocked, nextScore, heldScore, ns, hs, .inl (.quality rank below)⟩
  · exact below ((p.qualityCutoffMet_iff _).mp overshoots.cutoff)

/-- **A file comes back only after rank was given up**, and wherever the quality cutoff was given up
with it, it can come back at once. -/
theorem undercuts_of_repeat (run : Succession policy p last) :
    (∀ i j, i < j → j ≤ last → (run.file i).quality = (run.file j).quality →
      (run.file i).formats = (run.file j).formats →
      ∃ t, i ≤ t ∧ t < j ∧ policy.Undercuts p (run.file t) (run.file (t + 1))) ∧
    (∀ t, t < last → p.qualityCutoffMet (run.file t).quality.quality →
      p.qualityCutoffMet (run.file (t + 1)).quality.quality = false →
      policy.Replaces p (run.file (t + 1)) (run.file t)) := by
  constructor
  · intro i j hij hj quality formats
    have same : (run.file i).rating p = (run.file j).rating p := by
      rw [GameFile.rating, GameFile.rating, quality, formats]
    have improves (t : Nat) (_ : i ≤ t) (htj : t < j) := run.improves (t := t) (by omega)
    obtain ⟨t, hit, htj, undercuts⟩ :=
      exists_undercut (f := fun t => (run.file t).rating p) hij same improves
    exact ⟨t, hit, htj, run.undercuts_of_ratings (by omega) undercuts⟩
  · intro t ht met short
    exact run.replaces_back ht met short

/-- Plain retail takes the place of scene with the bonus, and loses it again. -/
def alternating : Succession .default .small 2 where
  file t := .of (if t = 1 then .unversioned .retail 1 [] else .unversioned .scene 1 [.bonus])
  unversioned t _ := by
    by_cases odd : t = 1 <;> simp [odd, GameFile.of, Standing.unversioned]
  step t ht := by
    have turn : t = 0 ∨ t = 1 := by omega
    rcases turn with rfl | rfl
    · exact ⟨(Game.holding (.of (.unversioned .scene 1 [.bonus]))).offered
        (.unversioned .retail 1 []), .rss ⟨0, 0⟩, _, rfl, rfl, rfl, rfl, rfl⟩
    · exact ⟨(Game.holding (.of (.unversioned .retail 1 []))).offered
        (.unversioned .scene 1 [.bonus]), .rss ⟨0, 0⟩, _, rfl, rfl, rfl, rfl, rfl⟩

theorem undercuts_of_repeat_alternating :
    (∃ t, 0 ≤ t ∧ t < 2 ∧
      Policy.default.Undercuts .small (alternating.file t) (alternating.file (t + 1))) ∧
    Policy.default.Replaces .small (alternating.file 2) (alternating.file 1) :=
  ⟨(undercuts_of_repeat alternating).1 0 2 (by decide) (by decide) rfl rfl,
    (undercuts_of_repeat alternating).2 1 (by decide) rfl rfl⟩

/-- Files do come back. -/
theorem exists_repeat :
    ¬ ∀ (policy : Policy) (p : Profile) (last : Nat) (run : Succession policy p last) (i j : Nat),
      i < j → j ≤ last →
      ¬ ((run.file i).quality = (run.file j).quality ∧
        (run.file i).formats = (run.file j).formats) := by
  intro never
  exact never .default .small 2 alternating 0 2 (by decide) (by decide) ⟨rfl, rfl⟩

end Succession

end ReleaseSelection
