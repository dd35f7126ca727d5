import ReleaseSelection.Check.Held
import ReleaseSelection.Proofs.Rating

/-!
# Clearing what is held

The checks on the file, the queue and the last grab ask two questions of each release held: whether
there is room above it, and whether the candidate improves on it. `Clears` is the answer to both.
The second would do but for one corner, which `clears_iff` names: `Overshoots`, a higher quality in
a higher revision, past both cutoffs.
-/

namespace ReleaseSelection

namespace UpgradeRules

variable {rules : UpgradeRules} {p : Profile} {held offered : Standing}

/-- There is room above what is held, and the candidate improves on it. -/
structure Clears (rules : UpgradeRules) (p : Profile) (held offered : Standing) : Prop where
  room : rules.isExhausted p held offered = .ok false
  upgrade : rules.isUpgrade p held offered = .ok true

/-- A higher quality in a higher revision where both cutoffs are met. Room is kept for a revision
of the same quality only, while the comparison lets revisions of higher ones pass. -/
structure Overshoots (rules : UpgradeRules) (p : Profile) (held offered : Standing) : Prop where
  preferred : rules.propers = .preferAndUpgrade
  cutoff : p.qualityCutoffMet held.quality.quality
  ceiling : ∃ score, p.scoreOf held.formats = .ok score ∧ rules.formatCutoffMet p score
  rank : p.rank held.quality.quality < p.rank offered.quality.quality
  revision : compare offered.quality.revision held.quality.revision = .gt
  version : GameVersion.isUpgrade held.version offered.version = false

theorem isExhausted_of_score {score : Score} (hs : p.scoreOf held.formats = .ok score) :
    rules.isExhausted p held offered = .ok
      (p.qualityCutoffMet held.quality.quality && rules.formatCutoffMet p score &&
        !(rules.propers != .doNotPrefer && held.quality.isRevisionUpgrade offered.quality) &&
        !GameVersion.isUpgrade held.version offered.version) := by
  unfold isExhausted cutoffNotMet
  by_cases met : p.qualityCutoffMet held.quality.quality
  · simp only [met, if_true, hs, Option.any_some, Bool.true_and]
    refine congrArg Except.ok ?_
    rw [Bool.not_or, Bool.not_not]
  · simp only [met, Bool.false_and]
    rfl

theorem Overshoots.isExhausted (h : rules.Overshoots p held offered) :
    rules.isExhausted p held offered = .ok true := by
  obtain ⟨score, hs, ceiling⟩ := h.ceiling
  have other : held.quality.isRevisionUpgrade offered.quality = false := by
    rw [QualityModel.isRevisionUpgrade, Bool.and_eq_false_iff, beq_eq_false_iff_ne]
    refine .inl fun same => ?_
    have := h.rank
    rw [same] at this
    omega
  rw [isExhausted_of_score hs, h.cutoff, ceiling, other, h.version, Bool.and_false]
  rfl

/-- Past both cutoffs only a revision improves without a newer version. If the gate finds no room
for it, it is one of another quality, and so of a higher rank. -/
theorem overshoots_of_isExhausted (upgrade : rules.isUpgrade p held offered = .ok true)
    (full : rules.isExhausted p held offered = .ok true) : rules.Overshoots p held offered := by
  obtain ⟨_, heldScore, offeredScore, hs, os, gain⟩ := isUpgrade_eq_ok_true_iff.mp upgrade
  rw [isExhausted_of_score hs] at full
  simp only [Except.ok.injEq, Bool.and_eq_true, Bool.not_eq_true'] at full
  obtain ⟨⟨⟨cutoff, ceiling⟩, unrevised⟩, older⟩ := full
  have meets := (p.qualityCutoffMet_iff _).mp cutoff
  have reached := (formatCutoffMet_iff heldScore).mp ceiling
  have unversioned : ¬ GameVersion.ordinalOf held.version < GameVersion.ordinalOf offered.version :=
    fun newer => by simp [(GameVersion.isUpgrade_iff _ _).mpr newer] at older
  cases gain.resolve_right unversioned with
  | quality _ short => exact absurd meets short
  | score _ _ gain => exact absurd reached gain.room
  | ceiling _ _ _ _ gain => exact absurd reached gain.room
  | revision rank preferred higher =>
    have revision : compare offered.quality.revision held.quality.revision = .gt := by
      rw [Revision.compare_eq, Int.compare_eq_gt]
      exact higher
    refine ⟨preferred, cutoff, ⟨heldScore, hs, ceiling⟩, ?_, revision, older⟩
    refine Int.lt_iff_le_and_ne.mpr ⟨rank, fun same => ?_⟩
    obtain ⟨cutoffRank, _, listed⟩ := meets
    have quality := Profile.rank_inj (p := p) (show 0 ≤ p.rank held.quality.quality by omega) same
    simp [QualityModel.isRevisionUpgrade, quality, revision, preferred] at unrevised

/-- The first question refuses no upgrade but those that overshoot. -/
theorem clears_iff :
    rules.Clears p held offered ↔
      rules.isUpgrade p held offered = .ok true ∧ ¬ rules.Overshoots p held offered := by
  constructor
  · rintro ⟨room, upgrade⟩
    refine ⟨upgrade, fun overshoots => ?_⟩
    cases room.symm.trans overshoots.isExhausted
  · rintro ⟨upgrade, within⟩
    obtain ⟨_, heldScore, _, hs, _⟩ := isUpgrade_eq_ok_true_iff.mp upgrade
    have answer : ∃ full, rules.isExhausted p held offered = .ok full :=
      ⟨_, isExhausted_of_score hs⟩
    obtain ⟨full, answer⟩ := answer
    cases full with
    | false => exact ⟨answer, upgrade⟩
    | true => exact absurd (overshoots_of_isExhausted upgrade answer) within

/-- Refusing where there is no room and comparing otherwise is asking for both. -/
theorem accept_iff_clears {full : Answer} {compared : Except Fault Answer}
    (refuses : full ≠ .accept)
    (compares : compared = .ok .accept ↔ rules.isUpgrade p held offered = .ok true) :
    (do if ← rules.isExhausted p held offered then return full else compared) = .ok .accept ↔
      rules.Clears p held offered := by
  rw [Fault.bind_eq_ok_iff]
  constructor
  · rintro ⟨exhausted, answer, h⟩
    cases exhausted with
    | false => exact ⟨answer, compares.mp h⟩
    | true => exact absurd (Fault.pure_eq_ok_iff.mp h) refuses
  · rintro ⟨room, upgrade⟩
    exact ⟨false, room, compares.mpr upgrade⟩

/-- Asking for room takes the score of what is held, and no other. -/
theorem guarded_answers {full : Answer} {compared : Except Fault Answer}
    (scored : ∃ score, p.scoreOf held.formats = .ok score)
    (compares : ∃ answer, compared = .ok answer) :
    ∃ answer, (do if ← rules.isExhausted p held offered then return full else compared) =
      .ok answer := by
  have asked : ∃ exhausted, rules.isExhausted p held offered = .ok exhausted :=
    ⟨_, isExhausted_of_score scored.choose_spec⟩
  obtain ⟨exhausted, asked⟩ := asked
  rw [asked]
  cases exhausted with
  | true => exact ⟨full, rfl⟩
  | false => exact compares

theorem verdict_eq_accept_iff {verdict : Outcome → Except Fault Answer}
    (accepts : ∀ gain, verdict (.upgrade gain) = .ok .accept)
    (refuses : ∀ shortfall, verdict (.notUpgrade shortfall) ≠ .ok .accept) :
    rules.evaluate p held offered >>= verdict = .ok .accept ↔
      rules.isUpgrade p held offered = .ok true := by
  rw [Fault.bind_eq_ok_iff, isUpgrade, Fault.map_eq_ok_iff]
  refine exists_congr fun outcome => and_congr_right fun _ => ?_
  cases outcome with
  | upgrade gain => simp [accepts, Outcome.isUpgrade]
  | notUpgrade shortfall => simp [refuses, Outcome.isUpgrade]

end UpgradeRules

namespace Answer

variable {rules : UpgradeRules} {p : Profile} {candidate : Standing}

/-! ## The file on disk -/

theorem diskShortfall_ne_accept (file : GameFile) (shortfall : Shortfall) :
    diskShortfall p file shortfall ≠ .ok .accept := by
  cases shortfall with
  | customFormatScore =>
    intro h
    obtain ⟨_, _, h⟩ := Fault.bind_eq_ok_iff.mp h
    cases h
  | _ => simp [diskShortfall]

theorem overFile_eq_accept_iff (file : GameFile) :
    overFile rules p file candidate = .ok .accept ↔ rules.Clears p file.standing candidate := by
  refine UpgradeRules.accept_iff_clears (by simp) (UpgradeRules.verdict_eq_accept_iff ?_ ?_)
  · intro gain
    rfl
  · exact diskShortfall_ne_accept file

theorem disk_eq_accept_iff {o : Offer} {game : Game} (matched : o.game = some game)
    (parsed : o.standing? = some candidate) :
    disk rules o = .ok .accept ↔
      ∀ file, game.file = some file → rules.Clears game.profile file.standing candidate := by
  simp only [disk, matched, parsed]
  cases game.file with
  | none => simp
  | some file => simpa using overFile_eq_accept_iff file

theorem diskShortfall_answers {file : GameFile} (hs : ∃ score, p.scoreOf file.formats = .ok score)
    (shortfall : Shortfall) : ∃ answer, diskShortfall p file shortfall = .ok answer := by
  cases shortfall with
  | customFormatScore =>
    obtain ⟨score, hs⟩ := hs
    exact ⟨_, Fault.bind_eq_ok_iff.mpr ⟨score, hs, rfl⟩⟩
  | _ => exact ⟨_, rfl⟩

theorem overFile_answers {file : GameFile} (hs : ∃ score, p.scoreOf file.formats = .ok score)
    (cs : ∃ score, p.scoreOf candidate.formats = .ok score) :
    ∃ answer, overFile rules p file candidate = .ok answer := by
  have held : ∃ score, p.scoreOf file.standing.formats = .ok score := hs
  apply UpgradeRules.guarded_answers held
  have compares : ∃ outcome, rules.evaluate p file.standing candidate = .ok outcome :=
    UpgradeRules.evaluate_answers hs cs
  obtain ⟨outcome, compared⟩ := compares
  rw [compared]
  cases outcome with
  | upgrade gain => exact ⟨_, rfl⟩
  | notUpgrade shortfall => exact diskShortfall_answers hs shortfall

theorem overFile_of_overshoots {file : GameFile}
    (h : rules.Overshoots p file.standing candidate) :
    overFile rules p file candidate =
      .ok (reject .diskCutoffMet ("Existing file meets cutoff: " ++ cutoffTitle p)) := by
  rw [overFile, h.isExhausted]
  rfl

/-! ## The queue -/

theorem overQueued_eq_accept_iff (item : QueueItem) :
    overQueued rules p item candidate = .ok .accept ↔ rules.Clears p item.standing candidate := by
  refine UpgradeRules.accept_iff_clears (by simp) (UpgradeRules.verdict_eq_accept_iff ?_ ?_)
  · intro gain
    rfl
  · intro shortfall
    cases shortfall <;> nofun

/-- The walk stops at the first download that is not cleared, so it ends well only past them all. -/
theorem overQueue_eq_accept_iff (items : List QueueItem) :
    overQueue rules p candidate items = .ok .accept ↔
      ∀ item ∈ items, item.state ≠ .failedPending → rules.Clears p item.standing candidate := by
  induction items with
  | nil => simp [overQueue]
  | cons item items ih =>
    rw [overQueue, List.forall_mem_cons, ← ih]
    by_cases failed : item.state = .failedPending
    · simp [failed]
    · rw [if_neg (by simpa using failed), Fault.bind_eq_ok_iff, ← overQueued_eq_accept_iff]
      constructor
      · rintro ⟨answer, first, rest⟩
        cases answer with
        | accept => exact ⟨fun _ => first, rest⟩
        | reject | failure => cases rest
      · rintro ⟨first, rest⟩
        exact ⟨.accept, first failed, rest⟩

theorem queue_eq_accept_iff {readers : Readers} {o : Offer} {game : Game}
    (matched : o.game = some game) (parsed : o.standing? = some candidate) {items : List QueueItem}
    (read : readers.queue game.id = .ok items) :
    queue rules readers o = .ok .accept ↔
      ∀ item ∈ items, item.state ≠ .failedPending →
        rules.Clears game.profile item.standing candidate := by
  simp only [queue, matched, parsed, read]
  exact overQueue_eq_accept_iff items

/-! ## The last grab -/

theorem overGrab_eq_accept_iff (recent : Bool) (grab : HistoryEntry) :
    overGrab rules recent p grab candidate = .ok .accept ↔
      rules.Clears p grab.standing candidate := by
  refine UpgradeRules.accept_iff_clears (by cases recent <;> simp) ?_
  rw [Fault.bind_eq_ok_iff]
  constructor
  · rintro ⟨upgrade, answer, h⟩
    cases upgrade with
    | true => exact answer
    | false => cases recent <;> cases h
  · intro upgrade
    exact ⟨true, upgrade, rfl⟩

theorem overHistory_eq_accept_iff (policy : Policy) (history : List HistoryEntry) (now : Instant) :
    overHistory policy p history candidate now = .ok .accept ↔
      ∀ entry, history.head? = some entry → entry.event = .grabbed →
        policy.isRecent now entry.date ∨ policy.completedDownloadHandling = false →
        policy.upgradeRules.Clears p entry.standing candidate := by
  unfold overHistory
  cases history.head? with
  | none => simp
  | some entry =>
    simp only [Option.some.injEq, forall_eq']
    by_cases counts : entry.event = .grabbed ∧
        (policy.isRecent now entry.date ∨ policy.completedDownloadHandling = false)
    · rw [if_pos (by simpa using counts), overGrab_eq_accept_iff]
      exact ⟨fun clears _ _ => clears, fun clears => clears counts.1 counts.2⟩
    · rw [if_neg (by simpa using counts)]
      exact ⟨fun _ grabbed within => absurd ⟨grabbed, within⟩ counts, fun _ => rfl⟩

theorem history_eq_accept_iff {policy : Policy} {readers : Readers} {o : Offer} {c : Context}
    {game : Game} (feed : c.isSearch = false) (matched : o.game = some game)
    (parsed : o.standing? = some candidate) {entries : List HistoryEntry}
    (read : readers.history game.id = .ok entries) :
    history policy readers o c = .ok .accept ↔
      ∀ entry, entries.head? = some entry → entry.event = .grabbed →
        policy.isRecent c.now entry.date ∨ policy.completedDownloadHandling = false →
        policy.upgradeRules.Clears game.profile entry.standing candidate := by
  simp only [history, feed, matched, parsed, read]
  exact overHistory_eq_accept_iff policy entries c.now

end Answer

/-! ## What the check on the file lets through -/

/-- The check on the file lets through the upgrades over it, short of those that overshoot. It
answers whenever both sides can be scored. -/
theorem Check.disk_accepts_iff (policy : Policy) {o : Offer} {game : Game} {candidate : Standing}
    (matched : o.game = some game) (parsed : o.standing? = some candidate) (c : Context) :
    ((Check.disk policy).run o c = .ok .accept ↔
        game.file = none ∨ ∃ file, game.file = some file ∧
          policy.upgradeRules.isUpgrade game.profile file.standing candidate = .ok true ∧
          ¬ policy.upgradeRules.Overshoots game.profile file.standing candidate) ∧
      (∀ file, game.file = some file →
        policy.upgradeRules.Overshoots game.profile file.standing candidate →
        (Check.disk policy).run o c = .ok (.reject .diskCutoffMet
          ("Existing file meets cutoff: " ++ Answer.cutoffTitle game.profile))) ∧
      ((∀ file, game.file = some file → ∃ score, game.profile.scoreOf file.formats = .ok score) →
        (∃ score, game.profile.scoreOf candidate.formats = .ok score) →
        ∃ answer, (Check.disk policy).run o c = .ok answer) := by
  have run : (Check.disk policy).run o c = Answer.disk policy.upgradeRules o := rfl
  rw [run, Answer.disk_eq_accept_iff matched parsed]
  simp only [UpgradeRules.clears_iff, Answer.disk, matched, parsed]
  cases game.file with
  | none => simp
  | some file =>
    refine ⟨by simp, ?_, ?_⟩
    · rintro _ ⟨⟩ overshoots
      exact Answer.overFile_of_overshoots overshoots
    · intro scored
      exact Answer.overFile_answers (scored file rfl)

def GameFile.of (s : Standing) : GameFile :=
  ⟨.nil, s.quality, s.formats, s.version, none, 0, ⟨0, 0⟩⟩

/-- A game of the small profile with this file. -/
def Game.holding (file : GameFile) : Game :=
  { ofTitle .nil "Small" .small with file := some file }

/-- A release of this standing for a game. -/
def Game.offered (game : Game) (s : Standing) : Offer where
  release := .ofTitle "Small" .usenet ⟨0, 0⟩
  parsed := some { ParsedTitle.ofQuality "Small" s.quality with version := s.version }
  game := some game
  formats := s.formats
  score := (game.profile.scoreOf s.formats).toOption.getD 0
  source := .unknown

theorem Check.disk_accepts_revision :
    ((Game.holding (.of (.unversioned .retail 1 [.bonus]))).offered
        (.unversioned .retail 2 [])).standing? = some (.unversioned .retail 2 []) ∧
      (Check.disk .default).run ((Game.holding (.of (.unversioned .retail 1 [.bonus]))).offered
        (.unversioned .retail 2 [])) (.rss ⟨0, 0⟩) = .ok .accept := by
  refine ⟨rfl, (Check.disk_accepts_iff .default rfl rfl _).1.mpr (.inr ⟨_, rfl, rfl, ?_⟩)⟩
  intro overshoots
  exact absurd overshoots.rank (by decide)

/-- An upgrade that is not let through: portable in a second revision, over retail in its first
with a score past the ceiling. -/
theorem Check.disk_refuses_upgrade :
    ¬ ∀ (policy : Policy) (o : Offer) (game : Game) (candidate : Standing) (c : Context),
      o.game = some game → o.standing? = some candidate →
      (∀ file, game.file = some file → ∃ score, game.profile.scoreOf file.formats = .ok score) →
      (∃ score, game.profile.scoreOf candidate.formats = .ok score) →
      ((Check.disk policy).run o c = .ok .accept ↔
        game.file = none ∨ ∃ file, game.file = some file ∧
          policy.upgradeRules.isUpgrade game.profile file.standing candidate = .ok true) := by
  intro gate
  have accepted := (gate .default
    ((Game.holding (.of (.unversioned .retail 1 [.bonus]))).offered (.unversioned .portable 2 []))
    (.holding (.of (.unversioned .retail 1 [.bonus]))) (.unversioned .portable 2 []) (.rss ⟨0, 0⟩)
    rfl rfl (by rintro _ ⟨⟩; exact ⟨20, rfl⟩) ⟨0, rfl⟩).mpr (.inr ⟨_, rfl, rfl⟩)
  cases accepted

end ReleaseSelection
