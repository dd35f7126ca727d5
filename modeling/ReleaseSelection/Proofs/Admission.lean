import ReleaseSelection.Check.Standard
import ReleaseSelection.Proofs.Held
import ReleaseSelection.Proofs.Pipeline
import ReleaseSelection.Proofs.Readings

/-!
# What an approval vouches for

Each of the standard checks lets through what it is not about: an offer without a game, a search
where the last grab is in question, a download about to fail. `Admitted` is what is left to rely on
when all of them have accepted (`admitted_of_approved`).
-/

namespace ReleaseSelection

/-! ## Single checks -/

namespace Answer

variable {o : Offer} {c : Context} {game : Game} {candidate : Standing}

theorem monitored_eq_accept_iff (matched : o.game = some game) :
    monitored o c = .accept ↔ game.monitored ∨ c.isUserInvoked := by
  simp only [monitored, matched, require_eq_accept_iff, Bool.or_eq_true]

theorem qualityAllowed_eq_accept_iff (matched : o.game = some game)
    (understood : o.standing? = some candidate) :
    qualityAllowed o = .accept ↔ game.profile.isAllowed candidate.quality.quality := by
  obtain ⟨parsed, known, rfl⟩ := Option.map_eq_some_iff.mp understood
  simp only [qualityAllowed, matched, known, require_eq_accept_iff]

theorem minimumScore_eq_accept_iff (matched : o.game = some game) :
    minimumScore o = .accept ↔ game.profile.minFormatScore.val ≤ o.score.val := by
  simp only [minimumScore, matched, require_eq_accept_iff, decide_eq_true_eq]

theorem blocklist_eq_accept_iff (store : Store) (matched : o.game = some game) :
    blocklist store.readers o = .accept ↔
      ∀ entry ∈ store.blocklist, entry.gameId = game.id → ¬ entry.isMatch o.release := by
  simp [blocklist, Store.readers, Store.blocklistFor, matched, require_eq_accept_iff]

theorem queue_readers_eq_accept_iff (rules : UpgradeRules) (store : Store)
    (matched : o.game = some game) (understood : o.standing? = some candidate) :
    queue rules store.readers o = .ok .accept ↔
      ∀ item ∈ store.queue, item.gameId = game.id → item.state ≠ .failedPending →
        rules.Clears game.profile item.standing candidate := by
  have read : store.readers.queue game.id = .ok (store.queueFor game.id) := rfl
  rw [queue_eq_accept_iff matched understood read]
  simp only [Store.queueFor, List.mem_filter, beq_iff_eq, and_imp]

theorem history_readers_eq_accept_iff (policy : Policy) (store : Store) (feed : c.isSearch = false)
    (matched : o.game = some game) (understood : o.standing? = some candidate) :
    history policy store.readers o c = .ok .accept ↔
      ∀ entry : HistoryEntry, entry.IsNewestOf (store.history.filter (·.gameId == game.id)) →
        entry.event = .grabbed →
        policy.isRecent c.now entry.date ∨ policy.completedDownloadHandling = false →
        policy.upgradeRules.Clears game.profile entry.standing candidate := by
  have read : store.readers.history game.id = .ok (store.historyFor game.id) := rfl
  have newest (entry : HistoryEntry) : (store.historyFor game.id).head? = some entry ↔
      entry.IsNewestOf (store.history.filter (·.gameId == game.id)) :=
    store.mostRecentFor_eq_some_iff game.id entry
  simp only [history_eq_accept_iff feed matched understood read, newest]

end Answer

/-! ## All of them -/

/-- What holds of an offer that is approved on a store, with its game and what is known of it as a
candidate. -/
structure Admitted (policy : Policy) (store : Store) (c : Context) (o : Offer) (game : Game)
    (candidate : Standing) : Prop where
  matched : o.game = some game
  understood : o.standing? = some candidate
  wanted : game.monitored ∨ c.isUserInvoked
  allowed : game.profile.isAllowed candidate.quality.quality
  scored : game.profile.minFormatScore.val ≤ o.score.val
  unblocked : ∀ entry ∈ store.blocklist, entry.gameId = game.id → ¬ entry.isMatch o.release
  overFile : ∀ file, game.file = some file →
    policy.upgradeRules.isUpgrade game.profile file.standing candidate = .ok true
  overQueue : ∀ item ∈ store.queue, item.gameId = game.id → item.state ≠ .failedPending →
    policy.upgradeRules.isUpgrade game.profile item.standing candidate = .ok true
  overGrab : c.isSearch = false → ∀ entry : HistoryEntry,
    entry.IsNewestOf (store.history.filter (·.gameId == game.id)) → entry.event = .grabbed →
    policy.isRecent c.now entry.date ∨ policy.completedDownloadHandling = false →
    policy.upgradeRules.isUpgrade game.profile entry.standing candidate = .ok true

section
variable {policy : Policy} {store : Store} {o : Offer} {c : Context}

theorem admitted_of_accepts {game : Game} {candidate : Standing} (matched : o.game = some game)
    (understood : o.standing? = some candidate)
    (accepts : ∀ check ∈ Check.standard policy store.readers, check.run o c = .ok .accept) :
    Admitted policy store c o game candidate := by
  have passes (check : Check) (answer : Answer) (run : check.run o c = .ok answer)
      (standard : check ∈ Check.standard policy store.readers) : answer = .accept :=
    Except.ok.inj (run.symm.trans (accepts check standard))
  have wanted := passes .monitored _ rfl (by simp [Check.standard])
  have allowed := passes .qualityAllowed _ rfl (by simp [Check.standard])
  have scored := passes .minimumScore _ rfl (by simp [Check.standard])
  have unblocked := passes (.blocklist store.readers) _ rfl (by simp [Check.standard])
  have disk := accepts (.disk policy) (by simp [Check.standard])
  have queue := accepts (.queue policy store.readers) (by simp [Check.standard])
  have history := accepts (.history policy store.readers) (by simp [Check.standard])
  constructor
  · exact matched
  · exact understood
  · exact (Answer.monitored_eq_accept_iff matched).mp wanted
  · exact (Answer.qualityAllowed_eq_accept_iff matched understood).mp allowed
  · exact (Answer.minimumScore_eq_accept_iff matched).mp scored
  · exact (Answer.blocklist_eq_accept_iff store matched).mp unblocked
  · intro file held
    exact ((Answer.disk_eq_accept_iff matched understood).mp disk file held).upgrade
  · intro item queued same active
    have clears := (Answer.queue_readers_eq_accept_iff policy.upgradeRules store matched
      understood).mp queue
    exact (clears item queued same active).upgrade
  · intro feed entry newest grabbed counts
    have clears := (Answer.history_readers_eq_accept_iff policy store feed matched
      understood).mp history
    exact (clears entry newest grabbed counts).upgrade

/-- A locked profile has no upgrades, so there is nothing that it could be admitted over. -/
theorem Admitted.nothing_held {game : Game} {candidate : Standing}
    (h : Admitted policy store c o game candidate) (locked : game.profile.upgradeAllowed = false) :
    game.file = none ∧
      ∀ item ∈ store.queue, item.gameId = game.id → item.state = .failedPending := by
  have none_upgrades (held : Standing) :
      policy.upgradeRules.isUpgrade game.profile held candidate ≠ .ok true := by
    intro upgrade
    have unlocked := (UpgradeRules.isUpgrade_eq_ok_true_iff.mp upgrade).1
    simp [locked] at unlocked
  constructor
  · cases held : game.file with
    | none => rfl
    | some file => exact absurd (h.overFile file held) (none_upgrades _)
  · intro item queued same
    apply Decidable.byContradiction
    intro active
    exact none_upgrades _ (h.overQueue item queued same active)

/-- **An approved offer passed every gate**, and under a locked profile nothing of its game was on
disk or on its way. -/
theorem Offer.admitted_of_approved {d : Decision}
    (decided : o.decide (Check.standard policy store.readers) c = .ok d) (approved : d.isApproved) :
    ∃ game candidate, Admitted policy store c o game candidate ∧
      (game.profile.upgradeAllowed = false → game.file = none ∧
        ∀ item ∈ store.queue, item.gameId = game.id → item.state = .failedPending) := by
  obtain ⟨⟨game, parsed, matched, known⟩, accepts⟩ :=
    decide_approves_iff.mp ⟨d, decided, approved⟩
  have understood : (o.inContext c).standing? = some ⟨parsed.quality, o.formats, parsed.version⟩ :=
    congrArg _ known
  have admitted := admitted_of_accepts (o := o.inContext c) matched understood accepts
  exact ⟨game, _, { admitted with }, fun locked => admitted.nothing_held locked⟩

end

/-- A game with scene on disk. -/
def Game.small : Game := .holding (.of (.unversioned .scene 1 []))

/-- Scene was grabbed for it once more and is being downloaded; another release is blocked. -/
def Store.small : Store where
  history := [⟨Game.small.id, .grabbed, "Small", ⟨.scene, ⟨1, 0, false⟩⟩, [], none, none, ⟨0, 0⟩⟩]
  blocklist := [⟨Game.small.id, "Other", .usenet, none, none, none, ⟨0, 0⟩⟩]
  queue := [⟨Game.small.id, "Small", ⟨.scene, ⟨1, 0, false⟩⟩, [], none, .downloading, none⟩]
  indexers := []

theorem history_small :
    Store.small.readers.history Game.small.id = .ok Store.small.history := by
  have recorded : Store.small.history.filter (·.gameId == Game.small.id) = Store.small.history :=
    rfl
  have sorted : Store.small.historyFor Game.small.id = Store.small.history := by
    rw [Store.historyFor, recorded]
    exact List.mergeSort_singleton _
  exact congrArg _ sorted

/-- Without delay profiles nothing is waited for. -/
theorem Check.delay_default (o : Offer) (c : Context) :
    (Check.delay .default).run o c = .ok .accept := by
  have profile (tags : List Count) : Policy.default.delayProfileFor tags = .default := by
    simp [Policy.delayProfileFor, Policy.default]
  have aged (transport : Transport) :
      (DelayProfile.default.delay transport).val ≤ o.release.ageMinutes c.now := by
    cases transport <;> exact o.release.ageMinutes_nonneg c.now
  have accepts : Answer.delay .default o c = .accept := by
    unfold Answer.delay
    split
    · rfl
    · split
      · simp only [profile, aged, decide_true, Bool.or_true, Answer.require, if_true]
      · rfl
  exact congrArg _ accepts

/-- Retail is approved for the small game. -/
theorem approves_retail :
    ∃ d, (Game.small.offered (.unversioned .retail 1 [])).decide
      (Check.standard .default Store.small.readers) (.rss ⟨0, 0⟩) = .ok d ∧ d.isApproved := by
  have matched : ((Game.small.offered (.unversioned .retail 1 [])).inContext
      (.rss ⟨0, 0⟩)).game = some .small := rfl
  have parsed : ((Game.small.offered (.unversioned .retail 1 [])).inContext
      (.rss ⟨0, 0⟩)).standing? = some (.unversioned .retail 1 []) := rfl
  refine decide_approves_iff.mpr ⟨⟨_, _, rfl, rfl⟩, ?_⟩
  simp only [Check.standard, List.forall_mem_cons]
  -- Where entries are sorted, the checks do not reduce on their own.
  refine ⟨rfl, rfl, rfl, rfl, rfl, rfl, rfl, rfl, rfl, ?_, ?_, rfl, rfl, rfl,
    Check.delay_default _ _, rfl, rfl, List.forall_mem_nil _⟩
  · simp only [Check.alreadyImported, Answer.alreadyImported, matched, history_small]
    rfl
  · simp only [Check.history, Answer.history, matched, parsed, history_small]
    rfl

theorem admitted_retail :
    ∃ d, (Game.small.offered (.unversioned .retail 1 [])).decide
        (Check.standard .default Store.small.readers) (.rss ⟨0, 0⟩) = .ok d ∧ d.isApproved ∧
      ∃ game candidate,
        Admitted .default .small (.rss ⟨0, 0⟩) (Game.small.offered (.unversioned .retail 1 []))
          game candidate ∧
        (game.profile.upgradeAllowed = false → game.file = none ∧
          ∀ item ∈ Store.small.queue, item.gameId = game.id → item.state = .failedPending) := by
  obtain ⟨d, decided, approved⟩ := approves_retail
  exact ⟨d, decided, approved, Offer.admitted_of_approved decided approved⟩

end ReleaseSelection
