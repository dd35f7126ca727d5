import ReleaseSelection.Proofs.Admission
import ReleaseSelection.Proofs.Answers

/-!
# Nothing is grabbed twice

A release does not improve on itself, whatever the rules, the profile and the least gain that it
asks for (`Improves.irrefl`). So what lies on disk or is being downloaded keeps out every release of
the same standing, and no other download in the queue changes that (`Offer.rejected_of_holds`).
-/

namespace ReleaseSelection

/-- One quality model and version, and the same formats in whatever order. -/
structure Standing.Same (held offered : Standing) : Prop where
  quality : held.quality = offered.quality
  formats : held.formats.Perm offered.formats
  version : held.version = offered.version

theorem Standing.same_refl (s : Standing) : s.Same s := ⟨rfl, .refl _, rfl⟩

/-- Where both orders of the formats can be summed, they come to one score. -/
theorem Profile.scoreOf_perm {p : Profile} {formats others : List Format} {score other : Score}
    (perm : formats.Perm others) (hs : p.scoreOf formats = .ok score)
    (os : p.scoreOf others = .ok other) : score = other := by
  apply Bounded.val_inj.mp
  rw [scoreOf_eq_ok hs, scoreOf_eq_ok os]
  apply total_perm
  exact perm.map _

namespace UpgradeRules

variable {rules : UpgradeRules} {p : Profile}

/-- Each way to improve takes more of something. -/
theorem Improves.irrefl (r : Rating) : ¬ rules.Improves p r r := by
  intro h
  cases h with
  | quality rank _ => exact Int.lt_irrefl _ rank
  | revision _ _ higher => exact Int.lt_irrefl _ higher
  | score _ _ gain => exact Int.lt_irrefl _ gain.higher
  | ceiling rank _ _ _ _ => exact Int.lt_irrefl _ rank

theorem isUpgrade_ne_of_same {held offered : Standing} (same : held.Same offered) :
    rules.isUpgrade p held offered ≠ .ok true := by
  intro upgrade
  obtain ⟨_, heldScore, offeredScore, hs, os, gain⟩ := isUpgrade_eq_ok_true_iff.mp upgrade
  have score : heldScore = offeredScore := Profile.scoreOf_perm same.formats hs os
  rw [same.quality, same.version, score] at gain
  rcases gain with improves | newer
  · exact Improves.irrefl _ improves
  · exact Int.lt_irrefl _ newer

end UpgradeRules

/-- What a candidate stands for is being downloaded for a game, or is the game's file. -/
inductive Store.Holds (store : Store) (game : Game) (candidate : Standing) : Prop where
  | queued (item : QueueItem) (mem : item ∈ store.queue) (own : item.gameId = game.id)
      (active : item.state ≠ .failedPending) (same : item.standing.Same candidate)
  | onDisk (file : GameFile) (held : game.file = some file) (same : file.standing.Same candidate)

section
variable {policy : Policy} {store : Store} {o : Offer} {c : Context} {game : Game}
  {candidate : Standing}

/-- Over what is held already nothing of its own standing is admitted. -/
theorem Admitted.not_holds (admitted : Admitted policy store c o game candidate) :
    ¬ store.Holds game candidate := by
  intro holds
  cases holds with
  | queued item mem own active same =>
    exact UpgradeRules.isUpgrade_ne_of_same same (admitted.overQueue item mem own active)
  | onDisk file held same =>
    exact UpgradeRules.isUpgrade_ne_of_same same (admitted.overFile file held)

/-- **No release is grabbed twice.** What a game has on disk or is downloading is not approved for
it again, in whatever context and whatever else is queued. Where the scores can be summed it is
rejected. -/
theorem Offer.rejected_of_holds (policy : Policy) (matched : o.game = some game)
    (understood : o.standing? = some candidate) (holds : store.Holds game candidate)
    (c : Context) :
    ¬ o.Approved policy store.readers c ∧
      (store.Scores o game → ∃ d,
        o.decide (Check.standard policy store.readers) c = .ok d ∧ d.isApproved = false) := by
  have refused : ¬ o.Approved policy store.readers c := by
    intro approved
    obtain ⟨_, accepts⟩ := approved_iff.mp approved
    have admitted := admitted_of_accepts matched understood accepts
    exact admitted.not_holds holds
  refine ⟨refused, fun scores => ?_⟩
  have scored : ∀ other, o.game = some other → store.Scores o other := by
    intro other same
    cases matched.symm.trans same
    exact scores
  obtain ⟨d, decided⟩ := decide_answers policy scored c
  refine ⟨d, decided, Bool.eq_false_iff.mpr fun approved => ?_⟩
  exact refused ⟨d, decided, approved⟩

end

/-- A game whose profile takes any gain in score for enough, even a loss. -/
def Game.eager : Game :=
  { Game.small with profile := { Profile.small with minUpgradeFormatScore := .saturate (-20) } }

/-- A format that weighs nothing. -/
def Format.plain : Format := ⟨.last, "Plain"⟩

/-- Scene and retail are being downloaded for the small game, retail with two formats. -/
def Store.busy : Store :=
  { Store.small with
    queue := Store.small.queue ++
      [⟨Game.small.id, "Small", ⟨.retail, ⟨1, 0, false⟩⟩, [.plain, .bonus], none, .downloading,
        none⟩] }

/-- Retail is kept out by the second download, with its formats the other way round, and scene by
the file. -/
theorem Offer.rejected_of_holds_eager :
    (Store.busy.Holds .eager (.unversioned .retail 1 [.bonus, .plain]) ∧
      Store.busy.Scores (Game.eager.offered (.unversioned .retail 1 [.bonus, .plain])) .eager ∧
      ∃ d, (Game.eager.offered (.unversioned .retail 1 [.bonus, .plain])).decide
        (Check.standard .default Store.busy.readers) (.rss ⟨0, 0⟩) = .ok d ∧
        d.isApproved = false) ∧
      Store.empty.Holds .eager (.unversioned .scene 1 []) ∧
      ¬ (Game.eager.offered (.unversioned .scene 1 [])).Approved .default Store.empty.readers
        (.rss ⟨0, 0⟩) := by
  have queued : Store.busy.Holds .eager (.unversioned .retail 1 [.bonus, .plain]) :=
    .queued _ List.mem_concat_self rfl (by decide) ⟨rfl, .swap _ _ _, rfl⟩
  have onDisk : Store.empty.Holds .eager (.unversioned .scene 1 []) :=
    .onDisk _ rfl (Standing.same_refl _)
  have scores : Store.busy.Scores (Game.eager.offered (.unversioned .retail 1 [.bonus, .plain]))
      .eager := by
    refine ⟨⟨20, rfl⟩, ?_, ?_, ?_⟩
    · rintro _ ⟨⟩
      exact ⟨0, rfl⟩
    · simp only [Store.busy, Store.small, List.cons_append, List.nil_append, List.forall_mem_cons]
      exact ⟨fun _ => ⟨0, rfl⟩, fun _ => ⟨20, rfl⟩, List.forall_mem_nil _⟩
    · simp only [Store.busy, Store.small, List.forall_mem_cons]
      exact ⟨fun _ => ⟨0, rfl⟩, List.forall_mem_nil _⟩
  refine ⟨⟨queued, scores, ?_⟩, onDisk, ?_⟩
  · exact (rejected_of_holds .default rfl rfl queued (.rss ⟨0, 0⟩)).2 scores
  · exact (rejected_of_holds .default rfl rfl onDisk (.rss ⟨0, 0⟩)).1

end ReleaseSelection
