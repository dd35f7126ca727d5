import ReleaseSelection.Proofs.Admission
import ReleaseSelection.Proofs.Standard
import ReleaseSelection.Proofs.Walks

/-!
# What is held for other games

A store is read through the game of an offer and through its indexer. Stores that agree on these two
give every standard check the same answer, and so the decision is the same
(`Offer.decide_eq_of_agreeOn`).
-/

namespace ReleaseSelection

/-- The same is read for a game and for an indexer, if there is one. -/
structure Readers.AgreeOn (game : GameId) (indexer : Option IndexerId)
    (readers others : Readers) : Prop where
  history : readers.history game = others.history game
  blocklist : readers.blocklist game = others.blocklist game
  queue : readers.queue game = others.queue game
  indexer : ∀ id, indexer = some id → readers.indexer id = others.indexer id

/-- The entries for a game are the same and in the same order, and an indexer is known to both
stores by one definition or to neither. -/
structure Store.AgreeOn (game : GameId) (indexer : Option IndexerId) (store other : Store) :
    Prop where
  history : store.history.filter (·.gameId == game) = other.history.filter (·.gameId == game)
  blocklist : store.blocklist.filter (·.gameId == game) = other.blocklist.filter (·.gameId == game)
  queue : store.queue.filter (·.gameId == game) = other.queue.filter (·.gameId == game)
  indexer : ∀ id, indexer = some id → store.indexer? id = other.indexer? id

theorem Store.AgreeOn.readers {game : GameId} {indexer : Option IndexerId} {store other : Store}
    (agree : AgreeOn game indexer store other) :
    Readers.AgreeOn game indexer store.readers other.readers where
  history := by simp only [Store.readers, historyFor, agree.history]
  blocklist := by simp only [Store.readers, blocklistFor, agree.blocklist]
  queue := by simp only [Store.readers, queueFor, agree.queue]
  indexer id known := by simp only [Store.readers, agree.indexer id known]

section
variable {policy : Policy} {readers others : Readers} {o : Offer} {game : Game}

theorem Readers.AgreeOn.indexerOf {id : GameId}
    (agree : AgreeOn id o.release.indexerId readers others) :
    readers.indexerOf o = others.indexerOf o := by
  unfold Readers.indexerOf
  cases known : o.release.indexerId with
  | none => rfl
  | some id => simp only [agree.indexer id known]

theorem Check.alike_standard (matched : o.game = some game)
    (agree : Readers.AgreeOn game.id o.release.indexerId readers others) (c : Context) :
    (inOrder (standard policy readers)).Forall₂ (Alike o c) (inOrder (standard policy others)) := by
  apply forall₂_standard Alike.refl
  · refine ⟨rfl, rfl, rfl, ?_⟩
    simp only [Check.blocklist, Answer.blocklist, matched, agree.blocklist]
  · refine ⟨rfl, rfl, rfl, ?_⟩
    simp only [Check.indexerTag, Answer.indexerTag, matched, agree.indexerOf]
  · refine ⟨rfl, rfl, rfl, ?_⟩
    simp only [Check.alreadyImported, Answer.alreadyImported, matched, agree.history]
  · refine ⟨rfl, rfl, rfl, ?_⟩
    simp only [Check.history, Answer.history, matched]
    cases o.standing? with
    | none => rfl
    | some candidate => simp only [agree.history]
  · refine ⟨rfl, rfl, rfl, ?_⟩
    simp only [Check.requiredFlags, Answer.requiredFlags, agree.indexerOf]
  · refine ⟨rfl, rfl, rfl, ?_⟩
    simp only [Check.queue, Answer.queue, matched]
    cases o.standing? with
    | none => rfl
    | some candidate => simp only [agree.queue]

theorem Offer.decide_eq_of_readers (matched : o.game = some game)
    (agree : Readers.AgreeOn game.id o.release.indexerId readers others) (c : Context) :
    o.decide (Check.standard policy readers) c = o.decide (Check.standard policy others) c := by
  have alike : (Check.inOrder (Check.standard policy readers)).Forall₂
      (Check.Alike (o.inContext c) c) (Check.inOrder (Check.standard policy others)) :=
    Check.alike_standard (o := o.inContext c) matched agree c
  simp only [Offer.decide, Offer.judge, consult_eq_of_alike alike]
  split <;> rfl

end

/-- **Games do not interfere with each other.** The decision on an offer for a game is the same on
every store that agrees on this game and on the indexer of the release, whatever else it holds. -/
theorem Offer.decide_eq_of_agreeOn (policy : Policy) {store other : Store} {o : Offer} {game : Game}
    (matched : o.game = some game)
    (agree : Store.AgreeOn game.id o.release.indexerId store other) (c : Context) :
    o.decide (Check.standard policy store.readers) c =
      o.decide (Check.standard policy other.readers) c :=
  decide_eq_of_readers matched agree.readers c

/-- The small store among records of another game. There a release of the same name is blocked, and
what was grabbed for it and what is queued would keep retail from the small game. -/
def Store.shared : Store where
  history := ⟨.last, .grabbed, "Other", ⟨.portable, ⟨1, 0, false⟩⟩, [], none, none, ⟨0, 0⟩⟩ ::
    Store.small.history
  blocklist := ⟨.last, "Small", .usenet, none, none, none, ⟨0, 0⟩⟩ :: Store.small.blocklist
  queue := Store.small.queue ++
    [⟨.last, "Other", ⟨.portable, ⟨1, 0, false⟩⟩, [], none, .downloading, none⟩]
  indexers := [⟨.last, "Other", [.freeleech], [], 25⟩]

theorem Offer.decide_eq_of_agreeOn_shared :
    (Game.small.offered (.unversioned .retail 1 [])).game = some .small ∧
      Store.AgreeOn Game.small.id none .small .shared ∧
      (Game.small.offered (.unversioned .retail 1 [])).decide
          (Check.standard .default Store.small.readers) (.rss ⟨0, 0⟩) =
        (Game.small.offered (.unversioned .retail 1 [])).decide
          (Check.standard .default Store.shared.readers) (.rss ⟨0, 0⟩) := by
  have agree : Store.AgreeOn Game.small.id none .small .shared := ⟨rfl, rfl, rfl, nofun⟩
  exact ⟨rfl, agree, decide_eq_of_agreeOn .default rfl agree (.rss ⟨0, 0⟩)⟩

end ReleaseSelection
