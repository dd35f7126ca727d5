import ReleaseSelection.Record

/-!
# The store of the library

What is recorded about releases. A store is a value, so a snapshot of it is the store itself, and
nothing recorded later shows in it. The lemmas say what each operation does to each reading.
-/

namespace ReleaseSelection

structure Store where
  history : List HistoryEntry
  blocklist : List BlockedRelease
  queue : List QueueItem
  indexers : List Indexer
  deriving DecidableEq, Repr

namespace Store

def empty : Store := ⟨[], [], [], []⟩

def recordHistory (s : Store) (entry : HistoryEntry) : Store :=
  { s with history := s.history ++ [entry] }

def block (s : Store) (entry : BlockedRelease) : Store :=
  { s with blocklist := s.blocklist ++ [entry] }

def replaceQueue (s : Store) (queue : List QueueItem) : Store := { s with queue := queue }

/-- An indexer takes the place of an earlier one with its id. -/
def upsertIndexer (s : Store) (indexer : Indexer) : Store :=
  { s with indexers := indexer :: s.indexers.filter (·.id != indexer.id) }

/-- The history of a game, newest first; entries of one date stay in the order of recording. -/
def historyFor (s : Store) (game : GameId) : List HistoryEntry :=
  (s.history.filter (·.gameId == game)).mergeSort fun a b => b.date ≤ a.date

def mostRecentFor (s : Store) (game : GameId) : Option HistoryEntry := (s.historyFor game).head?

def blocklistFor (s : Store) (game : GameId) : List BlockedRelease :=
  s.blocklist.filter (·.gameId == game)

def isBlocked (s : Store) (game : GameId) (release : Release) : Bool :=
  (s.blocklistFor game).any (·.isMatch release)

def queueFor (s : Store) (game : GameId) : List QueueItem := s.queue.filter (·.gameId == game)

def indexer? (s : Store) (id : IndexerId) : Option Indexer := s.indexers.find? (·.id == id)

theorem historyFor_perm (s : Store) (game : GameId) :
    (s.historyFor game).Perm (s.history.filter (·.gameId == game)) :=
  List.mergeSort_perm ..

theorem blocklistFor_block (s : Store) (entry : BlockedRelease) (game : GameId) :
    (s.block entry).blocklistFor game =
      s.blocklistFor game ++ if entry.gameId = game then [entry] else [] := by
  by_cases h : entry.gameId = game <;> simp [block, blocklistFor, h]

theorem queueFor_replaceQueue (s : Store) (queue : List QueueItem) (game : GameId) :
    (s.replaceQueue queue).queueFor game = queue.filter (·.gameId == game) := rfl

theorem indexer?_upsertIndexer (s : Store) (indexer : Indexer) (id : IndexerId) :
    (s.upsertIndexer indexer).indexer? id =
      if indexer.id = id then some indexer else s.indexer? id := by
  by_cases h : indexer.id = id
  · simp [upsertIndexer, indexer?, h]
  · have other : (indexer.id == id) = false := by simp [h]
    have keep : ∀ a : Indexer,
        decide ((a.id != indexer.id) = true ∧ (a.id == id) = true) = (a.id == id) := by
      intro a
      by_cases ha : a.id = id <;> simp [ha, Ne.symm h]
    simp only [upsertIndexer, indexer?, List.find?_cons, other, List.find?_filter, keep, if_neg h]

end Store

/-- A reading that did not succeed. -/
structure ReadError where
  message : String
  deriving DecidableEq, Repr

/-- What the checks read of the store. -/
structure Readers where
  history : GameId → Except ReadError (List HistoryEntry)
  blocklist : GameId → Except ReadError (List BlockedRelease)
  queue : GameId → Except ReadError (List QueueItem)
  indexer : IndexerId → Except ReadError (Option Indexer)

def Store.readers (s : Store) : Readers where
  history game := .ok (s.historyFor game)
  blocklist game := .ok (s.blocklistFor game)
  queue game := .ok (s.queueFor game)
  indexer id := .ok (s.indexer? id)

end ReleaseSelection
