import ReleaseSelection.Fixture
import ReleaseSelection.Service

/-!
# Sessions

Work on one library over time: facts are recorded, snapshots are kept, batches are decided, and
their events wait on a bus. An operation that fails leaves the decisions at hand as they were.
-/

namespace ReleaseSelection

/-- Finds the candidates of a fixture again, as if they had just been discovered. -/
def Fixture.source (f : Fixture) : CandidateSource := fun game =>
  (f.offersFor game).mapError .fault

/-- A fact that is recorded in a store. -/
inductive Change where
  | history (entry : HistoryEntry)
  | block (entry : BlockedRelease)
  | queue (items : List QueueItem)
  | indexer (indexer : Indexer)
  deriving DecidableEq, Repr

def Store.apply (s : Store) : Change → Store
  | .history entry => s.recordHistory entry
  | .block entry => s.block entry
  | .queue items => s.replaceQueue items
  | .indexer indexer => s.upsertIndexer indexer

structure Session where
  policy : Policy
  fixture : Fixture
  store : Store
  snapshots : List Store
  context : Context
  decisions : List Decision
  bus : List Event

namespace Session

def start (policy : Policy) (fixture : Fixture) (context : Context) : Session :=
  ⟨policy, fixture, fixture.store, [], context, [], []⟩

def record (s : Session) (change : Change) : Session := { s with store := s.store.apply change }

/-- Keeps the store as it is now; the snapshot is the last one. -/
def snapshot (s : Session) : Session := { s with snapshots := s.snapshots ++ [s.store] }

/-- A snapshot by its number, or the store as it is now. -/
def storeAt? (s : Session) : Option Nat → Option Store
  | none => some s.store
  | some n => s.snapshots[n]?

/-- Decides the candidates of the fixture. -/
def evaluate (s : Session) (aborted : Bool) (took : Durations) :
    Except Fault (Except BatchError (List Decision) × Session) := do
  let offers ← s.fixture.offers
  match Service.evaluateBatch s.policy s.store offers s.context aborted took with
  | .ok decisions => return (.ok decisions, { s with decisions := decisions })
  | .error error => return (.error error, s)

/-- Searches a source for a game. -/
def search (s : Session) (source : CandidateSource) (game : Game) (aborted : Bool)
    (took : Durations) : Except BatchError (List Decision) × Session :=
  let (result, bus) := Service.searchAndRank s.policy s.store source game s.context aborted took
    s.bus
  match result with
  | .ok decisions => (.ok decisions, { s with decisions := decisions, bus := bus })
  | .error error => (.error error, { s with bus := bus })

def rank (s : Session) : Session :=
  { s with decisions := Decision.prioritize s.policy s.context.now s.decisions }

def publish (s : Session) : Session :=
  { s with bus := s.bus ++ Event.ofDecisions s.decisions }

/-- Takes the events off the bus. -/
def drain (s : Session) : List Event × Session := (s.bus, { s with bus := [] })

end Session

end ReleaseSelection
