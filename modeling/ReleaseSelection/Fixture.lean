import ReleaseSelection.Data.Json
import ReleaseSelection.Offer
import ReleaseSelection.Store
import ReleaseSelection.Validation

/-!
# Fixtures

A fixture is a library written down: its games, its records, and candidates that wait for a
decision. `read?` takes it from a JSON text and refuses games that are not valid.
-/

namespace ReleaseSelection

structure Candidate where
  gameId : Option GameId
  release : Release
  parsed : Option ParsedTitle
  formats : List Format
  deriving DecidableEq, Repr

structure Fixture where
  games : List Game
  history : List HistoryEntry
  blocklist : List BlockedRelease
  queue : List QueueItem
  indexers : List Indexer
  candidates : List Candidate
  deriving DecidableEq, Repr

instance : DataForm Candidate where
  toData c := .record
    [("game_id", toData c.gameId), ("release", toData c.release), ("parsed", toData c.parsed),
      ("custom_formats", toData c.formats)]
  ofData? d := do
    let m ← Members.of? ["game_id", "release", "parsed", "custom_formats"] d
    return {
      gameId := ← m.optional "game_id"
      release := ← m.required "release"
      parsed := ← m.optional "parsed"
      formats := ← m.defaulted "custom_formats" [] }

instance : DataForm Fixture where
  toData f := .record
    [("games", toData f.games), ("history", toData f.history), ("blocklist", toData f.blocklist),
      ("queue", toData f.queue), ("indexers", toData f.indexers),
      ("candidates", toData f.candidates)]
  ofData? d := do
    let m ← Members.of?
      ["games", "history", "blocklist", "queue", "indexers", "candidates"] d
    return {
      games := ← m.defaulted "games" []
      history := ← m.defaulted "history" []
      blocklist := ← m.defaulted "blocklist" []
      queue := ← m.defaulted "queue" []
      indexers := ← m.defaulted "indexers" []
      candidates := ← m.defaulted "candidates" [] }

def Candidate.offer (c : Candidate) (game : Option Game) : Except Fault Offer :=
  Offer.make c.release c.parsed game c.formats

namespace Fixture

inductive Error where
  | malformed
  | invalidGame (title : String) (violations : List Violation)
  deriving DecidableEq, Repr

def Error.message : Error → String
  | malformed => "failed to parse fixture"
  | invalidGame title violations =>
    "invalid game '" ++ title ++ "': " ++ "; ".intercalate (violations.map Violation.text)

/-- The first game that is not valid. -/
def invalidGame? (f : Fixture) : Option Game := f.games.find? fun game => !game.violations.isEmpty

def check (f : Fixture) : Except Error Fixture :=
  match f.invalidGame? with
  | some game => .error (.invalidGame game.title game.violations)
  | none => .ok f

def ofData (d : Data) : Except Error Fixture :=
  match (ofData? d : Option Fixture) with
  | some f => f.check
  | none => .error .malformed

def read (text : String) : Except Error Fixture :=
  match Json.read? text with
  | some d => ofData d
  | none => .error .malformed

def game? (f : Fixture) (id : GameId) : Option Game := f.games.find? (·.id == id)

/-- The store that holds what the fixture records. -/
def store (f : Fixture) : Store :=
  let s := f.history.foldl Store.recordHistory .empty
  let s := f.blocklist.foldl Store.block s
  f.indexers.foldl Store.upsertIndexer (s.replaceQueue f.queue)

/-- Every candidate, matched to the game that it names if there is one. -/
def offers (f : Fixture) : Except Fault (List Offer) :=
  f.candidates.mapM fun c => c.offer (c.gameId.bind f.game?)

/-- The candidates that name a game, matched to it. -/
def offersFor (f : Fixture) (game : Game) : Except Fault (List Offer) :=
  (f.candidates.filter (·.gameId == some game.id)).mapM fun c => c.offer (some game)

end Fixture

end ReleaseSelection
