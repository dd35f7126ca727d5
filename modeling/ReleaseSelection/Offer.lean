import ReleaseSelection.Game
import ReleaseSelection.Release

/-!
# Offers

An offer is a release that may be grabbed, matched to a game of the library where that succeeded,
with its score under the profile of that game.
-/

namespace ReleaseSelection

/-- The way by which a release came to be looked at. -/
inductive Source where
  | unknown | rss | search | userInvokedSearch | interactiveSearch | releasePush
  deriving DecidableEq, Repr

namespace Source

def all : List Source := [unknown, rss, search, userInvokedSearch, interactiveSearch, releasePush]

def name : Source → String
  | unknown => "unknown"
  | rss => "rss"
  | search => "search"
  | userInvokedSearch => "user_invoked_search"
  | interactiveSearch => "interactive_search"
  | releasePush => "release_push"

end Source

instance : Named Source := ⟨Source.all, Source.name⟩

structure Offer where
  release : Release
  parsed : Option ParsedTitle
  game : Option Game
  formats : List Format
  score : Score
  source : Source
  deriving DecidableEq, Repr

namespace Offer

/-- Without a game there is no profile, and the score is zero. -/
def make (release : Release) (parsed : Option ParsedTitle) (game : Option Game)
    (formats : List Format) : Except Fault Offer := do
  let score ← match game with
    | some game => game.profile.scoreOf formats
    | none => .ok 0
  return ⟨release, parsed, game, formats, score, .unknown⟩

def quality (o : Offer) : Option QualityModel := o.parsed.map (·.quality)

def version (o : Offer) : Option GameVersion := o.parsed.bind (·.version)

def gameId (o : Offer) : Option GameId := o.game.map (·.id)

end Offer

end ReleaseSelection
