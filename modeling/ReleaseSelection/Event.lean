import ReleaseSelection.Decision

/-!
# Events

Each decision is announced by an event. An approved release is announced with its place among the
approved releases of its game.
-/

namespace ReleaseSelection

inductive Event where
  | approved (game : GameId) (title : String) (rank : Nat) (score : Score) (source : Source)
  | rejected (game : Option GameId) (title : String) (reason : Reason) (message : String)
      (permanent : Bool)
  deriving DecidableEq, Repr

namespace Event

def name : Event → String
  | approved .. => "release.approved"
  | rejected .. => "release.rejected"

/-- Without a game an approved release has a place but no event. -/
def ofApproved (o : Offer) (rank : Nat) : List Event :=
  match o.gameId with
  | some game => [approved game o.release.title rank o.score o.source]
  | none => []

def ofRejected (o : Offer) (r : Rejection) : Event :=
  rejected o.gameId o.release.title r.reason r.message (r.severity == .permanent)

/-- The events of decisions, given the games of the approved ones before them. -/
def announce (earlier : List (Option GameId)) : List Decision → List Event
  | [] => []
  | d :: ds =>
    match d.rejection with
    | none =>
      ofApproved d.offer (earlier.count d.offer.gameId + 1) ++
        announce (d.offer.gameId :: earlier) ds
    | some rejection => ofRejected d.offer rejection :: announce earlier ds

def ofDecisions (ds : List Decision) : List Event := announce [] ds

end Event

end ReleaseSelection
