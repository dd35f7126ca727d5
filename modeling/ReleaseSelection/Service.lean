import ReleaseSelection.Check.Standard
import ReleaseSelection.Event
import ReleaseSelection.Pool
import ReleaseSelection.Ranking

/-!
# The decision service

Batches of offers are decided on one snapshot of the store. A fault in one offer does not reach
the others, nor does one that takes too long, and a search announces all of its decisions or none.
-/

namespace ReleaseSelection

/-- What a batch may come to instead of decisions. -/
inductive BatchError where
  | aborted
  | source (message : String)
  | fault (fault : Fault)
  deriving DecidableEq, Repr

def BatchError.message : BatchError → String
  | aborted => "batch evaluation aborted"
  | source message => "candidate source failed: " ++ message
  | fault f => f.message

abbrev CandidateSource := Game → Except BatchError (List Offer)

/-- How many milliseconds the evaluation in each position of a batch takes, from its start on. -/
abbrev Durations := Nat → Nat

namespace Service

/-- The most evaluations that a policy may ask for at once. -/
def maxConcurrency : Int := 2305843009213693951

/-- The places of the pool, one at the least. -/
def places (policy : Policy) : Nat := (max 1 policy.maxConcurrentEvaluations.val).toNat

/-- Whether the evaluation in a position takes longer than the policy waits for one. -/
def isLate (policy : Policy) (took : Durations) (i : Nat) : Bool :=
  policy.evaluationTimeout.val < took i

/-- What the standard checks on a snapshot of the store come to. -/
def evaluate (policy : Policy) (store : Store) (c : Context) (o : Offer) :
    Except Fault Decision :=
  o.decide (Check.standard policy store.readers) c

/-- One decision for each offer, in their order. An abort comes before a fault of the policy. -/
def evaluateBatch (policy : Policy) (store : Store) (offers : List Offer) (c : Context)
    (aborted : Bool) (took : Durations) : Except BatchError (List Decision) :=
  if aborted then .error .aborted
  else if maxConcurrency < policy.maxConcurrentEvaluations.val then .error (.fault .concurrency)
  else
    .ok (Pool.decideAll (places policy) (evaluate policy store c) (isLate policy took) offers)

/-- Decides and ranks what a source has for a game, and adds the events to those on the bus. -/
def searchAndRank (policy : Policy) (store : Store) (source : CandidateSource) (game : Game)
    (c : Context) (aborted : Bool) (took : Durations) (bus : List Event) :
    Except BatchError (List Decision) × List Event :=
  match source game with
  | .error error => (.error error, bus)
  | .ok offers =>
    match evaluateBatch policy store offers c aborted took with
    | .error error => (.error error, bus)
    | .ok decisions =>
      let ranked := Decision.prioritize policy c.now decisions
      (.ok ranked, bus ++ Event.ofDecisions ranked)

end Service

end ReleaseSelection
