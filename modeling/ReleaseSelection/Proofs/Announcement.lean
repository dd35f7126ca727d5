import ReleaseSelection.Proofs.AnnouncedRanks
import ReleaseSelection.Proofs.Pipeline
import ReleaseSelection.Proofs.Search

/-!
# What a search announces

A search that comes to nothing leaves the bus as it is, and one that comes to a ranking has
announced all of it (`Service.searched_searchAndRank`). Without a game an approved release would
have no event, but no check approves such a release, and neither does the report on a fault or on
an evaluation that took too long.
-/

namespace ReleaseSelection

/-! ## Events -/

namespace Event

theorem Announces.name_eq {d : Decision} {event : Event} (announces : Announces d event) :
    event.name = if d.isApproved then "release.approved" else "release.rejected" := by
  cases announces with
  | approved game rank accepted matched =>
    rw [Decision.isApproved_of_none accepted]
    rfl
  | rejected r refused =>
    rw [Decision.isApproved_of_some refused]
    rfl

theorem names_of_announces {ds : List Decision} {events : List Event}
    (announced : ds.Forall₂ Announces events) :
    events.map name =
      ds.map fun d => if d.isApproved then "release.approved" else "release.rejected" := by
  induction announced with
  | nil => rfl
  | cons announces _ ih => rw [List.map_cons, List.map_cons, announces.name_eq, ih]

/-- Where each approved release has a game there is one event for each decision. -/
theorem announces_of_matched {ds : List Decision}
    (matched : ∀ d ∈ ds, d.isApproved → ∃ game, d.offer.gameId = some game) :
    ds.Forall₂ Announces (ofDecisions ds) := by
  have all : ds.zipIdx.filter (·.1.isAnnounced) = ds.zipIdx := by
    apply List.filter_eq_self.mpr
    intro entry mem
    rw [Decision.isAnnounced, Bool.or_eq_true, Option.isSome_iff_exists]
    by_cases approved : entry.1.isApproved
    · exact .inr (matched entry.1 (List.fst_mem_of_mem_zipIdx mem) approved)
    · exact .inl (by simpa using approved)
  have placed := placed_ofDecisions ds
  rw [all] at placed
  have announced := placed.imp fun _ _ own => own.announces
  rw [← List.forall₂_map_left_iff (f := Prod.fst), List.zipIdx_map_fst] at announced
  exact announced

end Event

/-! ## Searches -/

namespace Service

variable {policy : Policy} {store : Store} {c : Context} {took : Durations}
  {task : Offer × Nat} {d : Decision}

theorem Settled.matched (settled : Settled policy store c took task d) (approved : d.isApproved) :
    ∃ game, d.offer.gameId = some game := by
  cases settled with
  | decided o i d inTime run =>
    obtain ⟨⟨game, _, known, _⟩, _⟩ := decide_approves_iff.mp ⟨d, run, approved⟩
    refine ⟨game.id, ?_⟩
    rw [Offer.decide_offer run, Offer.gameId, Offer.inContext, known, Option.map_some]
  | faulted o i fault inTime run => cases approved
  | outOfTime o i tooLong => cases approved

/-- What a search for a game comes to, and what it announces. The source is asked before an abort is
looked at, an abort before the policy, and nothing is announced before all of the offers are settled
and ranked. -/
inductive Searched (policy : Policy) (store : Store) (source : CandidateSource) (game : Game)
    (c : Context) (took : Durations) :
    Bool → Except BatchError (List Decision) → List Event → Prop where
  | unreachable (aborted : Bool) (error : BatchError) (failed : source game = .error error) :
      Searched policy store source game c took aborted (.error error) []
  | aborted (offers : List Offer) (found : source game = .ok offers) :
      Searched policy store source game c took true (.error .aborted) []
  | overbooked (offers : List Offer) (found : source game = .ok offers)
      (beyond : maxConcurrency < policy.maxConcurrentEvaluations.val) :
      Searched policy store source game c took false (.error (.fault .concurrency)) []
  | ranked (offers : List Offer) (ds : List Decision) (events : List Event)
      (found : source game = .ok offers)
      (bounded : policy.maxConcurrentEvaluations.val ≤ maxConcurrency)
      (settled : offers.zipIdx.Forall₂ (Settled policy store c took) ds)
      (announced : (Decision.prioritize policy c.now ds).Forall₂ Event.Announces events)
      (names : events.map Event.name = (Decision.prioritize policy c.now ds).map fun d =>
        if d.isApproved then "release.approved" else "release.rejected") :
      Searched policy store source game c took false (.ok (Decision.prioritize policy c.now ds))
        events

theorem Settled.of_mem {tasks : List (Offer × Nat)} {ds : List Decision}
    (settled : tasks.Forall₂ (Settled policy store c took) ds) (mem : d ∈ ds) :
    ∃ task, Settled policy store c took task d := by
  induction settled with
  | nil => cases mem
  | cons own _ ih =>
    rcases List.mem_cons.mp mem with rfl | later
    · exact ⟨_, own⟩
    · exact ih later

theorem announces_ofDecisions {tasks : List (Offer × Nat)} {ds : List Decision}
    (settled : tasks.Forall₂ (Settled policy store c took) ds) :
    (Decision.prioritize policy c.now ds).Forall₂ Event.Announces
      (Event.ofDecisions (Decision.prioritize policy c.now ds)) := by
  apply Event.announces_of_matched
  intro d ranked approved
  have decided := (Decision.prioritized_prioritize policy c.now ds).perm.mem_iff.mp ranked
  obtain ⟨task, own⟩ := Settled.of_mem settled decided
  exact own.matched approved

/-- **A search announces all of its ranking or nothing**, however long the evaluations take. Where
it ends in an error or a fault the bus is as it was. Otherwise there is one event for each decision
in the ranking, in the same order, and it says what was decided. -/
theorem searched_searchAndRank (policy : Policy) (store : Store) (source : CandidateSource)
    (game : Game) (c : Context) (aborted : Bool) (took : Durations) (bus : List Event) :
    ∃ result events,
      searchAndRank policy store source game c aborted took bus = (result, bus ++ events) ∧
      Searched policy store source game c took aborted result events := by
  cases found : source game with
  | error error =>
    refine ⟨.error error, [], ?_, .unreachable aborted error found⟩
    simp only [searchAndRank, found, List.append_nil]
  | ok offers =>
    cases aborted with
    | true =>
      refine ⟨.error .aborted, [], ?_, .aborted offers found⟩
      simp [searchAndRank, found, evaluateBatch]
    | false =>
      by_cases beyond : maxConcurrency < policy.maxConcurrentEvaluations.val
      · refine ⟨.error (.fault .concurrency), [], ?_, .overbooked offers found beyond⟩
        simp [searchAndRank, found, evaluateBatch, beyond]
      · have bounded := Int.not_lt.mp beyond
        obtain ⟨ds, decided, settled⟩ := settled_evaluateBatch policy store offers c took bounded
        have announced := announces_ofDecisions settled
        refine ⟨_, _, ?_, .ranked offers ds _ found bounded settled announced
          (Event.names_of_announces announced)⟩
        simp only [searchAndRank, found, decided]

/-- A policy that is accepted and asks for more evaluations at once than there may be. -/
def overbooked : Policy :=
  { Policy.default with maxConcurrentEvaluations := 2305843009213693952 }

/-- Under such a policy a search comes to neither a ranking nor an error of its own. -/
theorem search_faults :
    ¬ ∀ (policy : Policy) (store : Store) (source : CandidateSource) (game : Game) (c : Context)
        (aborted : Bool) (took : Durations) (bus : List Event), policy.validate = .ok () →
      (∀ error, source game = .error error → ∃ message, error = .source message) →
        (∃ error, (error = .aborted ∨ ∃ message, error = .source message) ∧
          searchAndRank policy store source game c aborted took bus = (.error error, bus)) ∨
        ∃ ranked events, ranked.Forall₂ Event.Announces events ∧
          searchAndRank policy store source game c aborted took bus =
            (.ok ranked, bus ++ events) := by
  intro answers
  have accepted : overbooked.validate = .ok () := by decide
  have beyond : searchAndRank overbooked .empty (fun _ => .ok []) .small (.rss ⟨0, 0⟩) false
      (fun _ => 0) [] = (.error (.fault .concurrency), []) := rfl
  rcases answers overbooked .empty (fun _ => .ok []) .small (.rss ⟨0, 0⟩) false (fun _ => 0) []
    accepted nofun with ⟨error, own, failed⟩ | ⟨ranked, events, _, answered⟩
  · rw [beyond] at failed
    cases failed
    rcases own with own | ⟨message, own⟩ <;> cases own
  · cases beyond.symm.trans answered

end Service

end ReleaseSelection
