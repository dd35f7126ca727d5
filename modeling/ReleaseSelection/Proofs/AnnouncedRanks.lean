import ReleaseSelection.Event
import ReleaseSelection.Proofs.Placement

/-!
# Announced ranks

An approved release is announced with one more than the number of releases that were approved for
its game before it, whatever other decisions stand in between. So the ranks of a game count from one
up, and in a ranking they are the places of its releases, the best first
(`Event.ranked_ofDecisions`).
-/

namespace ReleaseSelection

namespace Decision

variable {ds : List Decision} {d : Decision} {game : Option GameId}

theorem isApproved_of_none (verdict : d.rejection = none) : d.isApproved := by
  rw [isApproved, verdict, Option.isNone_none]

theorem isApproved_of_some {r : Rejection} (verdict : d.rejection = some r) :
    d.isApproved = false := by
  rw [isApproved, verdict, Option.isNone_some]

/-- An approved decision without a game is passed over in silence. -/
def isAnnounced (d : Decision) : Bool := !d.isApproved || d.offer.gameId.isSome

def approvedOf (game : Option GameId) (ds : List Decision) : List Decision :=
  ofGame game (ds.filter (·.isApproved))

theorem approvedOf_nil : approvedOf game [] = [] := rfl

theorem approvedOf_cons : approvedOf game (d :: ds) =
    if d.isApproved && d.offer.gameId == game then d :: approvedOf game ds
    else approvedOf game ds := by
  cases approved : d.isApproved <;> simp [approvedOf, ofGame, approved, List.filter_cons]

theorem approvedOf_append (game : Option GameId) (ds es : List Decision) :
    approvedOf game (ds ++ es) = approvedOf game ds ++ approvedOf game es := by
  rw [approvedOf, List.filter_append, ofGame, List.filter_append]
  rfl

theorem approvedOf_prioritize (policy : Policy) (now : Instant) (game : Option GameId)
    (ds : List Decision) :
    approvedOf game (prioritize policy now ds) = best policy now (approvedOf game ds) := by
  rw [approvedOf, filter_approved_prioritize, ofGame_blocks, approvedOf]

end Decision

namespace Event

open Decision (approvedOf approvedOf_nil approvedOf_cons approvedOf_append)

variable {ds before : List Decision} {d : Decision} {earlier : List (Option GameId)}

def rank? : Event → Option Nat
  | approved _ _ rank _ _ => some rank
  | rejected .. => none

/-- The event of an approved release of the game. -/
def approves (game : GameId) : Event → Bool
  | approved g .. => g == game
  | rejected .. => false

/-! ## The event of a decision in a list -/

/-- The event that makes a decision known, that of an approved release with a place in its game. -/
inductive Announces (d : Decision) : Event → Prop where
  | approved (game : GameId) (rank : Nat) (accepted : d.rejection = none)
      (matched : d.offer.gameId = some game) :
      Announces d (approved game d.offer.release.title rank d.offer.score d.offer.source)
  | rejected (r : Rejection) (refused : d.rejection = some r) :
      Announces d (rejected d.offer.gameId d.offer.release.title r.reason r.message
        (r.severity == .permanent))

/-- The event makes the decision at a position known, and the rank it has, if any, counts the
releases that were approved for the same game up to this one. -/
structure Placed (ds : List Decision) (entry : Decision × Nat) (event : Event) : Prop where
  announces : Announces entry.1 event
  rank : ∀ rank ∈ event.rank?,
    rank = (approvedOf entry.1.offer.gameId (ds.take entry.2)).length + 1

/-- The games of the decisions so far tell how many of them were approved for each game. -/
def Counts (earlier : List (Option GameId)) (before : List Decision) : Prop :=
  ∀ game, earlier.count game = (approvedOf game before).length

theorem Counts.approved (h : Counts earlier before) (approved : d.isApproved) :
    Counts (d.offer.gameId :: earlier) (before ++ [d]) := by
  intro game
  rw [approvedOf_append, List.length_append, ← h game, List.count_cons, approvedOf_cons]
  by_cases own : d.offer.gameId = game <;> simp [approved, own, approvedOf_nil]

theorem Counts.rejected (h : Counts earlier before) (rejected : d.isApproved = false) :
    Counts earlier (before ++ [d]) := by
  intro game
  rw [approvedOf_append, h game, approvedOf_cons]
  simp [rejected, approvedOf_nil]

/-- By the decisions that are still to come; those before them are counted. -/
theorem placed_announce (counts : Counts earlier before) (ds : List Decision) :
    ((ds.zipIdx before.length).filter (·.1.isAnnounced)).Forall₂ (Placed (before ++ ds))
      (announce earlier ds) := by
  induction ds generalizing before earlier with
  | nil => exact .nil
  | cons d ds ih =>
    have here : (before ++ d :: ds).take before.length = before := List.take_left
    have further : before ++ d :: ds = before ++ [d] ++ ds := by simp
    have next : before.length + 1 = (before ++ [d]).length := by simp
    rw [List.zipIdx_cons, announce]
    cases verdict : d.rejection with
    | none =>
      have approved := Decision.isApproved_of_none verdict
      have rest := ih (counts.approved approved)
      rw [← further, ← next] at rest
      cases known : d.offer.gameId with
      | none =>
        have silent : d.isAnnounced = false := by simp [Decision.isAnnounced, approved, known]
        rw [known] at rest
        simpa [silent, ofApproved, known] using rest
      | some game =>
        have announced : d.isAnnounced := by simp [Decision.isAnnounced, known]
        have count := counts (some game)
        rw [known] at rest
        simp only [List.filter_cons, announced, if_true, ofApproved, known, List.singleton_append]
        refine .cons ⟨.approved game _ verdict known, ?_⟩ rest
        rintro rank ⟨⟩
        simp only [here, known, count]
    | some r =>
      have rejected := Decision.isApproved_of_some verdict
      have announced : d.isAnnounced := by simp [Decision.isAnnounced, rejected]
      have rest := ih (counts.rejected rejected)
      rw [← further, ← next] at rest
      simp only [List.filter_cons, announced, if_true, ofRejected]
      exact .cons ⟨.rejected r verdict, nofun⟩ rest

theorem placed_ofDecisions (ds : List Decision) :
    (ds.zipIdx.filter (·.1.isAnnounced)).Forall₂ (Placed ds) (ofDecisions ds) := by
  have none : Counts [] [] := fun _ => rfl
  exact placed_announce none ds

/-! ## The events of a game -/

/-- Of all events those of approved releases of a game are numbered without a gap. -/
theorem filter_approves_announce (game : GameId) (earlier : List (Option GameId))
    (ds : List Decision) :
    (announce earlier ds).filter (·.approves game) =
      ((approvedOf (some game) ds).zipIdx (earlier.count (some game) + 1)).map fun (d, rank) =>
        .approved game d.offer.release.title rank d.offer.score d.offer.source := by
  induction ds generalizing earlier with
  | nil => rfl
  | cons d ds ih =>
    rw [announce]
    cases verdict : d.rejection with
    | none =>
      have approved := Decision.isApproved_of_none verdict
      rw [approvedOf_cons, approved, Bool.true_and, List.filter_append, ih, List.count_cons]
      by_cases own : d.offer.gameId = some game
      · simp [ofApproved, own, approves]
      · have none : (ofApproved d.offer (earlier.count d.offer.gameId + 1)).filter
            (·.approves game) = [] := by
          unfold ofApproved
          cases known : d.offer.gameId with
          | none => rfl
          | some other =>
            rw [known, Option.some.injEq] at own
            simp [approves, own]
        simp [none, own]
    | some r =>
      have rejected := Decision.isApproved_of_some verdict
      rw [approvedOf_cons, rejected, Bool.false_and, List.filter_cons, ih]
      rfl

/-- What the events of a ranking say of the approved releases of a game. -/
structure Ranks (policy : Policy) (now : Instant) (game : GameId) (ds : List Decision)
    (events : List Event) : Prop where
  /-- From one up to the number of approved releases, each rank once. -/
  ranks : (events.filter (·.approves game)).filterMap (·.rank?) =
    List.range' 1 (approvedOf (some game) ds).length
  /-- The ranks belong to the approved releases in an order in which no key is below a later one. -/
  bestFirst : ∃ placed : List Decision, placed.Perm (approvedOf (some game) ds) ∧
    (placed.Pairwise fun a b => a.offer.compareRank policy now b.offer ≠ .lt) ∧
    events.filter (·.approves game) = (placed.zipIdx 1).map fun (d, rank) =>
      .approved game d.offer.release.title rank d.offer.score d.offer.source

/-- **The ranks in events are places.** Decisions that are announced have one event each, in their
order, and an approved one has as its rank one more than the number of releases approved for its
game before it. After a ranking the approved releases of each game have the ranks from one up, each
once, and none has a smaller rank than one with a greater key. -/
theorem ranked_ofDecisions (ds : List Decision) :
    (ds.zipIdx.filter (·.1.isAnnounced)).Forall₂ (Placed ds) (ofDecisions ds) ∧
      ∀ (policy : Policy) (now : Instant) (game : GameId),
        Ranks policy now game ds (ofDecisions (Decision.prioritize policy now ds)) := by
  refine ⟨placed_ofDecisions ds, fun policy now game => ?_⟩
  have told := filter_approves_announce game [] (Decision.prioritize policy now ds)
  rw [Decision.approvedOf_prioritize, List.count_nil, Nat.zero_add] at told
  have perm : (Decision.best policy now (approvedOf (some game) ds)).Perm
      (approvedOf (some game) ds) := List.mergeSort_perm _ _
  refine ⟨?_, _, perm, ?_, told⟩
  · rw [ofDecisions, told, List.filterMap_map, ← perm.length_eq, ← List.zipIdx_map_snd,
      ← List.filterMap_eq_map]
    rfl
  · refine (Decision.best_pairwise policy now _).imp fun {a b} before => ?_
    exact Ordering.isGE_iff_ne_lt.mp (Decision.ranksBefore_iff.mp before)

end Event

end ReleaseSelection
