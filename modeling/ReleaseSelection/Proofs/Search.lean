import ReleaseSelection.Proofs.Admission
import ReleaseSelection.Proofs.Batch
import ReleaseSelection.Proofs.Placement
import ReleaseSelection.Session

/-!
# Searches

The candidates of a fixture may be decided in one batch or searched game by game. Both ways make the
same offers for a game (`Fixture.offersFor_eq`), and neither a decision nor the ranking of a game
depends on the offers for others. So a search shows what the whole batch shows of its game, unless
an evaluation takes too long in one of them.
-/

namespace ReleaseSelection

/-- To leave out some outcomes is to leave out what they come from, where it can be told from each
source whether its outcome stays. -/
theorem mapM_filter {α β : Type} {f g : α → Except Fault β} {p : α → Bool} {q : β → Bool}
    {xs : List α} {ys : List β} (made : xs.mapM f = .ok ys)
    (told : ∀ x ∈ xs, ∀ y, f x = .ok y → q y = p x) (same : ∀ x ∈ xs, p x → g x = f x) :
    (xs.filter p).mapM g = .ok (ys.filter q) := by
  induction xs generalizing ys with
  | nil =>
    cases Fault.pure_eq_ok_iff.mp made
    rfl
  | cons x xs ih =>
    rw [List.mapM_cons] at made
    obtain ⟨y, first, made⟩ := Fault.bind_eq_ok_iff.mp made
    obtain ⟨ys, others, made⟩ := Fault.bind_eq_ok_iff.mp made
    cases Fault.pure_eq_ok_iff.mp made
    have rest := ih others (fun x mem => told x (List.mem_cons_of_mem _ mem))
      fun x mem => same x (List.mem_cons_of_mem _ mem)
    have stays := told x List.mem_cons_self y first
    rw [List.filter_cons, List.filter_cons, stays]
    cases kept : p x with
    | false => exact rest
    | true =>
      have again := (same x List.mem_cons_self kept).trans first
      simp only [if_true, List.mapM_cons, again, rest]
      rfl

/-! ## Offers for a game -/

theorem Candidate.offer_gameId {candidate : Candidate} {game : Option Game} {o : Offer}
    (made : candidate.offer game = .ok o) : o.gameId = game.map (·.id) := by
  unfold Candidate.offer Offer.make at made
  cases game with
  | none =>
    obtain ⟨score, _, made⟩ := Fault.bind_eq_ok_iff.mp made
    cases Fault.pure_eq_ok_iff.mp made
    rfl
  | some game =>
    obtain ⟨score, _, made⟩ := Fault.bind_eq_ok_iff.mp made
    cases Fault.pure_eq_ok_iff.mp made
    rfl

namespace Fixture

variable {f : Fixture} {game : Game}

theorem game?_id {id : GameId} (found : f.game? id = some game) : game.id = id := by
  rw [game?] at found
  simpa using List.find?_some found

/-- A candidate is matched to the game that is found under its name. -/
theorem matched_iff (found : f.game? game.id = some game) (name : Option GameId) :
    (name.bind f.game?).map (·.id) = some game.id ↔ name = some game.id := by
  constructor
  · intro matched
    obtain ⟨other, known, same⟩ := Option.map_eq_some_iff.mp matched
    obtain ⟨id, rfl, known⟩ := Option.bind_eq_some_iff.mp known
    rw [← game?_id known, same]
  · rintro rfl
    rw [Option.bind_some, found, Option.map_some]

theorem offersFor_eq {offers : List Offer} (found : f.game? game.id = some game)
    (made : f.offers = .ok offers) :
    f.offersFor game = .ok (offers.filter (·.gameId == some game.id)) := by
  refine mapM_filter made ?_ ?_
  · intro candidate _ o offered
    rw [Candidate.offer_gameId offered, Bool.eq_iff_iff, beq_iff_eq, beq_iff_eq]
    exact matched_iff found candidate.gameId
  · intro candidate _ named
    rw [beq_iff_eq.mp named, Option.bind_some, found]

end Fixture

/-! ## Decisions on a game -/

namespace Service

variable {policy : Policy} {took : Durations}

/-- No evaluation takes longer than the policy waits. -/
def InTime (policy : Policy) (took : Durations) : Prop :=
  ∀ i, took i ≤ policy.evaluationTimeout.val

/-- In time the position of an offer does not matter. -/
theorem evaluateBatch_of_inTime (inTime : InTime policy took) (store : Store) (offers : List Offer)
    (c : Context) (aborted : Bool) :
    evaluateBatch policy store offers c aborted took =
      if aborted then .error .aborted
      else if maxConcurrency < policy.maxConcurrentEvaluations.val then .error (.fault .concurrency)
      else .ok (offers.map (Pool.settle (evaluate policy store c))) := by
  have alone : offers.zipIdx.map (Pool.conclude (evaluate policy store c) (isLate policy took)) =
      offers.map (Pool.settle (evaluate policy store c)) := by
    calc offers.zipIdx.map (Pool.conclude (evaluate policy store c) (isLate policy took))
      _ = offers.zipIdx.map (fun task => Pool.settle (evaluate policy store c) task.1) :=
          List.map_congr_left fun task _ =>
            Pool.conclude_of_inTime (isLate_eq_false_iff.mpr (inTime task.2))
      _ = (offers.zipIdx.map Prod.fst).map (Pool.settle (evaluate policy store c)) := by
          rw [List.map_map]
          rfl
      _ = offers.map (Pool.settle (evaluate policy store c)) := by rw [List.zipIdx_map_fst]
  rw [evaluateBatch_eq, alone]

theorem settle_gameId (policy : Policy) (store : Store) (c : Context) (o : Offer) :
    (Pool.settle (evaluate policy store c) o).offer.gameId = o.gameId := by
  unfold Pool.settle
  cases decided : evaluate policy store c o with
  | ok d =>
    change d.offer.gameId = o.gameId
    rw [Offer.decide_offer decided]
    rfl
  | error fault => rfl

/-- The batch of the offers for a game has the decisions of the whole batch that are about it. -/
theorem evaluateBatch_ofGame {tookAlone : Durations} (inTime : InTime policy took)
    (inTimeAlone : InTime policy tookAlone) (store : Store) (offers : List Offer)
    (game : Option GameId) (c : Context) (aborted : Bool) :
    evaluateBatch policy store (offers.filter (·.gameId == game)) c aborted tookAlone =
      (evaluateBatch policy store offers c aborted took).map (Decision.ofGame game) := by
  have restrict : (offers.filter (·.gameId == game)).map (Pool.settle (evaluate policy store c)) =
      Decision.ofGame game (offers.map (Pool.settle (evaluate policy store c))) := by
    rw [Decision.ofGame, List.filter_map]
    congr
    funext o
    exact (congrArg (· == game) (settle_gameId policy store c o)).symm
  rw [evaluateBatch_of_inTime inTime, evaluateBatch_of_inTime inTimeAlone, restrict]
  split
  · rfl
  · split <;> rfl

theorem searchAndRank_fst {store : Store} {source : CandidateSource} {game : Game}
    {offers : List Offer} (found : source game = .ok offers) (c : Context) (aborted : Bool)
    (took : Durations) (bus : List Event) :
    (searchAndRank policy store source game c aborted took bus).1 =
      (evaluateBatch policy store offers c aborted took).map
        (Decision.prioritize policy c.now) := by
  simp only [searchAndRank, found]
  cases evaluateBatch policy store offers c aborted took <;> rfl

/-- **A search shows what the ranked batch of all candidates shows of its game**, whatever store
they are decided on, as long as no evaluation takes too long in the search or in the batch. There
are decisions where nothing is aborted and the policy stays within the places there may be. -/
theorem searchAndRank_eq_ofGame (policy : Policy) (store : Store) (f : Fixture) (game : Game)
    (c : Context) (aborted : Bool) (bus : List Event) {offers : List Offer}
    {took tookAlone : Durations} (found : f.game? game.id = some game)
    (made : f.offers = .ok offers) (inTime : InTime policy took)
    (inTimeAlone : InTime policy tookAlone) :
    (searchAndRank policy store f.source game c aborted tookAlone bus).1 =
        (evaluateBatch policy store offers c aborted took).map (fun ds =>
          Decision.ofGame (some game.id) (Decision.prioritize policy c.now ds)) ∧
      (aborted = false → policy.maxConcurrentEvaluations.val ≤ maxConcurrency →
        ∃ ds, evaluateBatch policy store offers c aborted took = .ok ds) := by
  have source : f.source game = .ok (offers.filter (·.gameId == some game.id)) := by
    rw [Fixture.source, Fixture.offersFor_eq found made]
    rfl
  constructor
  · rw [searchAndRank_fst source, evaluateBatch_ofGame inTime inTimeAlone]
    cases evaluateBatch policy store offers c aborted took with
    | error error => rfl
    | ok ds => exact congrArg Except.ok (Decision.ofGame_prioritize policy c.now _ ds).symm
  · rintro rfl bounded
    exact ⟨_, evaluateBatch_eq_ok bounded store offers c took⟩

end Service

def Standing.candidate (s : Standing) (game : Option GameId) : Candidate where
  gameId := game
  release := .ofTitle "Small" .usenet ⟨0, 0⟩
  parsed := some { ParsedTitle.ofQuality "Small" s.quality with version := s.version }
  formats := s.formats

/-- The small game and another, with candidates for both in turn and for neither. -/
def Fixture.small : Fixture where
  games := [.small, .ofTitle .last "Other" .small]
  history := Store.small.history
  blocklist := Store.small.blocklist
  queue := Store.small.queue
  indexers := []
  candidates :=
    [(Standing.unversioned .retail 1 []).candidate (some Game.small.id),
      (Standing.unversioned .retail 1 []).candidate (some .last),
      (Standing.unversioned .portable 1 []).candidate none,
      (Standing.unversioned .scene 1 []).candidate (some Game.small.id),
      (Standing.unversioned .retail 1 [.bonus]).candidate (some Game.small.id)]

/-- The search takes a second for each candidate and the batch two, of the five that there are. -/
theorem Service.searchAndRank_eq_ofGame_small :
    Fixture.small.game? Game.small.id = some .small ∧
      InTime .default (fun _ => 2000) ∧ InTime .default (fun _ => 1000) ∧
      ∃ offers, Fixture.small.offers = .ok offers ∧ ∃ ds,
        evaluateBatch .default Fixture.small.store offers (.rss ⟨0, 0⟩) false (fun _ => 2000) =
          .ok ds ∧
        (searchAndRank .default Fixture.small.store Fixture.small.source .small (.rss ⟨0, 0⟩)
          false (fun _ => 1000) []).1 =
          .ok (Decision.ofGame (some Game.small.id) (Decision.prioritize .default ⟨0, 0⟩ ds)) := by
  have found : Fixture.small.game? Game.small.id = some .small := rfl
  have bounded : Policy.default.maxConcurrentEvaluations.val ≤ maxConcurrency := by decide
  have two : (2000 : Int) ≤ Policy.default.evaluationTimeout.val := by decide
  have one : (1000 : Int) ≤ Policy.default.evaluationTimeout.val := by decide
  have inTime : InTime .default fun _ => 2000 := fun _ => two
  have inTimeAlone : InTime .default fun _ => 1000 := fun _ => one
  obtain ⟨offers, made⟩ : ∃ offers, Fixture.small.offers = .ok offers := ⟨_, rfl⟩
  obtain ⟨same, decided⟩ := searchAndRank_eq_ofGame .default Fixture.small.store .small .small
    (.rss ⟨0, 0⟩) false [] found made inTime inTimeAlone
  obtain ⟨ds, decided⟩ := decided rfl bounded
  rw [decided] at same
  exact ⟨found, inTime, inTimeAlone, offers, made, ds, decided, same⟩

end ReleaseSelection
