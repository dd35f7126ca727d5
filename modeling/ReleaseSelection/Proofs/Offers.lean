import Mathlib.Data.List.Forall2
import ReleaseSelection.Proofs.Answers
import ReleaseSelection.Proofs.Search

/-!
# Scoring the candidates of a fixture

A sum of scores is taken one format after another, and each sum on the way has to be a score. That
the last one is a score does not suffice (`Profile.sums_iff`). Candidates are scored when they are
matched to their games, which is before any batch is there to keep them apart. So one candidate
whose sum leaves the range leaves the whole fixture without offers, and otherwise each candidate has
its offer and its decision (`Fixture.offers_of_scorable`).
-/

namespace ReleaseSelection

/-! ## Sums -/

namespace Profile

/-- The exact sum of the weights of these formats. -/
def weigh (p : Profile) (formats : List Format) : Int :=
  total (formats.map fun format => (p.formatScore format.id).val)

/-- Each sum on the way is a score. -/
def StaysInRange (p : Profile) (formats : List Format) : Prop :=
  ∀ part, part <+: formats → ∃ score : Score, score.val = p.weigh part

theorem addScores_answers_iff {sum : Score} {scores : List Score} :
    (∃ score, addScores sum scores = .ok score) ↔
      ∀ part, part <+: scores → ∃ score : Score,
        score.val = sum.val + total (part.map (·.val)) := by
  have empty (sum : Score) : sum.val = sum.val + total (([] : List Score).map (·.val)) := by
    rw [List.map_nil, total_nil, Int.add_zero]
  induction scores generalizing sum with
  | nil =>
    refine ⟨fun _ part within => ?_, fun _ => ⟨sum, rfl⟩⟩
    obtain rfl := List.prefix_nil.mp within
    exact ⟨sum, empty sum⟩
  | cons first scores ih =>
    rw [addScores]
    cases added : sum.add? first with
    | none =>
      constructor
      · rintro ⟨score, summed⟩
        cases summed
      · intro fits
        obtain ⟨score, reached⟩ := fits [first] (List.prefix_append [first] scores)
        rw [List.map_singleton, total_cons, total_nil, Int.add_zero] at reached
        cases added.symm.trans (Bounded.add?_eq_some_iff.mpr reached)
    | some next =>
      have reached := Bounded.add?_eq_some_iff.mp added
      have shift (part : List Score) : sum.val + total ((first :: part).map (·.val)) =
          next.val + total (part.map (·.val)) := by
        rw [List.map_cons, total_cons, reached, Int.add_assoc]
      refine ih.trans ⟨fun fits part within => ?_, fun fits part within => ?_⟩
      · rcases List.prefix_cons_iff.mp within with rfl | ⟨rest, rfl, later⟩
        · exact ⟨sum, empty sum⟩
        · rw [shift]
          exact fits rest later
      · rw [← shift]
        exact fits (first :: part) (List.cons_prefix_cons.mpr ⟨rfl, within⟩)

theorem sums_iff {p : Profile} {formats : List Format} :
    p.Sums formats ↔ p.StaysInRange formats := by
  have weighed (part : List Format) :
      (0 : Score).val + total ((part.map (p.formatScore ·.id)).map (·.val)) = p.weigh part := by
    rw [List.map_map]
    exact Int.zero_add _
  refine addScores_answers_iff.trans ⟨fun fits part within => ?_, fun fits part within => ?_⟩
  · rw [← weighed]
    exact fits _ (within.map _)
  · obtain ⟨part, before, rfl⟩ := List.prefix_map_iff.mp within
    rw [weighed]
    exact fits part before

theorem addScores_eq_error {sum : Score} {scores : List Score} {fault : Fault}
    (h : addScores sum scores = .error fault) : fault = .overflow := by
  induction scores generalizing sum with
  | nil => cases h
  | cons first scores ih =>
    rw [addScores] at h
    split at h
    · exact ih h
    · cases h
      rfl

theorem scoreOf_of_leaves {p : Profile} {formats : List Format}
    (leaves : ¬ p.StaysInRange formats) : p.scoreOf formats = .error .overflow := by
  cases scored : p.scoreOf formats with
  | ok score => exact absurd (sums_iff.mp ⟨score, scored⟩) leaves
  | error fault => rw [addScores_eq_error scored]

theorem weigh_cons (p : Profile) (format : Format) (formats : List Format) :
    p.weigh (format :: formats) = (p.formatScore format.id).val + p.weigh formats := rfl

/-- No weight in the table is further from zero than this. -/
def WeighsAtMost (p : Profile) (most : Nat) : Prop :=
  ∀ item ∈ p.formatItems, -most ≤ item.score.val ∧ item.score.val ≤ most

theorem WeighsAtMost.formatScore {p : Profile} {most : Nat} (light : p.WeighsAtMost most)
    (format : FormatId) :
    -most ≤ (p.formatScore format).val ∧ (p.formatScore format).val ≤ most := by
  unfold Profile.formatScore
  cases listed : p.formatItems.find? (·.format == format) with
  | none => exact ⟨Int.neg_nonpos_of_nonneg (Int.natCast_nonneg most), Int.natCast_nonneg most⟩
  | some item => exact light item (List.mem_of_find?_eq_some listed)

theorem WeighsAtMost.weigh {p : Profile} {most : Nat} (light : p.WeighsAtMost most)
    (formats : List Format) :
    -(formats.length * most : Nat) ≤ p.weigh formats ∧
      p.weigh formats ≤ (formats.length * most : Nat) := by
  induction formats with
  | nil => simp [Profile.weigh]
  | cons format formats ih =>
    have first := light.formatScore format.id
    rw [weigh_cons, List.length_cons, Nat.succ_mul]
    omega

/-- Few formats of little weight can be summed, in whatever order. -/
theorem WeighsAtMost.staysInRange {p : Profile} {most : Nat} {formats : List Format}
    (light : p.WeighsAtMost most) (few : formats.length * most ≤ 2147483647) :
    p.StaysInRange formats := by
  intro part within
  have fewer : part.length * most ≤ formats.length * most :=
    Nat.mul_le_mul_right most within.length_le
  have := light.weigh part
  exact ⟨⟨p.weigh part, by omega, by omega⟩, rfl⟩

end Profile

/-! ## Candidates -/

namespace Candidate

variable {candidate : Candidate} {game : Option Game} {candidates : List Candidate}
  {gameOf : Candidate → Option Game}

/-- The formats can be summed under the profile of the game, if there is one. -/
def Scorable (candidate : Candidate) (game : Option Game) : Prop :=
  ∀ matched, game = some matched → matched.profile.StaysInRange candidate.formats

/-- The offer that a candidate makes for a game: its score is the exact sum, or zero without a game,
and nothing is known of its source yet. -/
structure Makes (candidate : Candidate) (game : Option Game) (o : Offer) : Prop where
  release : o.release = candidate.release
  parsed : o.parsed = candidate.parsed
  matched : o.game = game
  formats : o.formats = candidate.formats
  score : o.score.val = (game.map (·.profile.weigh candidate.formats)).getD 0
  source : o.source = .unknown

theorem offer_of_scorable (scorable : candidate.Scorable game) :
    ∃ o, candidate.offer game = .ok o ∧ candidate.Makes game o := by
  cases game with
  | none => exact ⟨_, rfl, rfl, rfl, rfl, rfl, rfl, rfl⟩
  | some game =>
    obtain ⟨score, scored⟩ := Profile.sums_iff.mpr (scorable game rfl)
    refine ⟨⟨candidate.release, candidate.parsed, some game, candidate.formats, score, .unknown⟩,
      ?_, rfl, rfl, rfl, rfl, Profile.scoreOf_eq_ok scored, rfl⟩
    simp only [offer, Offer.make, scored]
    rfl

theorem offer_of_not_scorable (leaves : ¬ candidate.Scorable game) :
    candidate.offer game = .error .overflow := by
  obtain ⟨matched, leaves⟩ := not_forall.mp leaves
  obtain ⟨rfl, beyond⟩ := Classical.not_imp.mp leaves
  have faults : matched.profile.scoreOf candidate.formats = .error .overflow :=
    Profile.scoreOf_of_leaves beyond
  simp only [offer, Offer.make, faults]
  rfl

theorem mapM_offer_of_scorable (scorable : ∀ c ∈ candidates, c.Scorable (gameOf c)) :
    ∃ offers, candidates.mapM (fun c => c.offer (gameOf c)) = .ok offers ∧
      candidates.Forall₂ (fun c o => c.Makes (gameOf c) o) offers := by
  induction candidates with
  | nil => exact ⟨[], rfl, .nil⟩
  | cons c candidates ih =>
    obtain ⟨first, others⟩ := List.forall_mem_cons.mp scorable
    obtain ⟨o, offered, makes⟩ := offer_of_scorable first
    obtain ⟨offers, made, rest⟩ := ih others
    refine ⟨o :: offers, ?_, .cons makes rest⟩
    simp only [List.mapM_cons, offered, made]
    rfl

/-- The first candidate that cannot be scored ends the walk. -/
theorem mapM_offer_of_not_scorable (leaves : ¬ ∀ c ∈ candidates, c.Scorable (gameOf c)) :
    candidates.mapM (fun c => c.offer (gameOf c)) = .error .overflow := by
  induction candidates with
  | nil => exact absurd (List.forall_mem_nil _) leaves
  | cons c candidates ih =>
    by_cases first : c.Scorable (gameOf c)
    · obtain ⟨o, offered, _⟩ := offer_of_scorable first
      have later := ih fun others => leaves (List.forall_mem_cons.mpr ⟨first, others⟩)
      simp only [List.mapM_cons, offered, later]
      rfl
    · simp only [List.mapM_cons, offer_of_not_scorable first]
      rfl

end Candidate

/-! ## Fixtures -/

namespace Fixture

/-- The game that a candidate names, if the fixture has it. -/
def gameOf (f : Fixture) (candidate : Candidate) : Option Game := candidate.gameId.bind f.game?

def Scorable (f : Fixture) : Prop :=
  ∀ candidate ∈ f.candidates, candidate.Scorable (f.gameOf candidate)

/-- **A fixture has its offers if every candidate can be scored, and none at all otherwise.** Where
it has them, there is one for each candidate, and every batch of them is settled one by one, however
long the evaluations take. -/
theorem offers_of_scorable (f : Fixture) :
    (f.Scorable → ∃ offers, f.offers = .ok offers ∧
        f.candidates.Forall₂ (fun candidate o => candidate.Makes (f.gameOf candidate) o) offers ∧
        ∀ (policy : Policy) (store : Store) (c : Context) (took : Durations),
          policy.maxConcurrentEvaluations.val ≤ Service.maxConcurrency →
            ∃ ds, Service.evaluateBatch policy store offers c false took = .ok ds ∧
              offers.zipIdx.Forall₂ (Service.Settled policy store c took) ds) ∧
      (¬ f.Scorable → f.offers = .error .overflow) := by
  refine ⟨fun scorable => ?_, Candidate.mapM_offer_of_not_scorable⟩
  obtain ⟨offers, made, makes⟩ := Candidate.mapM_offer_of_scorable scorable
  refine ⟨offers, made, makes, fun policy store c took bounded => ?_⟩
  exact Service.settled_evaluateBatch policy store offers c took bounded

/-- No candidate of the small fixture has two formats, so all of them have offers. -/
theorem offers_of_scorable_small :
    small.Scorable ∧ ∃ offers, small.offers = .ok offers ∧
      small.candidates.Forall₂ (fun candidate o => candidate.Makes (small.gameOf candidate) o)
        offers := by
  have few : ∀ candidate ∈ small.candidates, candidate.formats.length ≤ 1 := by decide
  have profile : ∀ game ∈ small.games, game.profile = .small := by decide
  have light : Profile.small.WeighsAtMost 20 := by
    unfold Profile.WeighsAtMost
    decide
  have scorable : small.Scorable := by
    intro candidate mem game named
    obtain ⟨id, _, found⟩ := Option.bind_eq_some_iff.mp named
    have := few candidate mem
    rw [profile game (List.mem_of_find?_eq_some found)]
    exact light.staysInRange (by omega)
  obtain ⟨offers, made, makes, _⟩ := (offers_of_scorable small).1 scorable
  exact ⟨scorable, offers, made, makes⟩

end Fixture

/-! ## Weights that validation lets pass -/

/-- Takes away what the bonus gives. -/
def Format.malus : Format := ⟨.last, "Malus"⟩

/-- The bonus is a score, and twice the bonus is none. -/
def Profile.heavy : Profile :=
  { small with
    formatItems :=
      [⟨Format.bonus.id, 1500000000⟩, ⟨Format.malus.id, .saturate (-1500000000)⟩] }

/-- The second candidate comes to the score of one bonus, by way of two. -/
def Fixture.heavy : Fixture where
  games := [.ofTitle .nil "Heavy" .heavy]
  history := []
  blocklist := []
  queue := []
  indexers := []
  candidates :=
    [(Standing.unversioned .retail 1 []).candidate (some .nil),
      (Standing.unversioned .retail 1 [.bonus, .bonus, .malus]).candidate (some .nil)]

/-- Validation does not look at weights, so the fixture is accepted and has no offers. -/
theorem Fixture.offers_fault :
    ¬ ∀ (d : Data) (f : Fixture), ofData d = .ok f → ∃ offers, f.offers = .ok offers := by
  intro offered
  have accepted : ofData (toData heavy) = .ok heavy := by decide +kernel
  obtain ⟨offers, made⟩ := offered (toData heavy) heavy accepted
  cases made

end ReleaseSelection
