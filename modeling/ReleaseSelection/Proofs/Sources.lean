import ReleaseSelection.Proofs.Offers
import ReleaseSelection.Proofs.Walks

/-!
# Where decisions come from

A decision records the way by which its release came to be looked at. That is done first of all when
an offer is decided, but a report on an offer whose checks fault is made of the offer as it came in,
and so is one on an offer whose evaluation takes too long. So a batch records the source of its
context on every decision except such reports, which keep the source of their offer
(`Service.source_of_evaluateBatch`). Nothing but a sum of scores that leaves the range makes a check
fault.
-/

namespace ReleaseSelection

variable {policy : Policy} {store : Store} {c : Context} {took : Durations} {o : Offer} {i : Nat}
  {d : Decision}

/-! ## Sources -/

/-- No context leaves the source unknown. -/
theorem Context.source_ne_unknown (c : Context) : c.source ≠ .unknown := by
  unfold source
  cases c.search with
  | none => cases c.pushed <;> nofun
  | some search =>
    obtain ⟨userInvoked, interactive⟩ := search
    cases userInvoked <;> cases interactive <;> nofun

theorem Offer.decide_source {checks : List Check} (decided : o.decide checks c = .ok d) :
    d.offer.source = c.source := by
  rw [Offer.decide_offer decided]
  rfl

namespace Service

/-- Where the decision on an offer says that it comes from: where its context does, unless a sum of
scores left the range or its evaluation took too long, and then where the offer says. -/
inductive Sourced (policy : Policy) (store : Store) (c : Context) (took : Durations) :
    Offer × Nat → Decision → Prop where
  | context (o : Offer) (i : Nat) (d : Decision)
      (inTime : took i ≤ policy.evaluationTimeout.val)
      (decided : evaluate policy store c o = .ok d) (source : d.offer.source = c.source) :
      Sourced policy store c took (o, i) d
  | faulted (o : Offer) (i : Nat) (fault : Fault)
      (inTime : took i ≤ policy.evaluationTimeout.val)
      (run : evaluate policy store c o = .error fault) (game : Game)
      (matched : o.game = some game) (leaves : ¬ store.Scores o game) :
      Sourced policy store c took (o, i) (.faulted o)
  | outOfTime (o : Offer) (i : Nat) (tooLong : policy.evaluationTimeout.val < took i) :
      Sourced policy store c took (o, i) (.faulted o)

/-- Checks fault only where a sum of scores for a matched offer leaves the range. -/
theorem exists_not_scores {fault : Fault} (run : evaluate policy store c o = .error fault) :
    ∃ game, o.game = some game ∧ ¬ store.Scores o game := by
  have leaves : ¬ ∀ game, o.game = some game → store.Scores o game := by
    intro scored
    obtain ⟨d, decided⟩ := Offer.decide_answers policy scored c
    cases run.symm.trans decided
  obtain ⟨game, leaves⟩ := not_forall.mp leaves
  exact ⟨game, Classical.not_imp.mp leaves⟩

theorem Settled.sourced {task : Offer × Nat} (settled : Settled policy store c took task d) :
    Sourced policy store c took task d := by
  cases settled with
  | decided o i d inTime run => exact .context o i d inTime run (Offer.decide_source run)
  | faulted o i fault inTime run =>
    obtain ⟨game, matched, leaves⟩ := exists_not_scores run
    exact .faulted o i fault inTime run game matched leaves
  | outOfTime o i tooLong => exact .outOfTime o i tooLong

namespace Sourced

variable (sourced : Sourced policy store c took (o, i) d)

include sourced

theorem source_of_scores (inTime : took i ≤ policy.evaluationTimeout.val)
    (scored : ∀ game, o.game = some game → store.Scores o game) : d.offer.source = c.source := by
  cases sourced with
  | context o i d inTime decided source => exact source
  | faulted o i fault inTime run game matched leaves => exact absurd (scored game matched) leaves
  | outOfTime o i tooLong => exact absurd inTime (Int.not_le.mpr tooLong)

/-- What is not a decision in time is a report. -/
theorem eq_faulted
    (none : ¬ (took i ≤ policy.evaluationTimeout.val ∧ evaluate policy store c o = .ok d)) :
    d = .faulted o := by
  cases sourced with
  | context o i d inTime decided source => exact absurd ⟨inTime, decided⟩ none
  | faulted o i fault inTime run game matched leaves => rfl
  | outOfTime o i tooLong => rfl

/-- An offer that does not say where it comes from tells the reports from the rest. -/
theorem source_eq_iff (unknown : o.source = .unknown) : d.offer.source = c.source ↔
    took i ≤ policy.evaluationTimeout.val ∧ evaluate policy store c o = .ok d := by
  constructor
  · intro source
    apply Classical.byContradiction
    intro none
    rw [sourced.eq_faulted none] at source
    exact c.source_ne_unknown (source.symm.trans unknown)
  · rintro ⟨-, decided⟩
    exact Offer.decide_source decided

end Sourced

/-- **A batch records where its decisions come from, on all but its reports**, be they on a fault or
on an evaluation that took too long. There is no report on an offer whose evaluation is in time and
whose sums of scores stay in range, and one on an offer of a fixture does not show the source. -/
theorem source_of_evaluateBatch (policy : Policy) (store : Store) (offers : List Offer)
    (c : Context) (took : Durations)
    (bounded : policy.maxConcurrentEvaluations.val ≤ maxConcurrency) :
    ∃ ds, evaluateBatch policy store offers c false took = .ok ds ∧
      offers.zipIdx.Forall₂ (fun (o, i) d => Sourced policy store c took (o, i) d ∧
        (took i ≤ policy.evaluationTimeout.val →
          (∀ game, o.game = some game → store.Scores o game) → d.offer.source = c.source) ∧
        (o.source = .unknown → (d.offer.source = c.source ↔
          took i ≤ policy.evaluationTimeout.val ∧ evaluate policy store c o = .ok d))) ds := by
  obtain ⟨ds, decided, settled⟩ := settled_evaluateBatch policy store offers c took bounded
  refine ⟨ds, decided, settled.imp fun task d settled => ?_⟩
  have sourced := settled.sourced
  exact ⟨sourced, sourced.source_of_scores, sourced.source_eq_iff⟩

end Service

/-! ## A file beyond the range -/

/-- A game with scene on disk whose formats sum to no score. -/
def Game.heavy : Game :=
  { ofTitle .nil "Heavy" .heavy with
    file := some (.of (.unversioned .scene 1 [.bonus, .bonus])) }

theorem history_empty (game : GameId) : Store.empty.readers.history game = .ok [] :=
  congrArg _ List.mergeSort_nil

/-- All checks accept retail up to the last, which cannot score the file. -/
theorem decide_heavy :
    (Game.heavy.offered (.unversioned .retail 1 [])).decide
      (Check.standard .default Store.empty.readers) (.rss ⟨0, 0⟩) = .error .overflow := by
  have order : Check.inOrder (Check.standard .default Store.empty.readers) =
      (Check.firm .default Store.empty.readers ++
        (Check.passing .default Store.empty.readers).take 5) ++ [.disk .default] :=
    Check.inOrder_standard _ _
  have matched : ((Game.heavy.offered (.unversioned .retail 1 [])).inContext
      (.rss ⟨0, 0⟩)).game = some .heavy := rfl
  have parsed : ((Game.heavy.offered (.unversioned .retail 1 [])).inContext
      (.rss ⟨0, 0⟩)).standing? = some (.unversioned .retail 1 []) := rfl
  refine Offer.decide_of_faults rfl order ?_ rfl
  simp only [Check.firm, Check.passing, List.take, List.cons_append, List.nil_append,
    List.forall_mem_cons]
  refine ⟨rfl, rfl, rfl, rfl, rfl, rfl, rfl, rfl, ?_, ?_, rfl, rfl, rfl, rfl,
    Check.delay_default _ _, rfl, List.forall_mem_nil _⟩
  · simp only [Check.alreadyImported, Answer.alreadyImported, matched, history_empty]
    rfl
  · simp only [Check.history, Answer.history, matched, parsed, history_empty]
    rfl

namespace Service

/-- One offer for the heavy game and two for the small one. -/
def heavyBatch : List Offer :=
  [Game.heavy.offered (.unversioned .retail 1 []), Game.small.offered (.unversioned .retail 1 []),
    Game.small.offered (.unversioned .retail 1 [])]

/-- The third evaluation takes six seconds, and those before it one. -/
def thirdLate : Durations := fun i => if i < 2 then 1000 else 6000

/-- Of three releases in a feed two are reported on without their source: the one for the heavy game
and the one whose evaluation takes longer than the five seconds of the default policy. -/
theorem source_of_evaluateBatch_heavy :
    Policy.default.maxConcurrentEvaluations.val ≤ maxConcurrency ∧
      ∃ ds, evaluateBatch .default .empty heavyBatch (.rss ⟨0, 0⟩) false thirdLate = .ok ds ∧
        ds.map (·.offer.source) = [.unknown, .rss, .unknown] := by
  have bounded : Policy.default.maxConcurrentEvaluations.val ≤ maxConcurrency := by decide
  obtain ⟨ds, decided, sourced⟩ :=
    source_of_evaluateBatch .default .empty heavyBatch (.rss ⟨0, 0⟩) thirdLate bounded
  refine ⟨bounded, ds, decided, ?_⟩
  obtain _ | ⟨⟨heavy, _, _⟩, _ | ⟨⟨_, recorded, _⟩, _ | ⟨⟨late, _, _⟩, _ | _⟩⟩⟩ := sourced
  have scores : Store.empty.Scores (Game.small.offered (.unversioned .retail 1 [])) .small := by
    refine ⟨⟨0, rfl⟩, ?_, List.forall_mem_nil _, List.forall_mem_nil _⟩
    rintro _ ⟨⟩
    exact ⟨0, rfl⟩
  have second := recorded (by decide) fun game matched => Option.some.inj matched ▸ scores
  have tooLong : ¬ ((thirdLate 2 : Int) ≤ Policy.default.evaluationTimeout.val) := by decide
  cases heavy.eq_faulted fun ⟨_, decided⟩ => nomatch decide_heavy.symm.trans decided
  cases late.eq_faulted fun ⟨inTime, _⟩ => tooLong inTime
  exact congrArg ([.unknown, ·, .unknown]) second

/-- The report on a fault does not say that its release came with a feed. -/
theorem source_lost :
    ¬ ∀ (policy : Policy) (store : Store) (offers : List Offer) (c : Context) (took : Durations)
        (ds : List Decision), evaluateBatch policy store offers c false took = .ok ds →
          ∀ d ∈ ds, d.offer.source = c.source := by
  intro recorded
  have faulted : evaluate .default .empty (.rss ⟨0, 0⟩)
      (Game.heavy.offered (.unversioned .retail 1 [])) = .error .overflow := decide_heavy
  have decided : evaluateBatch .default .empty [Game.heavy.offered (.unversioned .retail 1 [])]
      (.rss ⟨0, 0⟩) false (fun _ => 0) =
        .ok [.faulted (Game.heavy.offered (.unversioned .retail 1 []))] := by
    rw [evaluateBatch_eq_ok (by decide), List.zipIdx_singleton, List.map_singleton,
      Pool.conclude_of_inTime (by decide), Pool.settle, faulted]
  cases recorded _ _ _ _ _ _ decided _ List.mem_cons_self

end Service

end ReleaseSelection
