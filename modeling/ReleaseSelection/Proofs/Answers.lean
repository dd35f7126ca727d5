import ReleaseSelection.Proofs.Standard

/-!
# Checks that come to an answer

Readings of a store succeed, so nothing but a sum of format scores can keep a standard check from
answering. `Store.Scores` names the sums that a check may form for an offer. While they stay within
the range of scores every check answers (`Check.standard_answers`), and so there is a decision
(`Offer.decide_answers`).
-/

namespace ReleaseSelection

/-- The scores of these formats can be summed. -/
def Profile.Sums (p : Profile) (formats : List Format) : Prop :=
  ∃ score, p.scoreOf formats = .ok score

/-- The formats of an offer and those of whatever is held for its game can be summed. -/
structure Store.Scores (store : Store) (o : Offer) (game : Game) : Prop where
  offer : game.profile.Sums o.formats
  file : ∀ file, game.file = some file → game.profile.Sums file.formats
  queue : ∀ item ∈ store.queue, item.gameId = game.id → game.profile.Sums item.formats
  history : ∀ entry ∈ store.history, entry.gameId = game.id → game.profile.Sums entry.formats

theorem Store.Scores.candidate {store : Store} {o : Offer} {game : Game} {candidate : Standing}
    (scores : store.Scores o game) (understood : o.standing? = some candidate) :
    game.profile.Sums candidate.formats := by
  obtain ⟨parsed, _, rfl⟩ := Option.map_eq_some_iff.mp understood
  exact scores.offer

namespace Answer

variable {rules : UpgradeRules} {p : Profile} {candidate : Standing}

/-! ## Single comparisons -/

theorem overQueued_answers {item : QueueItem} (scored : p.Sums item.formats)
    (offered : p.Sums candidate.formats) :
    ∃ answer, overQueued rules p item candidate = .ok answer := by
  have held : p.Sums item.standing.formats := scored
  apply UpgradeRules.guarded_answers held
  have compares : ∃ outcome, rules.evaluate p item.standing candidate = .ok outcome :=
    UpgradeRules.evaluate_answers scored offered
  obtain ⟨outcome, compared⟩ := compares
  rw [compared]
  cases outcome with
  | upgrade gain => exact ⟨_, rfl⟩
  | notUpgrade shortfall => cases shortfall <;> exact ⟨_, rfl⟩

theorem overGrab_answers {grab : HistoryEntry} (recent : Bool) (scored : p.Sums grab.formats)
    (offered : p.Sums candidate.formats) :
    ∃ answer, overGrab rules recent p grab candidate = .ok answer := by
  have held : p.Sums grab.standing.formats := scored
  apply UpgradeRules.guarded_answers held
  have compares : ∃ outcome, rules.evaluate p grab.standing candidate = .ok outcome :=
    UpgradeRules.evaluate_answers scored offered
  obtain ⟨outcome, compared⟩ := compares
  rw [UpgradeRules.isUpgrade, compared]
  cases outcome with
  | upgrade gain => exact ⟨_, rfl⟩
  | notUpgrade shortfall => exact ⟨_, rfl⟩

/-! ## Walks over what is held -/

theorem overQueue_answers {items : List QueueItem}
    (scored : ∀ item ∈ items, p.Sums item.formats) (offered : p.Sums candidate.formats) :
    ∃ answer, overQueue rules p candidate items = .ok answer := by
  induction items with
  | nil => exact ⟨.accept, rfl⟩
  | cons item items ih =>
    obtain ⟨first, rest⟩ := List.forall_mem_cons.mp scored
    rw [overQueue]
    by_cases failed : item.state == .failedPending
    · rw [if_pos failed]
      exact ih rest
    · rw [if_neg failed]
      have first : ∃ answer, overQueued rules p item candidate = .ok answer :=
        overQueued_answers first offered
      obtain ⟨answer, answered⟩ := first
      rw [answered]
      cases answer with
      | accept => exact ih rest
      | reject reason message => exact ⟨.reject reason message, rfl⟩
      | failure error => exact ⟨.failure error, rfl⟩

theorem overHistory_answers {policy : Policy} {history : List HistoryEntry}
    (scored : ∀ entry ∈ history, p.Sums entry.formats) (offered : p.Sums candidate.formats)
    (now : Instant) : ∃ answer, overHistory policy p history candidate now = .ok answer := by
  unfold overHistory
  cases newest : history.head? with
  | none => exact ⟨.accept, rfl⟩
  | some entry =>
    have recorded := scored entry (List.mem_of_head? newest)
    simp only
    split
    · exact overGrab_answers _ recorded offered
    · exact ⟨.accept, rfl⟩

end Answer

/-! ## The checks on a store -/

section
variable {policy : Policy} {store : Store} {o : Offer} {c : Context}

namespace Answer

theorem queue_answers (rules : UpgradeRules)
    (scored : ∀ game, o.game = some game → store.Scores o game) :
    ∃ answer, queue rules store.readers o = .ok answer := by
  unfold queue
  cases matched : o.game with
  | none => exact ⟨.accept, rfl⟩
  | some game =>
    cases understood : o.standing? with
    | none => exact ⟨.accept, rfl⟩
    | some candidate =>
      have scores := scored game matched
      refine overQueue_answers (fun item queued => ?_) (scores.candidate understood)
      obtain ⟨recorded, same⟩ := List.mem_filter.mp queued
      exact scores.queue item recorded (beq_iff_eq.mp same)

theorem history_answers (scored : ∀ game, o.game = some game → store.Scores o game) :
    ∃ answer, history policy store.readers o c = .ok answer := by
  unfold history
  split
  · exact ⟨.accept, rfl⟩
  · cases matched : o.game with
    | none => exact ⟨.accept, rfl⟩
    | some game =>
      cases understood : o.standing? with
      | none => exact ⟨.accept, rfl⟩
      | some candidate =>
        have scores := scored game matched
        refine overHistory_answers (fun entry read => ?_) (scores.candidate understood) c.now
        have mem := (store.historyFor_perm game.id).mem_iff.mp read
        obtain ⟨recorded, same⟩ := List.mem_filter.mp mem
        exact scores.history entry recorded (beq_iff_eq.mp same)

theorem disk_answers (rules : UpgradeRules)
    (scored : ∀ game, o.game = some game → store.Scores o game) :
    ∃ answer, disk rules o = .ok answer := by
  unfold disk
  cases matched : o.game with
  | none => exact ⟨.accept, rfl⟩
  | some game =>
    cases understood : o.standing? with
    | none => exact ⟨.accept, rfl⟩
    | some candidate =>
      have scores := scored game matched
      simp only
      cases held : game.file with
      | none => exact ⟨.accept, rfl⟩
      | some file => exact overFile_answers (scores.file file held) (scores.candidate understood)

end Answer

theorem Check.standard_answers (scored : ∀ game, o.game = some game → store.Scores o game)
    (c : Context) :
    ∀ check ∈ standard policy store.readers, ∃ answer, check.run o c = .ok answer := by
  simp only [standard, List.forall_mem_cons]
  refine ⟨⟨_, rfl⟩, ⟨_, rfl⟩, ⟨_, rfl⟩, ⟨_, rfl⟩, ⟨_, rfl⟩, ⟨_, rfl⟩, ⟨_, rfl⟩, ⟨_, rfl⟩, ⟨_, rfl⟩,
    ⟨_, rfl⟩, ?_, ?_, ⟨_, rfl⟩, ⟨_, rfl⟩, ⟨_, rfl⟩, ⟨_, rfl⟩, ?_, List.forall_mem_nil _⟩
  · exact Answer.history_answers scored
  · exact Answer.queue_answers policy.upgradeRules scored
  · exact Answer.disk_answers policy.upgradeRules scored

/-- So does every check on the walk of a decision, which looks at the offer with its source. -/
theorem Check.inOrder_answers (scored : ∀ game, o.game = some game → store.Scores o game)
    (c : Context) :
    ∀ check ∈ inOrder (standard policy store.readers),
      ∃ answer, check.run (o.inContext c) c = .ok answer := by
  intro check mem
  have registered := mem_inOrder.mp mem
  rw [run_inContext registered]
  exact standard_answers scored c check registered

/-- Where every check answers there is a decision. -/
theorem Offer.decide_of_answers {checks : List Check}
    (answers : ∀ check ∈ Check.inOrder checks, ∃ answer, check.run (o.inContext c) c = .ok answer) :
    ∃ d, o.decide checks c = .ok d := by
  obtain ⟨_, outcome, consulted, _⟩ := consult_verdict answers
  simp only [decide, judge, consulted]
  cases (o.inContext c).unfit? c with
  | some rejection => exact ⟨_, rfl⟩
  | none => exact ⟨_, rfl⟩

theorem Offer.decide_answers (policy : Policy)
    (scored : ∀ game, o.game = some game → store.Scores o game) (c : Context) :
    ∃ d, o.decide (Check.standard policy store.readers) c = .ok d := by
  apply Offer.decide_of_answers
  exact Check.inOrder_answers scored c

end

end ReleaseSelection
