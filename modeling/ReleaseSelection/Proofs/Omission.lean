import ReleaseSelection.Proofs.Admission
import ReleaseSelection.Proofs.Standard

/-!
# What is left out of a store

A block, a download and the wishes of an indexer can only stand against a release. So a check that
accepts it on one store accepts it on every store that has no more of these on record, an indexer
that is not known included (`Check.spares_standard`). With the same history an approval carries over
(`Offer.approved_of_less`).
-/

namespace ReleaseSelection

/-- One store has no block and no download beyond those of another, and the indexers that it knows
are known to the other by the same definitions. -/
structure Store.Within (less more : Store) : Prop where
  blocklist : ∀ entry ∈ less.blocklist, entry ∈ more.blocklist
  queue : ∀ item ∈ less.queue, item ∈ more.queue
  indexers : ∀ id indexer, less.indexer? id = some indexer → more.indexer? id = some indexer

section
variable {policy : Policy} {less more : Store} {o : Offer} {c : Context}

theorem Store.Within.indexerOf (within : less.Within more) {indexer : Indexer}
    (known : less.readers.indexerOf o = some indexer) :
    more.readers.indexerOf o = some indexer := by
  unfold Readers.indexerOf at *
  cases named : o.release.indexerId with
  | none => simp [named] at known
  | some id =>
    simp only [named, Store.readers] at known ⊢
    exact within.indexers id indexer known

/-! ## Single checks -/

namespace Answer

theorem blocklist_of_within (within : less.Within more)
    (accepts : blocklist more.readers o = .accept) : blocklist less.readers o = .accept := by
  cases matched : o.game with
  | none => simp only [blocklist, matched]
  | some game =>
    rw [blocklist_eq_accept_iff _ matched] at accepts ⊢
    intro entry blocked own
    exact accepts entry (within.blocklist entry blocked) own

/-- No download was in the way, so none of them is. -/
theorem queue_of_within {rules : UpgradeRules} (within : less.Within more)
    (accepts : queue rules more.readers o = .ok .accept) :
    queue rules less.readers o = .ok .accept := by
  cases matched : o.game with
  | none => simp only [queue, matched]
  | some game =>
    cases understood : o.standing? with
    | none => simp only [queue, matched, understood]
    | some candidate =>
      rw [queue_readers_eq_accept_iff _ _ matched understood] at accepts ⊢
      intro item queued own active
      exact accepts item (within.queue item queued) own active

theorem requiredFlags_of_within (within : less.Within more)
    (accepts : requiredFlags more.readers o = .accept) :
    requiredFlags less.readers o = .accept := by
  cases known : less.readers.indexerOf o with
  | none => simp only [requiredFlags, known]
  | some indexer =>
    have same := within.indexerOf known
    simp only [requiredFlags, same] at accepts
    simp only [requiredFlags, known]
    exact accepts

theorem indexerTag_of_within (within : less.Within more)
    (accepts : indexerTag more.readers o = .accept) : indexerTag less.readers o = .accept := by
  cases matched : o.game with
  | none => simp only [indexerTag, matched]
  | some game =>
    cases known : less.readers.indexerOf o with
    | none => simp only [indexerTag, matched, known]
    | some indexer =>
      have same := within.indexerOf known
      simp only [indexerTag, matched, same] at accepts
      simp only [indexerTag, matched, known]
      exact accepts

theorem alreadyImported_of_history (same : ∀ game, less.historyFor game = more.historyFor game) :
    alreadyImported policy less.readers o = alreadyImported policy more.readers o := by
  simp only [alreadyImported, Store.readers, same]

theorem history_of_history (same : ∀ game, less.historyFor game = more.historyFor game) :
    history policy less.readers o c = history policy more.readers o c := by
  simp only [history, Store.readers, same]

end Answer

namespace Check

/-- What one check accepts the other accepts. -/
def Spares (o : Offer) (c : Context) (check other : Check) : Prop :=
  check.run o c = .ok .accept → other.run o c = .ok .accept

theorem spares_blocklist (within : less.Within more) :
    Spares o c (blocklist more.readers) (blocklist less.readers) := by
  intro accepts
  exact congrArg _ (Answer.blocklist_of_within within (Except.ok.inj accepts))

theorem spares_indexerTag (within : less.Within more) :
    Spares o c (indexerTag more.readers) (indexerTag less.readers) := by
  intro accepts
  exact congrArg _ (Answer.indexerTag_of_within within (Except.ok.inj accepts))

theorem spares_requiredFlags (within : less.Within more) :
    Spares o c (requiredFlags more.readers) (requiredFlags less.readers) := by
  intro accepts
  exact congrArg _ (Answer.requiredFlags_of_within within (Except.ok.inj accepts))

/-! ## All of them -/

theorem spares_standard (within : less.Within more)
    (same : ∀ game, less.historyFor game = more.historyFor game) :
    (inOrder (standard policy more.readers)).Forall₂ (Spares o c)
      (inOrder (standard policy less.readers)) := by
  apply forall₂_standard
  · intro check accepts
    exact accepts
  · exact spares_blocklist within
  · exact spares_indexerTag within
  · intro accepts
    rw [← accepts]
    exact congrArg _ (Answer.alreadyImported_of_history same)
  · intro accepts
    rw [← accepts]
    exact Answer.history_of_history same
  · exact spares_requiredFlags within
  · exact Answer.queue_of_within within

end Check

theorem accepts_of_spares {checks others : List Check}
    (spares : checks.Forall₂ (Check.Spares o c) others)
    (accepts : ∀ check ∈ checks, check.run o c = .ok .accept) :
    ∀ other ∈ others, other.run o c = .ok .accept := by
  induction spares with
  | nil => exact List.forall_mem_nil _
  | cons first _ ih =>
    obtain ⟨run, rest⟩ := List.forall_mem_cons.mp accepts
    exact List.forall_mem_cons.mpr ⟨first run, ih rest⟩

theorem Offer.Approved.of_within (approved : o.Approved policy more.readers c)
    (within : less.Within more) (same : ∀ game, less.historyFor game = more.historyFor game) :
    o.Approved policy less.readers c := by
  obtain ⟨understood, accepts⟩ := approved_iff.mp approved
  refine approved_iff.mpr ⟨understood, ?_⟩
  have walked := accepts_of_spares (Check.spares_standard within same) fun check mem =>
    accepts check (mem_inOrder.mp mem)
  intro check mem
  exact walked check (mem_inOrder.mpr mem)

/-- **What is not on record does not stand against a release.** It stays approved when blocks,
downloads and indexers are left out of the store. -/
theorem Offer.approved_of_less (policy : Policy) (o : Offer) (c : Context)
    (history : less.history = more.history) (blocklist : less.blocklist.Sublist more.blocklist)
    (queue : less.queue.Sublist more.queue)
    (indexers : ∀ id indexer, less.indexer? id = some indexer → more.indexer? id = some indexer)
    (approved : o.Approved policy more.readers c) : o.Approved policy less.readers c := by
  have within : less.Within more :=
    ⟨fun _ mem => blocklist.mem mem, fun _ mem => queue.mem mem, indexers⟩
  have same (game : GameId) : less.historyFor game = more.historyFor game := by
    simp only [Store.historyFor, history]
  exact approved.of_within within same

end

/-- The small store, with an indexer that asks for a flag. -/
def Store.flagged : Store :=
  { Store.small with indexers := [⟨.nil, "Flagged", [.freeleech], [], 25⟩] }

/-- Retail with this flag, from that indexer. -/
def Offer.freeleech : Offer :=
  let offered := Game.small.offered (.unversioned .retail 1 [])
  { offered with
    release := { offered.release with indexerId := some .nil, flags := [.freeleech] } }

theorem approves_freeleech :
    Offer.freeleech.Approved .default Store.flagged.readers (.rss ⟨0, 0⟩) := by
  have matched : Offer.freeleech.game = some .small := rfl
  have parsed : Offer.freeleech.standing? = some (.unversioned .retail 1 []) := rfl
  have recorded : Store.flagged.readers.history Game.small.id = .ok Store.small.history :=
    history_small
  refine Offer.approved_iff.mpr ⟨⟨_, _, rfl, rfl⟩, ?_⟩
  simp only [Check.standard, List.forall_mem_cons]
  refine ⟨rfl, rfl, rfl, rfl, rfl, rfl, rfl, rfl, rfl, ?_, ?_, rfl, rfl, rfl,
    Check.delay_default _ _, rfl, rfl, List.forall_mem_nil _⟩
  · simp only [Check.alreadyImported, Answer.alreadyImported, matched, recorded]
    rfl
  · simp only [Check.history, Answer.history, matched, parsed, recorded]
    rfl

/-- The same history, and nothing else. -/
def Store.bare : Store := { Store.empty with history := Store.flagged.history }

/-- With nothing blocked and nothing queued, and by an indexer that is not known, it is approved as
before. -/
theorem Offer.approved_of_less_freeleech :
    Offer.freeleech.Approved .default Store.flagged.readers (.rss ⟨0, 0⟩) ∧
      Store.bare.history = Store.flagged.history ∧
      Store.bare.blocklist.Sublist Store.flagged.blocklist ∧
      Store.bare.queue.Sublist Store.flagged.queue ∧
      (∀ id indexer, Store.bare.indexer? id = some indexer →
        Store.flagged.indexer? id = some indexer) ∧
      Offer.freeleech.Approved .default Store.bare.readers (.rss ⟨0, 0⟩) := by
  have history : Store.bare.history = Store.flagged.history := rfl
  have blocklist : Store.bare.blocklist.Sublist Store.flagged.blocklist := List.nil_sublist _
  have queue : Store.bare.queue.Sublist Store.flagged.queue := List.nil_sublist _
  have indexers : ∀ id indexer, Store.bare.indexer? id = some indexer →
      Store.flagged.indexer? id = some indexer := by
    intro id indexer known
    cases known
  refine ⟨approves_freeleech, history, blocklist, queue, indexers, ?_⟩
  exact approved_of_less .default .freeleech (.rss ⟨0, 0⟩) history blocklist queue indexers
    approves_freeleech

end ReleaseSelection
