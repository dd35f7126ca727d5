import Mathlib.Data.List.Nodup
import ReleaseSelection.Proofs.Answers
import ReleaseSelection.Proofs.Omission
import ReleaseSelection.Proofs.Walks

/-!
# Records in another order

Stores with the same records in another order have no more on record than each other, so every check
accepts on both or on neither. The download that stands in the way first may be another, and with it
what is said of it, but not the check that rejects (`Offer.decide_of_reordered`).
-/

namespace ReleaseSelection

/-- The same records in another order, dates and indexers being told apart. -/
structure Store.Reordered (store other : Store) : Prop where
  history : store.history.Perm other.history
  blocklist : store.blocklist.Perm other.blocklist
  queue : store.queue.Perm other.queue
  indexers : store.indexers.Perm other.indexers
  /-- No two entries of one game share a date. -/
  dates : (store.history.map fun entry => (entry.gameId, entry.date)).Nodup
  ids : (store.indexers.map (·.id)).Nodup

namespace Store

variable {store other : Store}

/-- With one definition for each identifier an indexer is known wherever it is on record. -/
theorem indexer?_eq_some_iff (distinct : (store.indexers.map (·.id)).Nodup) {id : IndexerId}
    {indexer : Indexer} :
    store.indexer? id = some indexer ↔ indexer ∈ store.indexers ∧ indexer.id = id := by
  constructor
  · intro known
    exact ⟨List.mem_of_find?_eq_some known, by simpa using List.find?_some known⟩
  · rintro ⟨recorded, rfl⟩
    cases known : store.indexer? indexer.id with
    | none =>
      have missed := List.find?_eq_none.mp known indexer recorded
      simp at missed
    | some found =>
      have same : found.id = indexer.id := by simpa using List.find?_some known
      rw [List.inj_on_of_nodup_map distinct (List.mem_of_find?_eq_some known) recorded same]

namespace Reordered

theorem symm (h : store.Reordered other) : other.Reordered store where
  history := h.history.symm
  blocklist := h.blocklist.symm
  queue := h.queue.symm
  indexers := h.indexers.symm
  dates := (h.history.map _).nodup_iff.mp h.dates
  ids := (h.indexers.map _).nodup_iff.mp h.ids

theorem within (h : store.Reordered other) : store.Within other where
  blocklist _ := h.blocklist.mem_iff.mp
  queue _ := h.queue.mem_iff.mp
  indexers id indexer known := by
    rw [indexer?_eq_some_iff h.ids] at known
    rw [indexer?_eq_some_iff h.symm.ids]
    exact ⟨h.indexers.mem_iff.mp known.1, known.2⟩

theorem historyFor (h : store.Reordered other) (game : GameId) :
    store.historyFor game = other.historyFor game := by
  rw [historyFor_eq, historyFor_eq]
  apply newestFirst_eq_of_pairwise
  · have perm := h.history.filter (·.gameId == game)
    exact perm.trans (List.mergeSort_perm ..).symm
  · intro a ha b hb same
    obtain ⟨recordedA, ownA⟩ := List.mem_filter.mp ha
    obtain ⟨recordedB, ownB⟩ := List.mem_filter.mp hb
    have games : a.gameId = b.gameId := (beq_iff_eq.mp ownA).trans (beq_iff_eq.mp ownB).symm
    exact List.inj_on_of_nodup_map h.dates recordedA recordedB (Prod.ext games same)
  · exact newestFirst_pairwise _

theorem scores (h : store.Reordered other) {o : Offer} {game : Game}
    (scored : store.Scores o game) : other.Scores o game where
  offer := scored.offer
  file := scored.file
  queue item mem := scored.queue item (h.queue.mem_iff.mpr mem)
  history entry mem := scored.history entry (h.history.mem_iff.mpr mem)

end Reordered

end Store

/-! ## Walks that stop at one check -/

section
variable {o : Offer} {c : Context} {check other : Check} {checks others : List Check}

/-- Two checks of one name that accept together. -/
structure Check.Concurs (o : Offer) (c : Context) (check other : Check) : Prop where
  name : check.name = other.name
  accepts : check.run o c = .ok .accept ↔ other.run o c = .ok .accept

theorem concurs_of_spares (spares : checks.Forall₂ (Check.Spares o c) others)
    (back : others.Forall₂ (Check.Spares o c) checks)
    (names : checks.map (·.name) = others.map (·.name)) :
    checks.Forall₂ (Check.Concurs o c) others := by
  induction spares with
  | nil => exact .nil
  | cons first _ ih =>
    obtain ⟨name, names⟩ := List.cons.inj names
    cases back with
    | cons firstBack back => exact .cons ⟨name, first, firstBack⟩ (ih back names)

/-- A check that does not accept gives its name to the rejection. -/
theorem consult_cons_of_refuses {answer : Answer} (checks : List Check)
    (run : check.run o c = .ok answer) (refuses : answer ≠ .accept) :
    ∃ r, (consult o c (check :: checks)).2 = .ok (some r) ∧ r.check = some check.name := by
  cases rejected : check.rejection? answer with
  | none => exact absurd (Check.rejection?_eq_none_iff.mp rejected) refuses
  | some r =>
    have rejects := Check.rejection?_eq_some_iff.mp rejected
    exact ⟨r, consult_cons_of_rejects run rejects, rejects.check_eq⟩

theorem consult_check_of_concurs (concurs : checks.Forall₂ (Check.Concurs o c) others)
    (answers : ∀ check ∈ checks, ∃ answer, check.run o c = .ok answer)
    (answers' : ∀ other ∈ others, ∃ answer, other.run o c = .ok answer) :
    ∃ r r', (consult o c checks).2 = .ok r ∧ (consult o c others).2 = .ok r' ∧
      r'.map (·.check) = r.map (·.check) := by
  induction concurs with
  | nil => exact ⟨none, none, rfl, rfl, rfl⟩
  | @cons check other checks others first _ ih =>
    obtain ⟨⟨answer, run⟩, answers⟩ := List.forall_mem_cons.mp answers
    obtain ⟨⟨answer', run'⟩, answers'⟩ := List.forall_mem_cons.mp answers'
    by_cases accepts : check.run o c = .ok .accept
    · rw [consult_cons_of_accept accepts, consult_cons_of_accept (first.accepts.mp accepts)]
      exact ih answers answers'
    -- Both walks stop here, whatever the two checks say.
    · have refuses : answer ≠ .accept := by
        rintro rfl
        exact accepts run
      have refuses' : answer' ≠ .accept := by
        rintro rfl
        exact accepts (first.accepts.mpr run')
      obtain ⟨r, rejected, named⟩ := consult_cons_of_refuses checks run refuses
      obtain ⟨r', rejected', named'⟩ := consult_cons_of_refuses others run' refuses'
      refine ⟨some r, some r', rejected, rejected', ?_⟩
      rw [Option.map_some, Option.map_some, named, named', first.name]

end

/-! ## Decisions -/

section
variable {policy : Policy} {store other : Store} {o : Offer} {c : Context}

theorem Check.concurs_standard (reordered : store.Reordered other) :
    (inOrder (standard policy store.readers)).Forall₂ (Concurs o c)
      (inOrder (standard policy other.readers)) := by
  apply concurs_of_spares
  · exact spares_standard reordered.symm.within fun game => (reordered.historyFor game).symm
  · exact spares_standard reordered.within reordered.historyFor
  · rw [inOrder_standard, inOrder_standard]
    rfl

/-- **The order of recording does not decide.** On stores with the same records in another order an
offer is approved on both, or rejected by the same check. -/
theorem Offer.decide_of_reordered (policy : Policy) (o : Offer) (c : Context)
    (reordered : store.Reordered other)
    (scored : ∀ game, o.game = some game → store.Scores o game) :
    ∃ d d', o.decide (Check.standard policy store.readers) c = .ok d ∧
      o.decide (Check.standard policy other.readers) c = .ok d' ∧
      (d'.isApproved ↔ d.isApproved) ∧
      d'.rejection.map (·.check) = d.rejection.map (·.check) := by
  have scored' (game : Game) (matched : o.game = some game) : other.Scores o game :=
    reordered.scores (scored game matched)
  have concurs : (Check.inOrder (Check.standard policy store.readers)).Forall₂
      (Check.Concurs (o.inContext c) c) (Check.inOrder (Check.standard policy other.readers)) :=
    Check.concurs_standard reordered
  obtain ⟨r, r', consulted, consulted', named⟩ :=
    consult_check_of_concurs concurs (Check.inOrder_answers scored c)
      (Check.inOrder_answers scored' c)
  simp only [decide, judge, consulted, consulted', Except.map]
  cases (o.inContext c).unfit? c with
  | some rejection => exact ⟨_, _, rfl, rfl, Iff.rfl, rfl⟩
  | none =>
    refine ⟨_, _, rfl, rfl, ?_, named⟩
    have alike := congrArg Option.isNone named
    rw [Option.isNone_map, Option.isNone_map] at alike
    rw [Decision.isApproved, Decision.isApproved, alike]

end

/-- Two of everything on record. Both downloads stand in the way of retail, each in its own way. -/
def Store.crowded : Store where
  history :=
    [⟨Game.small.id, .grabbed, "Small", ⟨.scene, ⟨1, 0, false⟩⟩, [], none, none, ⟨0, 0⟩⟩,
      ⟨Game.small.id, .grabbed, "Small", ⟨.retail, ⟨1, 0, false⟩⟩, [.bonus], none, none, ⟨1, 0⟩⟩]
  blocklist :=
    [⟨Game.small.id, "Other", .usenet, none, none, none, ⟨0, 0⟩⟩,
      ⟨.last, "Small", .usenet, none, none, none, ⟨0, 0⟩⟩]
  queue :=
    [⟨Game.small.id, "Small", ⟨.retail, ⟨1, 0, false⟩⟩, [], none, .downloading, none⟩,
      ⟨Game.small.id, "Small", ⟨.portable, ⟨1, 0, false⟩⟩, [], none, .importing, none⟩]
  indexers := [⟨.nil, "Small", [.freeleech], [], 25⟩, ⟨.last, "Other", [], [], 25⟩]

/-- All of it the other way round. -/
def Store.reversed (s : Store) : Store :=
  ⟨s.history.reverse, s.blocklist.reverse, s.queue.reverse, s.indexers.reverse⟩

theorem Offer.decide_of_reordered_crowded :
    Store.crowded.Reordered Store.crowded.reversed ∧
      Store.crowded.Scores (Game.small.offered (.unversioned .retail 1 [])) .small ∧
      ∃ d d', (Game.small.offered (.unversioned .retail 1 [])).decide
          (Check.standard .default Store.crowded.readers) ⟨none, true, ⟨0, 0⟩⟩ = .ok d ∧
        (Game.small.offered (.unversioned .retail 1 [])).decide
          (Check.standard .default Store.crowded.reversed.readers) ⟨none, true, ⟨0, 0⟩⟩ = .ok d' ∧
        (d'.isApproved ↔ d.isApproved) ∧
        d'.rejection.map (·.check) = d.rejection.map (·.check) := by
  have reordered : Store.crowded.Reordered Store.crowded.reversed :=
    ⟨(List.reverse_perm _).symm, (List.reverse_perm _).symm, (List.reverse_perm _).symm,
      (List.reverse_perm _).symm, by decide, by decide⟩
  have scores : Store.crowded.Scores (Game.small.offered (.unversioned .retail 1 [])) .small := by
    refine ⟨⟨0, rfl⟩, ?_, ?_, ?_⟩
    · rintro _ ⟨⟩
      exact ⟨0, rfl⟩
    · simp only [Store.crowded, List.forall_mem_cons]
      exact ⟨fun _ => ⟨0, rfl⟩, fun _ => ⟨0, rfl⟩, List.forall_mem_nil _⟩
    · simp only [Store.crowded, List.forall_mem_cons]
      exact ⟨fun _ => ⟨0, rfl⟩, fun _ => ⟨20, rfl⟩, List.forall_mem_nil _⟩
  have scored : ∀ game, (Game.small.offered (.unversioned .retail 1 [])).game = some game →
      Store.crowded.Scores (Game.small.offered (.unversioned .retail 1 [])) game := by
    rintro _ ⟨⟩
    exact scores
  exact ⟨reordered, scores, decide_of_reordered .default _ _ reordered scored⟩

end ReleaseSelection
