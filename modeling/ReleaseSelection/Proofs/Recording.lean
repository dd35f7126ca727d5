import ReleaseSelection.Proofs.Omission
import ReleaseSelection.Proofs.Readings
import ReleaseSelection.Proofs.Walks
import ReleaseSelection.Session

/-!
# What is recorded later

History and blocklist only grow, so a block stands and an indexer asks what it asked before. But of
all that was grabbed and imported the last grab alone is looked at: once another grab follows it, or
one more import of it in the quality it was grabbed in, a permanent rejection may be gone. Nothing
else that is recorded undoes one (`Offer.superseded_of_approved`).
-/

namespace ReleaseSelection

/-- What happened is recorded beside what happened before. The queue and the indexers are told as
they are now. -/
def Change.isRecord : Change → Bool
  | .history _ | .block _ => true
  | .queue _ | .indexer _ => false

/-- What a change adds to the history. -/
def Change.entries : Change → List HistoryEntry
  | .history entry => [entry]
  | .block _ | .queue _ | .indexer _ => []

/-- The store after changes that are made one by one. -/
def Store.after (store : Store) (changes : List Change) : Store := changes.foldl Store.apply store

section
variable {store : Store} {change : Change} {changes : List Change}

/-! ## Stores over time -/

namespace Store

theorem Within.refl (store : Store) : store.Within store :=
  ⟨fun _ mem => mem, fun _ mem => mem, fun _ _ known => known⟩

theorem Within.trans {less between more : Store} (h : less.Within between)
    (h' : between.Within more) : less.Within more where
  blocklist entry mem := h'.blocklist entry (h.blocklist entry mem)
  queue item mem := h'.queue item (h.queue item mem)
  indexers id indexer known := h'.indexers id indexer (h.indexers id indexer known)

theorem history_apply (store : Store) (change : Change) :
    (store.apply change).history = store.history ++ change.entries := by
  cases change with
  | history entry => rfl
  | block => exact (List.append_nil _).symm
  | queue => exact (List.append_nil _).symm
  | indexer => exact (List.append_nil _).symm

theorem history_after (store : Store) (changes : List Change) :
    (store.after changes).history = store.history ++ changes.flatMap Change.entries := by
  induction changes generalizing store with
  | nil => exact (List.append_nil _).symm
  | cons change changes ih =>
    have later := ih (store.apply change)
    rw [history_apply, List.append_assoc] at later
    exact later

theorem within_apply (record : change.isRecord) : store.Within (store.apply change) := by
  cases change with
  | history => exact { Within.refl store with }
  | block =>
    refine { Within.refl store with blocklist := ?_ }
    intro entry mem
    exact List.mem_append_left _ mem
  | queue => cases record
  | indexer => cases record

theorem within_after (records : ∀ change ∈ changes, change.isRecord) :
    store.Within (store.after changes) := by
  induction changes generalizing store with
  | nil => exact Within.refl store
  | cons change changes ih =>
    obtain ⟨record, records⟩ := List.forall_mem_cons.mp records
    have first : store.Within (store.apply change) := within_apply record
    exact first.trans (ih records)

end Store

theorem Change.mem_of_mem_entries {entry : HistoryEntry}
    (mem : entry ∈ changes.flatMap Change.entries) : .history entry ∈ changes := by
  obtain ⟨change, made, brought⟩ := List.mem_flatMap.mp mem
  cases change with
  | history own =>
    obtain rfl := List.mem_singleton.mp brought
    exact made
  | block => cases brought
  | queue => cases brought
  | indexer => cases brought

end

/-! ## The last grab -/

def HistoryEntry.isImportOf (download : String) (entry : HistoryEntry) : Bool :=
  entry.event == .downloadFolderImported && entry.downloadId.any (Text.sameLetters · download)

/-- The newest grab, and the newest import of its download, which came out in another quality. -/
structure Disappointed (history : List HistoryEntry) (grab imported : HistoryEntry)
    (download : String) : Prop where
  lastGrab : grab.IsNewestOf (history.filter (·.event == .grabbed))
  downloaded : grab.downloadId = some download
  lastImport : imported.IsNewestOf (history.filter (HistoryEntry.isImportOf download))
  quality : imported.quality ≠ grab.quality

/-- A later grab, or a later import that came out as it was grabbed. -/
inductive HistoryEntry.Supersedes (entry grab imported : HistoryEntry) (download : String) :
    Prop where
  | grabbed (event : entry.event = .grabbed) (later : grab.date < entry.date)
  | imported (event : entry.isImportOf download) (quality : entry.quality = grab.quality)
      (later : imported.date < entry.date)

section
variable {history recorded : List HistoryEntry} {grab imported : HistoryEntry} {download : String}

theorem disappointingGrab?_newestFirst :
    Answer.disappointingGrab? (newestFirst history) = some (grab, download) ↔
      ∃ imported, Disappointed history grab imported download := by
  simp only [Answer.disappointingGrab?, Option.bind_eq_bind, Option.bind_eq_some_iff]
  constructor
  · rintro ⟨grab', grabbed, download', downloaded, imported, found, told⟩
    by_cases same : imported.quality == grab'.quality
    · simp [same] at told
    · simp only [same, Bool.false_eq_true, if_false, Option.some.injEq, Prod.mk.injEq] at told
      obtain ⟨rfl, rfl⟩ := told
      refine ⟨imported, find?_newestFirst_eq_some_iff.mp grabbed, downloaded, ?_, ?_⟩
      · exact find?_newestFirst_eq_some_iff.mp found
      · intro eq
        exact same (beq_iff_eq.mpr eq)
  · rintro ⟨imported, h⟩
    refine ⟨grab, find?_newestFirst_eq_some_iff.mpr h.lastGrab, download, h.downloaded, imported,
      find?_newestFirst_eq_some_iff.mpr h.lastImport, ?_⟩
    simp [h.quality]

/-- What does not supersede the last grab leaves it as it was, though another import of it may have
become the newest. -/
theorem Disappointed.append (h : Disappointed history grab imported download)
    (kept : ∀ entry ∈ recorded, ¬ entry.Supersedes grab imported download) :
    ∃ imported', Disappointed (history ++ recorded) grab imported' download := by
  have lastGrab : grab.IsNewestOf ((history ++ recorded).filter (·.event == .grabbed)) := by
    rw [List.filter_append]
    apply h.lastGrab.append_of_le
    intro entry mem
    obtain ⟨new, grabbed⟩ := List.mem_filter.mp mem
    apply Decidable.byContradiction
    intro later
    exact kept entry new (.grabbed (beq_iff_eq.mp grabbed) (Instant.not_le.mp later))
  have imports := h.lastImport.append (recorded.filter (HistoryEntry.isImportOf download))
  rw [← List.filter_append] at imports
  -- An import that came later did not come out as it was grabbed either.
  rcases imports with still | ⟨later, latest, mem, lt⟩
  · exact ⟨imported, lastGrab, h.downloaded, still, h.quality⟩
  · obtain ⟨new, own⟩ := List.mem_filter.mp mem
    refine ⟨later, lastGrab, h.downloaded, latest, fun same => ?_⟩
    exact kept later new (.imported own same lt)

end

/-! ## Rejections -/

section
variable {policy : Policy} {store other : Store} {o : Offer} {c : Context} {d : Decision}
  {changes : List Change} {game : Game}

namespace Answer

theorem exists_grab_of_alreadyImported
    (refused : alreadyImported policy store.readers o ≠ .accept) :
    ∃ game told, o.game = some game ∧
      disappointingGrab? (store.historyFor game.id) = some told := by
  cases matched : o.game with
  | none => simp [alreadyImported, matched] at refused
  | some game =>
    cases found : disappointingGrab? (store.historyFor game.id) with
    | none => simp [alreadyImported, matched, Store.readers, sameDownload, found] at refused
    | some told => exact ⟨game, told, rfl, found⟩

/-- Of the history the check on imports looks at the last grab only. -/
theorem alreadyImported_of_grab (matched : o.game = some game)
    (same : disappointingGrab? (store.historyFor game.id) =
      disappointingGrab? (other.historyFor game.id)) :
    alreadyImported policy store.readers o = alreadyImported policy other.readers o := by
  simp only [alreadyImported, matched, Store.readers, sameDownload, same]

/-- When it rejects no longer, something superseded the last grab. -/
theorem superseded_of_alreadyImported
    (refused : alreadyImported policy store.readers o ≠ .accept)
    (accepts : alreadyImported policy (store.after changes).readers o = .accept) :
    ∃ game grab imported download entry, o.game = some game ∧
      Disappointed (store.history.filter (·.gameId == game.id)) grab imported download ∧
      .history entry ∈ changes ∧ entry.gameId = game.id ∧
      entry.Supersedes grab imported download := by
  obtain ⟨game, ⟨grab, download⟩, matched, told⟩ := exists_grab_of_alreadyImported refused
  rw [Store.historyFor_eq] at told
  obtain ⟨imported, before⟩ := disappointingGrab?_newestFirst.mp told
  by_cases kept : ∀ entry ∈ (changes.flatMap Change.entries).filter (·.gameId == game.id),
      ¬ entry.Supersedes grab imported download
  · have later : disappointingGrab? ((store.after changes).historyFor game.id) =
        some (grab, download) := by
      rw [Store.historyFor_eq, Store.history_after, List.filter_append]
      exact disappointingGrab?_newestFirst.mpr (before.append kept)
    have same : alreadyImported policy store.readers o =
        alreadyImported policy (store.after changes).readers o :=
      alreadyImported_of_grab matched (told.trans later.symm)
    exact absurd (same.trans accepts) refused
  · simp only [not_forall, not_not] at kept
    obtain ⟨entry, mem, supersedes⟩ := kept
    obtain ⟨new, own⟩ := List.mem_filter.mp mem
    exact ⟨game, grab, imported, download, entry, matched, before, Change.mem_of_mem_entries new,
      beq_iff_eq.mp own, supersedes⟩

end Answer

/-- A permanent rejection of what was understood is that of a check. -/
theorem Offer.exists_refusal_of_permanent {checks : List Check}
    (decided : o.decide checks c = .ok d) (permanent : d.isPermanent)
    (fit : (o.inContext c).unfit? c = none) :
    ∃ check ∈ checks, check.severity = .permanent ∧ check.run (o.inContext c) c ≠ .ok .accept ∧
      d.rejection.bind (·.check) = some check.name := by
  simp only [decide, judge, fit] at decided
  obtain ⟨outcome, consulted, rfl⟩ := Fault.map_eq_ok_iff.mp decided
  cases outcome with
  | none => cases permanent
  | some r =>
    obtain ⟨check, mem, answer, run, rejects⟩ := exists_rejects_of_consult consulted
    have severity : r.severity = .permanent := by simpa [Decision.isPermanent] using permanent
    refine ⟨check, mem_inOrder.mp mem, rejects.severity severity, ?_, rejects.check_eq⟩
    intro accepts
    exact rejects.ne_accept (Except.ok.inj (run.symm.trans accepts))

/-- **Only what supersedes the last grab undoes a permanent rejection.** If an offer that was
rejected for good is approved after more was recorded, it was rejected for an import of the last
grab, and an entry of its game that was recorded since is a later grab, or a later import in the
quality of that grab. -/
theorem Offer.superseded_of_approved (policy : Policy)
    (records : ∀ change ∈ changes, change.isRecord)
    (decided : o.decide (Check.standard policy store.readers) c = .ok d)
    (permanent : d.isPermanent)
    (approved : o.Approved policy (store.after changes).readers c) :
    d.rejection.bind (·.check) = some "AlreadyImported" ∧
      ∃ game grab imported download entry, o.game = some game ∧
        Disappointed (store.history.filter (·.gameId == game.id)) grab imported download ∧
        .history entry ∈ changes ∧ entry.gameId = game.id ∧
        entry.Supersedes grab imported download := by
  obtain ⟨understood, accepts⟩ := approved_iff.mp approved
  have fit : (o.inContext c).unfit? c = none := unfit?_eq_none_iff.mpr understood
  obtain ⟨check, mem, severity, refused, named⟩ := exists_refusal_of_permanent decided permanent fit
  rw [Check.run_inContext mem] at refused
  have within : store.Within (store.after changes) := Store.within_after records
  rcases Check.mem_permanent mem severity with rfl | rfl | rfl | rfl
  · have unblocked := accepts (.blocklist (store.after changes).readers) (by simp [Check.standard])
    exact absurd (Check.spares_blocklist within unblocked) refused
  · have flagged := accepts (.requiredFlags (store.after changes).readers)
      (by simp [Check.standard])
    exact absurd (Check.spares_requiredFlags within flagged) refused
  · have tagged := accepts (.indexerTag (store.after changes).readers) (by simp [Check.standard])
    exact absurd (Check.spares_indexerTag within tagged) refused
  -- The one check that looks at part of the history only.
  · have imported := accepts (.alreadyImported policy (store.after changes).readers)
      (by simp [Check.standard])
    refine ⟨named, Answer.superseded_of_alreadyImported ?_ (Except.ok.inj imported)⟩
    intro before
    exact refused (congrArg _ before)

end

/-! ## An import that is forgotten -/

/-- An entry of the small game. -/
def HistoryEntry.ofDownload (event : HistoryEvent) (quality : Quality) (download : String)
    (date : Instant) : HistoryEntry :=
  ⟨Game.small.id, event, download, ⟨quality, ⟨1, 0, false⟩⟩, [], none, some download, date⟩

/-- What was grabbed as retail came out as scene. -/
def Store.disappointed : Store :=
  { Store.empty with
    history := [.ofDownload .grabbed .retail "A" ⟨0, 0⟩,
      .ofDownload .downloadFolderImported .scene "A" ⟨1, 0⟩] }

/-- The next grab is another release. -/
def Change.another : Change := .history (.ofDownload .grabbed .scene "B" ⟨2, 0⟩)

/-- The release that was grabbed first. -/
def Offer.known : Offer :=
  let offered := Game.small.offered (.unversioned .retail 1 [])
  { offered with release := { offered.release with protocol := .torrent, infoHash := some "A" } }

theorem history_disappointed :
    Store.disappointed.readers.history Game.small.id =
      .ok [.ofDownload .downloadFolderImported .scene "A" ⟨1, 0⟩,
        .ofDownload .grabbed .retail "A" ⟨0, 0⟩] := by
  refine congrArg _ (newestFirst_eq_of_pairwise ?_ ?_ ?_)
  · exact .swap _ _ _
  · decide
  · decide

theorem history_another :
    (Store.disappointed.after [.another]).readers.history Game.small.id =
      .ok [.ofDownload .grabbed .scene "B" ⟨2, 0⟩,
        .ofDownload .downloadFolderImported .scene "A" ⟨1, 0⟩,
        .ofDownload .grabbed .retail "A" ⟨0, 0⟩] := by
  refine congrArg _ (newestFirst_eq_of_pairwise ?_ ?_ ?_)
  · decide
  · decide
  · decide

theorem decide_known :
    Offer.known.decide (Check.standard .default Store.disappointed.readers) (.rss ⟨86400, 0⟩) =
      .ok ⟨Offer.known.inContext (.rss ⟨86400, 0⟩), some ⟨.alreadyImportedSameHash,
        "Has same torrent hash as a grabbed and imported release", .permanent, .database,
        some "AlreadyImported"⟩⟩ := by
  have order : Check.inOrder (Check.standard .default Store.disappointed.readers) =
      (Check.firm .default Store.disappointed.readers).take 8 ++
        .alreadyImported .default Store.disappointed.readers ::
          .history .default Store.disappointed.readers ::
            .requiredFlags Store.disappointed.readers ::
              Check.passing .default Store.disappointed.readers := Check.inOrder_standard _ _
  have matched : (Offer.known.inContext (.rss ⟨86400, 0⟩)).game = some .small := rfl
  refine Offer.decide_of_rejects rfl order ?_ ?_ (.refused _ _)
  · simp only [Check.firm, List.take, List.forall_mem_cons]
    exact ⟨rfl, rfl, rfl, rfl, rfl, rfl, rfl, rfl, List.forall_mem_nil _⟩
  · simp only [Check.alreadyImported, Answer.alreadyImported, matched, history_disappointed]
    rfl

theorem approves_known :
    Offer.known.Approved .default (Store.disappointed.after [.another]).readers
      (.rss ⟨86400, 0⟩) := by
  have matched : Offer.known.game = some .small := rfl
  have parsed : Offer.known.standing? = some (.unversioned .retail 1 []) := rfl
  refine Offer.approved_iff.mpr ⟨⟨_, _, rfl, rfl⟩, ?_⟩
  simp only [Check.standard, List.forall_mem_cons]
  refine ⟨rfl, rfl, rfl, rfl, rfl, rfl, rfl, rfl, rfl, ?_, ?_, rfl, rfl, rfl,
    Check.delay_default _ _, rfl, rfl, List.forall_mem_nil _⟩
  · simp only [Check.alreadyImported, Answer.alreadyImported, matched, history_another]
    rfl
  · simp only [Check.history, Answer.history, matched, parsed, history_another]
    rfl

theorem Offer.superseded_of_approved_known :
    ∃ d, (∀ change ∈ [Change.another], change.isRecord) ∧
      Offer.known.decide (Check.standard .default Store.disappointed.readers) (.rss ⟨86400, 0⟩) =
        .ok d ∧
      d.isPermanent ∧
      Offer.known.Approved .default (Store.disappointed.after [.another]).readers
        (.rss ⟨86400, 0⟩) ∧
      d.rejection.bind (·.check) = some "AlreadyImported" ∧
      ∃ game grab imported download entry, Offer.known.game = some game ∧
        Disappointed (Store.disappointed.history.filter (·.gameId == game.id)) grab imported
          download ∧
        .history entry ∈ [Change.another] ∧ entry.gameId = game.id ∧
        entry.Supersedes grab imported download := by
  have records : ∀ change ∈ [Change.another], change.isRecord := by decide
  refine ⟨_, records, decide_known, rfl, approves_known, ?_⟩
  exact superseded_of_approved .default records decide_known rfl approves_known

/-- A release that was rejected for good is approved once another was grabbed. -/
theorem Offer.refusal_undone :
    ¬ ∀ (policy : Policy) (store : Store) (o : Offer) (c : Context) (d : Decision)
        (changes : List Change),
      (∀ change ∈ changes, change.isRecord) →
      o.decide (Check.standard policy store.readers) c = .ok d → d.isPermanent →
        ¬ o.Approved policy (store.after changes).readers c := by
  intro kept
  have records : ∀ change ∈ [Change.another], change.isRecord := by decide
  exact kept .default .disappointed .known (.rss ⟨86400, 0⟩) _ [.another] records decide_known rfl
    approves_known

end ReleaseSelection
