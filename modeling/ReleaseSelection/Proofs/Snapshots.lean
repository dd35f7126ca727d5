import ReleaseSelection.Proofs.Recording

/-!
# What a store tells of its past

A store is changed fact by fact, and snapshots of it are taken in between. `Store.Keeps` says what
it holds after a list of changes, one step at a time (`Store.Keeps.apply`), and `Store.Tells` says
what every reading of it comes to. A snapshot goes on telling what the store told when it was taken,
whatever happens later (`Session.tells_after`). A fixture is stored by such changes as well.
-/

namespace ReleaseSelection

/-! ## Changes -/

namespace Change

/-- What a change adds to the blocklist. -/
def blocks : Change → List BlockedRelease
  | .block entry => [entry]
  | .history _ | .queue _ | .indexer _ => []

/-- The queue, if the change tells it anew. -/
def queue? : Change → Option (List QueueItem)
  | .queue items => some items
  | .history _ | .block _ | .indexer _ => none

/-- The indexers that a change defines, for the first time or again. -/
def definitions : Change → List Indexer
  | .indexer definition => [definition]
  | .history _ | .block _ | .queue _ => []

/-- The queue that was told last, or the one from before these changes. -/
def lastQueue (queue : List QueueItem) (changes : List Change) : List QueueItem :=
  (changes.filterMap queue?).getLastD queue

end Change

/-- The changes by which the records of a fixture are stored. -/
def Fixture.changes (f : Fixture) : List Change :=
  f.history.map .history ++ f.blocklist.map .block ++ [.queue f.queue] ++ f.indexers.map .indexer

theorem Fixture.store_eq (f : Fixture) : f.store = Store.empty.after f.changes := by
  simp only [store, Store.after, changes, List.foldl_append, List.foldl_map, List.foldl_cons,
    List.foldl_nil]
  rfl

/-! ## What is kept -/

/-- The definition that was given last for an identifier. -/
def Indexer.last? (id : IndexerId) (definitions : List Indexer) : Option Indexer :=
  (definitions.filter (·.id == id)).getLast?

/-- What a store holds of the facts that were recorded, in the order of recording. -/
structure Store.Keeps (s : Store) (history : List HistoryEntry) (blocklist : List BlockedRelease)
    (queue : List QueueItem) (indexers : List Indexer) : Prop where
  history : s.history = history
  blocklist : s.blocklist = blocklist
  queue : s.queue = queue
  indexers : ∀ id, s.indexer? id = Indexer.last? id indexers

section
variable {s : Store} {history : List HistoryEntry} {blocklist : List BlockedRelease}
  {queue : List QueueItem} {indexers : List Indexer}

theorem Indexer.last?_concat (id : IndexerId) (definitions : List Indexer) (indexer : Indexer) :
    last? id (definitions ++ [indexer]) =
      if indexer.id = id then some indexer else last? id definitions := by
  unfold last?
  by_cases own : indexer.id = id
  · simp [own]
  · simp [own]

namespace Store

theorem keeps_empty : empty.Keeps [] [] [] [] := ⟨rfl, rfl, rfl, fun _ => rfl⟩

/-- One change adds its own facts and leaves what was kept of the other kinds. -/
theorem Keeps.apply (h : s.Keeps history blocklist queue indexers) (change : Change) :
    (s.apply change).Keeps (history ++ change.entries) (blocklist ++ change.blocks)
      (change.queue?.getD queue) (indexers ++ change.definitions) := by
  have kept : s.Keeps (history ++ []) (blocklist ++ []) queue (indexers ++ []) := by
    rw [List.append_nil, List.append_nil, List.append_nil]
    exact h
  cases change with
  | history entry => exact { kept with history := congrArg (· ++ [entry]) h.history }
  | block entry => exact { kept with blocklist := congrArg (· ++ [entry]) h.blocklist }
  | queue items => exact { kept with queue := rfl }
  | indexer indexer =>
    refine { kept with indexers := fun id => ?_ }
    have upserted := s.indexer?_upsertIndexer indexer id
    rw [h.indexers] at upserted
    exact upserted.trans (Indexer.last?_concat id indexers indexer).symm

theorem Keeps.after (h : s.Keeps history blocklist queue indexers) (changes : List Change) :
    (s.after changes).Keeps (history ++ changes.flatMap Change.entries)
      (blocklist ++ changes.flatMap Change.blocks) (Change.lastQueue queue changes)
      (indexers ++ changes.flatMap Change.definitions) := by
  induction changes generalizing s history blocklist queue indexers with
  | nil => simpa [Store.after, Change.lastQueue] using h
  | cons change changes ih =>
    have later := ih (h.apply change)
    have last : Change.lastQueue (change.queue?.getD queue) changes =
        Change.lastQueue queue (change :: changes) := by
      unfold Change.lastQueue
      rw [List.filterMap_cons]
      cases change.queue? with
      | none => rfl
      | some items => exact List.getLastD_cons.symm
    rw [List.append_assoc, List.append_assoc, List.append_assoc, last] at later
    exact later

/-- A fixture is stored with its records as they are listed. -/
theorem keeps_fixture (f : Fixture) :
    f.store.Keeps f.history f.blocklist f.queue f.indexers := by
  have none {α β : Type} (as : List α) : as.flatMap (fun _ => ([] : List β)) = [] :=
    List.flatMap_eq_nil_iff.mpr fun _ _ => rfl
  have stored := keeps_empty.after f.changes
  rw [← f.store_eq] at stored
  simpa [Fixture.changes, Change.entries, Change.blocks, Change.definitions, Change.lastQueue,
    Change.queue?, List.flatMap_map, List.filterMap_map, Function.comp_def, none] using stored

end Store

/-! ## What is told -/

/-- All of the entries newest first, those of one date in the order of recording. -/
structure HistoryEntry.NewestFirst (recorded read : List HistoryEntry) : Prop where
  perm : read.Perm recorded
  sorted : read.Pairwise fun a b => b.date ≤ a.date
  ties : ∀ date, read.filter (·.date == date) = recorded.filter (·.date == date)

theorem newestFirst_eq_iff {recorded read : List HistoryEntry} :
    newestFirst recorded = read ↔ HistoryEntry.NewestFirst recorded read := by
  have ties : KeepsTies HistoryEntry.date (newestFirst recorded) recorded :=
    keepsTies_newestFirst recorded
  have sorted := newestFirst_pairwise recorded
  constructor
  · rintro rfl
    exact ⟨ties.perm, sorted, ties⟩
  · intro h
    have same : KeepsTies HistoryEntry.date (newestFirst recorded) read :=
      fun date => (ties date).trans (h.ties date).symm
    exact same.eq_of_pairwise (fun later earlier => Instant.le_antisymm earlier later) sorted
      h.sorted

/-- What the readings of a store come to, told from the facts that were recorded. -/
structure Store.Tells (s : Store) (history : List HistoryEntry) (blocklist : List BlockedRelease)
    (queue : List QueueItem) (indexers : List Indexer) : Prop where
  historyFor : ∀ game read, s.readers.history game = .ok read ↔
    HistoryEntry.NewestFirst (history.filter (·.gameId == game)) read
  mostRecent : ∀ game entry, s.mostRecentFor game = some entry ↔
    entry.IsNewestOf (history.filter (·.gameId == game))
  blocklistFor : ∀ game, s.readers.blocklist game = .ok (blocklist.filter (·.gameId == game))
  isBlocked : ∀ game release, s.isBlocked game release ↔
    ∃ entry ∈ blocklist, entry.gameId = game ∧ entry.isMatch release
  wholeQueue : s.queue = queue
  queueFor : ∀ game, s.readers.queue game = .ok (queue.filter (·.gameId == game))
  indexer : ∀ id, s.readers.indexer id = .ok (Indexer.last? id indexers)

theorem Store.Keeps.tells (h : s.Keeps history blocklist queue indexers) :
    s.Tells history blocklist queue indexers := by
  obtain ⟨rfl, rfl, rfl, known⟩ := h
  constructor
  · intro game read
    rw [← newestFirst_eq_iff, ← s.historyFor_eq]
    exact ⟨Except.ok.inj, congrArg Except.ok⟩
  · exact s.mostRecentFor_eq_some_iff
  · exact fun _ => rfl
  · intro game release
    simp [isBlocked, blocklistFor]
  · rfl
  · exact fun _ => rfl
  · exact fun id => congrArg Except.ok (known id)

end

/-! ## Snapshots -/

namespace Session

/-- What happens to the store of a session. -/
inductive Act where
  | record (change : Change)
  | snapshot

def perform (s : Session) : Act → Session
  | .record change => s.record change
  | .snapshot => s.snapshot

def after (s : Session) (acts : List Act) : Session := acts.foldl perform s

def Act.change? : Act → Option Change
  | .record change => some change
  | .snapshot => none

def changes (acts : List Act) : List Change := acts.filterMap Act.change?

variable (s : Session) (acts : List Act)

theorem store_after : (s.after acts).store = s.store.after (changes acts) := by
  induction acts generalizing s with
  | nil => rfl
  | cons act acts ih =>
    have later := ih (s.perform act)
    cases act with
    | record change => exact later
    | snapshot => exact later

/-- Snapshots are added behind those that were taken before. -/
theorem snapshots_after : s.snapshots <+: (s.after acts).snapshots := by
  induction acts generalizing s with
  | nil => exact List.prefix_refl _
  | cons act acts ih =>
    have later := ih (s.perform act)
    cases act with
    | record change => exact later
    | snapshot => exact (List.prefix_append _ _).trans later

/-- A snapshot stays what the store was when it was taken. -/
theorem storeAt?_snapshot :
    (s.after (.snapshot :: acts)).storeAt? (some s.snapshots.length) = some s.store := by
  have taken : s.snapshots ++ [s.store] <+: (s.after (.snapshot :: acts)).snapshots :=
    s.snapshot.snapshots_after acts
  obtain ⟨later, all⟩ := taken
  rw [storeAt?, ← all, List.append_assoc, List.getElem?_append_right (Nat.le_refl _), Nat.sub_self]
  rfl

/-- **Every reading tells all that was recorded, and a snapshot goes on telling what was recorded
before it.** In a session that begins with the records of a fixture, after whatever was recorded and
however many snapshots were taken, the store and a snapshot that is taken of it are one store, what
they tell is given by the records of the fixture and the changes so far, and nothing that follows
changes it for the snapshot. Before the first change they are the records of the fixture. -/
theorem tells_after (policy : Policy) (f : Fixture) (c : Context) (acts later : List Act) :
    (start policy f c).store.Tells f.history f.blocklist f.queue f.indexers ∧
      ∃ store, ((start policy f c).after acts).storeAt? none = some store ∧
        (((start policy f c).after acts).after (.snapshot :: later)).storeAt?
          (some ((start policy f c).after acts).snapshots.length) = some store ∧
        store.Tells (f.history ++ (changes acts).flatMap Change.entries)
          (f.blocklist ++ (changes acts).flatMap Change.blocks)
          (Change.lastQueue f.queue (changes acts))
          (f.indexers ++ (changes acts).flatMap Change.definitions) := by
  have stored : (start policy f c).store.Keeps f.history f.blocklist f.queue f.indexers :=
    Store.keeps_fixture f
  refine ⟨stored.tells, _, rfl, storeAt?_snapshot _ later, ?_⟩
  rw [store_after]
  exact (stored.after (changes acts)).tells

end Session

end ReleaseSelection
