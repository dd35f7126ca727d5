import ReleaseSelection.Proofs.Sorting
import ReleaseSelection.Store

/-!
# Readings of the store

The history of a game is read newest first. Its first entry can be told from the history as it was
recorded, without sorting it (`mostRecentFor_eq_some_iff`), and so can the first one of any kind
(`find?_newestFirst_eq_some_iff`). What is recorded later comes first only if it is dated later.
-/

namespace ReleaseSelection

/-- None is newer, and those recorded before it are older. -/
def HistoryEntry.IsNewestOf (entry : HistoryEntry) (history : List HistoryEntry) : Prop :=
  ∃ before after, history = before ++ entry :: after ∧
    (∀ e ∈ before, e.date < entry.date) ∧ ∀ e ∈ after, e.date ≤ entry.date

namespace Instant

variable {a b c : Instant}

theorem not_le : ¬ a ≤ b ↔ b < a := by
  rw [le_def, lt_def]
  omega

theorem le_of_lt (lt : a < b) : a ≤ b := by
  rw [lt_def] at lt
  rw [le_def]
  omega

theorem lt_of_lt_of_le (lt : a < b) (le : b ≤ c) : a < c := by
  rw [lt_def] at *
  rw [le_def] at le
  omega

theorem lt_of_le_of_lt (le : a ≤ b) (lt : b < c) : a < c := by
  rw [lt_def] at *
  rw [le_def] at le
  omega

end Instant

/-- Entries newest first, those of one date as they were recorded. -/
def newestFirst (history : List HistoryEntry) : List HistoryEntry :=
  history.mergeSort fun a b => b.date ≤ a.date

section
variable {history : List HistoryEntry} {entry : HistoryEntry}

theorem laterFirst_trans (a b c : HistoryEntry) (hab : decide (b.date ≤ a.date))
    (hbc : decide (c.date ≤ b.date)) : decide (c.date ≤ a.date) :=
  decide_eq_true (Instant.le_trans (of_decide_eq_true hbc) (of_decide_eq_true hab))

theorem laterFirst_total (a b : HistoryEntry) :
    decide (b.date ≤ a.date) || decide (a.date ≤ b.date) := by
  simpa using Instant.le_total b.date a.date

theorem newestFirst_pairwise (history : List HistoryEntry) :
    (newestFirst history).Pairwise fun a b => b.date ≤ a.date := by
  have sorted := List.pairwise_mergeSort laterFirst_trans laterFirst_total history
  exact sorted.imp of_decide_eq_true

theorem mem_newestFirst : entry ∈ newestFirst history ↔ entry ∈ history :=
  List.mem_mergeSort

/-- Entries of different dates can be read in one order only. -/
theorem newestFirst_eq_of_pairwise {read : List HistoryEntry} (perm : history.Perm read)
    (distinct : ∀ a ∈ history, ∀ b ∈ history, a.date = b.date → a = b)
    (sorted : read.Pairwise fun a b => b.date ≤ a.date) : newestFirst history = read := by
  have same : newestFirst history = newestFirst read := by
    apply mergeSort_eq_of_perm laterFirst_trans laterFirst_total perm
    intro a ha b hb later earlier
    have dates := Instant.le_antisymm (of_decide_eq_true earlier) (of_decide_eq_true later)
    exact distinct a ha b hb dates
  rw [same]
  exact List.mergeSort_of_pairwise (sorted.imp decide_eq_true)

theorem keepsTies_newestFirst (history : List HistoryEntry) :
    KeepsTies HistoryEntry.date (newestFirst history) history := by
  apply keepsTies_mergeSort laterFirst_trans laterFirst_total
  intro a b same
  rw [same]
  exact decide_eq_true (Instant.le_refl _)

/-- The entries of one kind are read in the order in which they are read among the others. -/
theorem newestFirst_filter (p : HistoryEntry → Bool) (history : List HistoryEntry) :
    newestFirst (history.filter p) = (newestFirst history).filter p := by
  have kept : KeepsTies HistoryEntry.date (newestFirst (history.filter p)) (history.filter p) :=
    keepsTies_newestFirst _
  have among : KeepsTies HistoryEntry.date ((newestFirst history).filter p) (history.filter p) :=
    (keepsTies_newestFirst history).filter p
  have ties : KeepsTies HistoryEntry.date (newestFirst (history.filter p))
      ((newestFirst history).filter p) := fun date => (kept date).trans (among date).symm
  apply ties.eq_of_pairwise (fun later earlier => Instant.le_antisymm earlier later)
  · exact newestFirst_pairwise _
  · exact (newestFirst_pairwise history).filter p

theorem head?_newestFirst_eq_some_iff :
    (newestFirst history).head? = some entry ↔ entry.IsNewestOf history := by
  have head : (newestFirst history).head? = (newestFirst history).find? fun _ => true := by
    cases newestFirst history <;> rfl
  rw [head, newestFirst, find?_mergeSort_eq_some_iff laterFirst_trans laterFirst_total]
  simp [IsForemost, HistoryEntry.IsNewestOf, Instant.not_le]

theorem find?_newestFirst_eq_some_iff {p : HistoryEntry → Bool} :
    (newestFirst history).find? p = some entry ↔ entry.IsNewestOf (history.filter p) := by
  rw [← List.head?_filter, ← newestFirst_filter, head?_newestFirst_eq_some_iff]

theorem exists_isNewestOf (recorded : entry ∈ history) :
    ∃ newest : HistoryEntry, newest.IsNewestOf history := by
  cases first : (newestFirst history).head? with
  | none =>
    have read := mem_newestFirst.mpr recorded
    rw [List.head?_eq_none_iff.mp first] at read
    cases read
  | some newest => exact ⟨newest, head?_newestFirst_eq_some_iff.mp first⟩

namespace HistoryEntry.IsNewestOf

variable {recorded : List HistoryEntry} {later : HistoryEntry}

theorem mem (h : entry.IsNewestOf history) : entry ∈ history := by
  obtain ⟨before, after, rfl, _, _⟩ := h
  exact List.mem_append_right before List.mem_cons_self

theorem le (h : entry.IsNewestOf history) : ∀ e ∈ history, e.date ≤ entry.date := by
  obtain ⟨before, after, rfl, older, noNewer⟩ := h
  intro e mem
  rcases List.mem_append.mp mem with early | late
  · exact Instant.le_of_lt (older e early)
  · rcases List.mem_cons.mp late with rfl | behind
    · exact Instant.le_refl _
    · exact noNewer e behind

/-- What is recorded behind the newest entry without a later date leaves it the newest. -/
theorem append_of_le (h : entry.IsNewestOf history)
    (notLater : ∀ e ∈ recorded, e.date ≤ entry.date) : entry.IsNewestOf (history ++ recorded) := by
  obtain ⟨before, after, rfl, older, noNewer⟩ := h
  refine ⟨before, after ++ recorded, by simp, older, ?_⟩
  exact List.forall_mem_append.mpr ⟨noNewer, notLater⟩

theorem append_of_lt (h : entry.IsNewestOf history) (newest : later.IsNewestOf recorded)
    (lt : entry.date < later.date) : later.IsNewestOf (history ++ recorded) := by
  obtain ⟨before, after, rfl, older, noNewer⟩ := newest
  refine ⟨history ++ before, after, by simp, ?_, noNewer⟩
  rw [List.forall_mem_append]
  exact ⟨fun e mem => Instant.lt_of_le_of_lt (h.le e mem) lt, older⟩

/-- The newest entry stays the newest, or one of those recorded behind it is, with a later date. -/
theorem append (h : entry.IsNewestOf history) (recorded : List HistoryEntry) :
    entry.IsNewestOf (history ++ recorded) ∨
      ∃ later, later.IsNewestOf (history ++ recorded) ∧ later ∈ recorded ∧
        entry.date < later.date := by
  by_cases outdated : ∃ e ∈ recorded, entry.date < e.date
  · obtain ⟨e, mem, lt⟩ := outdated
    obtain ⟨later, newest⟩ := exists_isNewestOf mem
    have later_lt : entry.date < later.date := Instant.lt_of_lt_of_le lt (newest.le e mem)
    exact .inr ⟨later, h.append_of_lt newest later_lt, newest.mem, later_lt⟩
  · refine .inl (h.append_of_le fun e mem => ?_)
    apply Decidable.byContradiction
    intro lt
    exact outdated ⟨e, mem, Instant.not_le.mp lt⟩

end HistoryEntry.IsNewestOf

end

theorem Store.historyFor_eq (s : Store) (game : GameId) :
    s.historyFor game = newestFirst (s.history.filter (·.gameId == game)) := rfl

theorem Store.mostRecentFor_eq_some_iff (s : Store) (game : GameId) (entry : HistoryEntry) :
    s.mostRecentFor game = some entry ↔
      entry.IsNewestOf (s.history.filter (·.gameId == game)) := by
  rw [mostRecentFor, historyFor_eq, head?_newestFirst_eq_some_iff]

end ReleaseSelection
