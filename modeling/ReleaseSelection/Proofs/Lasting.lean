import ReleaseSelection.Proofs.Leniency
import ReleaseSelection.Proofs.Walks

/-!
# Decisions as time passes

An approval lasts until the file has grown too old for a proper (`Offer.approval_lasts`), and a
permanent rejection for good (`Offer.refusal_lasts`). Both need that the time measured since a
release and since the last grab does not go back. It may go back within three seconds of a leap
second and only there; `Offer.approval_lapses` and `Offer.refusal_lapses` are about the last
midnight of 2016.
-/

namespace ReleaseSelection

/-! ## Measured time -/

namespace Instant

variable {since t t' : Instant}

theorem isLeap_eq_false_iff : t.isLeap = false ↔ t.nano < nanosPerSecond := by
  rw [isLeap, decide_eq_false_iff_not, Nat.not_le]

theorem recedes_of_le (le : t ≤ t') (plain : t.isLeap = false) (plain' : t'.isLeap = false)
    (plainSince : since.isLeap = false) : since.Recedes t t' := by
  rw [Recedes, nanosSince_of_not_isLeap plain plainSince,
    nanosSince_of_not_isLeap plain' plainSince]
  rw [isLeap_eq_false_iff] at plain plain'
  rw [le_def] at le
  unfold nanosPerSecond at *
  omega

/-- A leap second more or less does not make up for three seconds. -/
theorem recedes_of_far (valid : t.nano < 2 * nanosPerSecond) (far : t.second + 3 ≤ t'.second) :
    since.Recedes t t' := by
  have before : t.leapSince since ≤ 1 := by
    unfold leapSince
    split
    · exact Int.le_refl _
    · split <;> decide
  have after : 0 ≤ t'.leapSince since * nanosPerSecond + t'.nano := by
    unfold leapSince
    split
    · omega
    · split
      · rename_i leap
        have := of_decide_eq_true leap.2
        omega
      · omega
  unfold Recedes nanosSince
  unfold nanosPerSecond at *
  omega

end Instant

/-- The newest entry in the history of the game is a grab of this date. -/
def Store.LastGrab (store : Store) (o : Offer) (date : Instant) : Prop :=
  ∃ (game : Game) (entry : HistoryEntry), o.game = some game ∧
    entry.IsNewestOf (store.history.filter (·.gameId == game.id)) ∧
    entry.event = .grabbed ∧ entry.date = date

theorem Store.lastGrab_of_readers {store : Store} {o : Offer} {date : Instant}
    (last : store.readers.LastGrab o date) : store.LastGrab o date := by
  obtain ⟨game, _, entry, matched, read, newest, grabbed, dated⟩ := last
  cases read
  exact ⟨game, entry, matched, (store.mostRecentFor_eq_some_iff game.id entry).mp newest, grabbed,
    dated⟩

theorem Store.LastGrab.recorded {store : Store} {o : Offer} {date : Instant}
    (last : store.LastGrab o date) : ∃ entry ∈ store.history, entry.date = date := by
  obtain ⟨game, entry, _, ⟨before, after, all, _⟩, _, dated⟩ := last
  have mem : entry ∈ store.history.filter (·.gameId == game.id) := by
    rw [all]
    exact List.mem_append_cons_self
  exact ⟨entry, List.mem_of_mem_filter mem, dated⟩

/-! ## The last midnight of 2016 -/

/-- In the middle of the leap second before midnight. -/
def Instant.leapSecond : Instant := ⟨1483228799, 1500000000⟩

def Instant.midnight : Instant := ⟨1483228800, 0⟩

/-- Retail was grabbed just less than twelve hours before midnight. Its indexer asks for a flag. -/
def Store.grabbedAtNoon : Store where
  history := [⟨.nil, .grabbed, "Small", ⟨.retail, ⟨1, 0, false⟩⟩, [], none, none,
    ⟨1483185600, 200000000⟩⟩]
  blocklist := []
  queue := []
  indexers := [⟨.nil, "Flagged", [.freeleech], [], 25⟩]

/-- Retail without flags, from that indexer or from none. -/
def Offer.unflagged (indexer : Option IndexerId) : Offer :=
  { Offer.plain with release := { Offer.plain.release with indexerId := indexer } }

theorem history_grabbedAtNoon :
    Store.grabbedAtNoon.readers.history .nil = .ok Store.grabbedAtNoon.history := by
  have recorded : Store.grabbedAtNoon.history.filter (·.gameId == .nil) =
      Store.grabbedAtNoon.history := rfl
  have sorted : Store.grabbedAtNoon.historyFor .nil = Store.grabbedAtNoon.history := by
    rw [Store.historyFor, recorded]
    exact List.mergeSort_singleton _
  exact congrArg _ sorted

namespace Offer

variable {indexer : Option IndexerId}

theorem history_unflagged (indexer : Option IndexerId) (now : Instant) :
    Answer.history .default Store.grabbedAtNoon.readers ((unflagged indexer).inContext (.rss now))
        (.rss now) =
      Answer.overHistory .default .small Store.grabbedAtNoon.history (.unversioned .retail 1 [])
        now := by
  have matched : ((unflagged indexer).inContext (.rss now)).game =
      some (.ofTitle .nil "Small" .small) := rfl
  have parsed : ((unflagged indexer).inContext (.rss now)).standing? =
      some (.unversioned .retail 1 []) := rfl
  simp only [Answer.history, matched, parsed, Game.ofTitle, history_grabbedAtNoon]
  rfl

/-- The checks before the last grab is looked at accept the release. -/
theorem accepts_unflagged (known : indexer = none ∨ indexer = some .nil) (c : Context) :
    ∀ check ∈ (Check.firm .default Store.grabbedAtNoon.readers).take 9,
      check.run ((unflagged indexer).inContext c) c = .ok .accept := by
  rcases known with rfl | rfl
  · simp only [Check.firm, List.take, List.forall_mem_cons]
    exact ⟨rfl, rfl, rfl, rfl, rfl, rfl, rfl, rfl, rfl, List.forall_mem_nil _⟩
  · simp only [Check.firm, List.take, List.forall_mem_cons]
    exact ⟨rfl, rfl, rfl, rfl, rfl, rfl, rfl, rfl, rfl, List.forall_mem_nil _⟩

/-- In the leap second the grab is twelve hours old. -/
theorem history_leapSecond (indexer : Option IndexerId) :
    (Check.history .default Store.grabbedAtNoon.readers).run
      ((unflagged indexer).inContext (.rss .leapSecond)) (.rss .leapSecond) = .ok .accept :=
  (history_unflagged indexer .leapSecond).trans rfl

theorem approved_leapSecond :
    (unflagged none).Approved .default Store.grabbedAtNoon.readers (.rss .leapSecond) := by
  refine decide_approves_iff.mpr ⟨⟨_, _, rfl, rfl⟩, ?_⟩
  simp only [Check.standard, List.forall_mem_cons]
  exact ⟨rfl, rfl, rfl, rfl, rfl, rfl, rfl, rfl, rfl, rfl, history_leapSecond none, rfl, rfl, rfl,
    Check.delay_default _ _, rfl, rfl, List.forall_mem_nil _⟩

/-- In the leap second it is the missing flag that stands against the release. -/
theorem decide_leapSecond :
    (unflagged (some .nil)).decide (Check.standard .default Store.grabbedAtNoon.readers)
        (.rss .leapSecond) =
      .ok ⟨(unflagged (some .nil)).inContext (.rss .leapSecond), some ⟨.requiredFlags,
        "Indexer Flagged requires one of: freeleech", .permanent, .default,
        some "RequiredIndexerFlags"⟩⟩ := by
  have order : Check.inOrder (Check.standard .default Store.grabbedAtNoon.readers) =
      ((Check.firm .default Store.grabbedAtNoon.readers).take 9 ++
        [.history .default Store.grabbedAtNoon.readers]) ++
      .requiredFlags Store.grabbedAtNoon.readers ::
        Check.passing .default Store.grabbedAtNoon.readers := Check.inOrder_standard _ _
  refine decide_of_rejects rfl order ?_ rfl (.refused _ _)
  rw [List.forall_mem_append]
  exact ⟨accepts_unflagged (.inr rfl) _, List.forall_mem_singleton.mpr (history_leapSecond _)⟩

/-- By midnight the grab counts again, and it is no worse than the release. -/
theorem decide_midnight (known : indexer = none ∨ indexer = some .nil) :
    ∃ message, (unflagged indexer).decide
        (Check.standard .default Store.grabbedAtNoon.readers) (.rss .midnight) =
      .ok ⟨(unflagged indexer).inContext (.rss .midnight), some ⟨.historyHigherPreference, message,
        .temporary, .database, some "History"⟩⟩ := by
  have order : Check.inOrder (Check.standard .default Store.grabbedAtNoon.readers) =
      (Check.firm .default Store.grabbedAtNoon.readers).take 9 ++
        .history .default Store.grabbedAtNoon.readers ::
          .requiredFlags Store.grabbedAtNoon.readers ::
            Check.passing .default Store.grabbedAtNoon.readers := Check.inOrder_standard _ _
  have answered := (history_unflagged indexer .midnight).trans rfl
  exact ⟨_, decide_of_rejects rfl order (accepts_unflagged known _) answered (.refused _ _)⟩

end Offer

/-! ## Approvals -/

namespace Offer

variable {policy : Policy} {readers : Readers} {store : Store} {o : Offer} {c c' : Context}
  {d : Decision}

/-- The standard checks approve an offer, or reject it for no reason but the age of its file. -/
def ApprovedButForFileAge (policy : Policy) (readers : Readers) (c : Context) (o : Offer) : Prop :=
  ∃ d, o.decide (Check.standard policy readers) c = .ok d ∧
    (d.isApproved ∨ ∃ r, d.rejection = some r ∧ r.reason = .properForOldFile)

/-- Later a check accepts what it accepted, but for the one on propers. -/
theorem accepts_later {check : Check} (mem : check ∈ Check.standard policy readers)
    (run : check.run o c = .ok .accept) (search : c'.search = c.search)
    (release : o.release.published.Recedes c.now c'.now)
    (grab : ∀ date, readers.LastGrab o date → date.Recedes c.now c'.now) :
    check.run o c' = .ok .accept ∨
      ∃ message, check.run o c' = .ok (.reject .properForOldFile message) := by
  have searched : c.isSearch → c'.isSearch := by simp only [Context.isSearch, search, imp_self]
  have asked : c.isUserInvoked → c'.isUserInvoked := by
    simp only [Context.isUserInvoked, search, imp_self]
  rcases Check.mem_standard_iff.mp mem with firm | passing
  · exact .inl (Check.accepts_of_mem_firm firm run searched asked grab)
  · rcases Check.accepts_of_mem_passing passing run asked release with rfl | accepts
    · rcases Answer.proper_of_accepts searched (Except.ok.inj run) with accepts | old
      · exact .inl (congrArg _ accepts)
      · exact .inr ⟨_, congrArg _ old⟩
    · exact .inl accepts

theorem Approved.later (approved : o.Approved policy readers c) (search : c'.search = c.search)
    (release : o.release.published.Recedes c.now c'.now)
    (grab : ∀ date, readers.LastGrab o date → date.Recedes c.now c'.now) :
    o.ApprovedButForFileAge policy readers c' := by
  obtain ⟨understood, accepts⟩ := approved_iff.mp approved
  have answers : ∀ check ∈ Check.inOrder (Check.standard policy readers),
      check.run (o.inContext c') c' = .ok .accept ∨
        ∃ message, check.run (o.inContext c') c' = .ok (.reject .properForOldFile message) := by
    intro check mem
    rw [mem_inOrder] at mem
    rw [Check.run_inContext mem]
    exact accepts_later mem (accepts check mem) search release grab
  have fit : (o.inContext c').unfit? c' = none := unfit?_eq_none_iff.mpr understood
  obtain ⟨outcome, consulted, reasons⟩ := consult_reason answers
  have decided : o.decide (Check.standard policy readers) c' = .ok ⟨o.inContext c', outcome⟩ := by
    simp only [decide, judge, fit, consulted, Except.map]
  refine ⟨_, decided, ?_⟩
  cases outcome with
  | none => exact .inl rfl
  | some r => exact .inr ⟨r, rfl, reasons r rfl⟩

/-- **An approval lasts, but for the age of the file,** as long as neither the release nor the last
grab seems to have been nearer before. Neither does where a later time is told without leap seconds,
or is three seconds later at the least. -/
theorem approval_lasts (decided : o.decide (Check.standard policy store.readers) c = .ok d)
    (approved : d.isApproved) :
    (∀ now', o.release.published.Recedes c.now now' →
        (∀ date, store.LastGrab o date → date.Recedes c.now now') →
        o.ApprovedButForFileAge policy store.readers { c with now := now' }) ∧
      (∀ now', c.now ≤ now' → c.now.isLeap = false → now'.isLeap = false →
        o.release.published.isLeap = false → (∀ date, store.LastGrab o date → date.isLeap = false) →
        o.ApprovedButForFileAge policy store.readers { c with now := now' }) ∧
      ∀ now', c.now.nano < 2 * Instant.nanosPerSecond → c.now.second + 3 ≤ now'.second →
        o.ApprovedButForFileAge policy store.readers { c with now := now' } := by
  have lasts (now' : Instant) (release : o.release.published.Recedes c.now now')
      (grab : ∀ date, store.LastGrab o date → date.Recedes c.now now') :
      o.ApprovedButForFileAge policy store.readers { c with now := now' } :=
    Approved.later ⟨d, decided, approved⟩ rfl release
      fun date last => grab date (Store.lastGrab_of_readers last)
  refine ⟨lasts, fun now' le plain plain' release grab => ?_, fun now' valid far => ?_⟩
  · exact lasts now' (Instant.recedes_of_le le plain plain' release)
      fun date last => Instant.recedes_of_le le plain plain' (grab date last)
  · exact lasts now' (Instant.recedes_of_far valid far)
      fun date _ => Instant.recedes_of_far valid far

/-- Retail is approved for the small game, and all that may stand against it a second or a day later
is the age of the file. -/
theorem approval_lasts_retail :
    (Game.small.offered (.unversioned .retail 1 [])).Approved .default Store.small.readers
        (.rss ⟨0, 0⟩) ∧
      (Game.small.offered (.unversioned .retail 1 [])).ApprovedButForFileAge .default
        Store.small.readers (.rss ⟨1, 0⟩) ∧
      (Game.small.offered (.unversioned .retail 1 [])).ApprovedButForFileAge .default
        Store.small.readers (.rss ⟨86400, 0⟩) := by
  obtain ⟨d, decided, approved⟩ := approves_retail
  obtain ⟨_, plain, far⟩ := approval_lasts decided approved
  refine ⟨⟨d, decided, approved⟩, plain ⟨1, 0⟩ (by decide) rfl rfl rfl fun date last => ?_,
    far ⟨86400, 0⟩ (by decide) (by decide)⟩
  obtain ⟨entry, mem, rfl⟩ := last.recorded
  rw [List.mem_singleton.mp mem]
  rfl

/-- What is approved in a leap second, when the last grab counts no longer, may be rejected at
midnight, when it counts again. -/
theorem approval_lapses :
    ¬ ∀ (policy : Policy) (store : Store) (o : Offer) (c : Context) (d : Decision) (now' : Instant),
      c.now ≤ now' → o.decide (Check.standard policy store.readers) c = .ok d → d.isApproved →
        o.ApprovedButForFileAge policy store.readers { c with now := now' } := by
  intro lasts
  obtain ⟨d, decided, approved⟩ := approved_leapSecond
  obtain ⟨d', again, standing⟩ := lasts .default .grabbedAtNoon (unflagged none)
    (.rss .leapSecond) d .midnight (by decide) decided approved
  obtain ⟨message, refused⟩ := decide_midnight (.inl rfl)
  cases again.symm.trans refused
  rcases standing with approved | ⟨r, rejected, old⟩
  · cases approved
  · cases rejected
    cases old

/-! ## Permanent rejections -/

/-- What rejects for good does not look at the time. -/
theorem run_firm_later {check : Check} (mem : check ∈ Check.firm policy readers)
    (lasting : check.severity = .permanent) : check.run o c' = check.run o c := by
  rcases Check.heedless_of_mem_firm check mem with rfl | rfl | heedless
  · cases lasting
  · cases lasting
  · exact heedless o c' c

theorem decide_later (decided : o.decide (Check.standard policy readers) c = .ok d)
    (permanent : d.isPermanent) (search : c'.search = c.search) (pushed : c'.pushed = c.pushed)
    (grab : ∀ date, readers.LastGrab o date → date.Recedes c.now c'.now) :
    o.decide (Check.standard policy readers) c' = .ok d := by
  have searched : c.isSearch → c'.isSearch := by simp only [Context.isSearch, search, imp_self]
  have asked : c.isUserInvoked → c'.isUserInvoked := by
    simp only [Context.isUserInvoked, search, imp_self]
  have source : o.inContext c' = o.inContext c := by
    simp only [inContext, Context.source, search, pushed]
  have fit : (o.inContext c).unfit? c' = (o.inContext c).unfit? c := by simp only [unfit?, pushed]
  simp only [decide, judge, source, fit, Check.inOrder_standard] at decided ⊢
  cases unfit : (o.inContext c).unfit? c with
  | some r => simpa only [unfit] using decided
  | none =>
    simp only [unfit] at decided ⊢
    obtain ⟨outcome, consulted, rfl⟩ := Fault.map_eq_ok_iff.mp decided
    cases outcome with
    | none => cases permanent
    | some r =>
      have accepts : ∀ check ∈ Check.firm policy readers,
          check.run (o.inContext c) c = .ok .accept → check.run (o.inContext c) c' = .ok .accept :=
        fun check mem run => Check.accepts_of_mem_firm mem run searched asked grab
      have again := consult_permanent accepts (fun check mem => run_firm_later mem)
        Check.temporary_of_mem_passing consulted (by simpa [Decision.isPermanent] using permanent)
      exact congrArg _ again

/-- **A permanent rejection stays as it is,** as long as the last grab does not seem to have been
nearer before. -/
theorem refusal_lasts (decided : o.decide (Check.standard policy store.readers) c = .ok d)
    (permanent : d.isPermanent) :
    (∀ now', (∀ date, store.LastGrab o date → date.Recedes c.now now') →
        o.decide (Check.standard policy store.readers) { c with now := now' } = .ok d) ∧
      (∀ now', c.now ≤ now' → c.now.isLeap = false → now'.isLeap = false →
        (∀ date, store.LastGrab o date → date.isLeap = false) →
        o.decide (Check.standard policy store.readers) { c with now := now' } = .ok d) ∧
      ∀ now', c.now.nano < 2 * Instant.nanosPerSecond → c.now.second + 3 ≤ now'.second →
        o.decide (Check.standard policy store.readers) { c with now := now' } = .ok d := by
  have lasts (now' : Instant) (grab : ∀ date, store.LastGrab o date → date.Recedes c.now now') :
      o.decide (Check.standard policy store.readers) { c with now := now' } = .ok d :=
    decide_later decided permanent rfl rfl
      fun date last => grab date (Store.lastGrab_of_readers last)
  refine ⟨lasts, fun now' le plain plain' grab => ?_, fun now' valid far => ?_⟩
  · exact lasts now' fun date last => Instant.recedes_of_le le plain plain' (grab date last)
  · exact lasts now' fun date _ => Instant.recedes_of_far valid far

/-- One second after midnight and three, the flag is missing still. -/
theorem refusal_lasts_unflagged :
    ∃ d, (unflagged (some .nil)).decide (Check.standard .default Store.grabbedAtNoon.readers)
        (.rss .leapSecond) = .ok d ∧ d.isPermanent ∧
      (unflagged (some .nil)).decide (Check.standard .default Store.grabbedAtNoon.readers)
        (.rss ⟨1483228801, 0⟩) = .ok d ∧
      (unflagged (some .nil)).decide (Check.standard .default Store.grabbedAtNoon.readers)
        (.rss ⟨1483228803, 0⟩) = .ok d := by
  obtain ⟨measured, _, far⟩ := refusal_lasts decide_leapSecond rfl
  refine ⟨_, decide_leapSecond, rfl, measured ⟨1483228801, 0⟩ fun date last => ?_,
    far ⟨1483228803, 0⟩ (by decide) (by decide)⟩
  obtain ⟨entry, mem, rfl⟩ := last.recorded
  rw [List.mem_singleton.mp mem, Instant.Recedes]
  decide

/-- A missing flag is what stands against a release in a leap second, when the last grab counts no
longer, and at midnight it may be that grab. -/
theorem refusal_lapses :
    ¬ ∀ (policy : Policy) (store : Store) (o : Offer) (c : Context) (d : Decision) (now' : Instant),
      c.now ≤ now' → o.decide (Check.standard policy store.readers) c = .ok d → d.isPermanent →
        o.decide (Check.standard policy store.readers) { c with now := now' } = .ok d := by
  intro lasts
  have again := lasts .default .grabbedAtNoon (unflagged (some .nil)) (.rss .leapSecond) _ .midnight
    (by decide) decide_leapSecond rfl
  obtain ⟨message, refused⟩ := decide_midnight (.inr rfl)
  cases again.symm.trans refused

end Offer

end ReleaseSelection
