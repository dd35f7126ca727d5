import ReleaseSelection.Proofs.Admission
import ReleaseSelection.Proofs.Standard

/-!
# Contexts that ask for less

Four checks look at the context: they spare searches, or those that a user asked for, and they
measure the time since the last grab, since the release and since the file. For each of them it is
said here from which context to which its acceptance carries over. Where the time is the same they
order the contexts by how deliberate a request is (`Offer.approved_of_deliberate`).
-/

namespace ReleaseSelection

/-! ## Time that has passed -/

namespace Instant

/-- No less time has passed since an instant at `t'` than at `t`. -/
def Recedes (since t t' : Instant) : Prop := t.nanosSince since ≤ t'.nanosSince since

theorem recedes_refl (since t : Instant) : since.Recedes t t := Int.le_refl _

end Instant

section
variable {t t' : Instant}

theorem Policy.isRecent_of_recedes {policy : Policy} {date : Instant} (recedes : date.Recedes t t')
    (recent : policy.isRecent t' date) : policy.isRecent t date := by
  simp only [isRecent, Option.all_eq_true, decide_eq_true_eq] at recent ⊢
  intro window bounded
  exact Int.lt_of_le_of_lt recedes (recent window bounded)

theorem Release.ageMinutes_le {release : Release} (recedes : release.published.Recedes t t') :
    release.ageMinutes t ≤ release.ageMinutes t' := by
  have older : release.age t ≤ release.age t' := by
    unfold Instant.Recedes at recedes
    unfold age
    omega
  have positive := release.age_nonneg
  rw [ageMinutes, ageMinutes, Instant.minutes, Instant.minutes,
    Int.tdiv_eq_ediv_of_nonneg (positive t), Int.tdiv_eq_ediv_of_nonneg (positive t')]
  exact Int.ediv_le_ediv (by decide) older

end

/-! ## The checks that look at the context -/

/-- The history of the game begins with a grab of this date. -/
def Readers.LastGrab (readers : Readers) (o : Offer) (date : Instant) : Prop :=
  ∃ game entries entry, o.game = some game ∧ readers.history game.id = .ok entries ∧
    entries.head? = some entry ∧ entry.event = .grabbed ∧ entry.date = date

namespace Answer

variable {policy : Policy} {readers : Readers} {o : Offer} {c c' : Context}

theorem monitored_of_userInvoked (userInvoked : c.isUserInvoked → c'.isUserInvoked)
    (accepts : monitored o c = .accept) : monitored o c' = .accept := by
  cases matched : o.game with
  | none => simp only [monitored, matched]
  | some game =>
    rw [monitored_eq_accept_iff matched] at accepts ⊢
    exact accepts.imp_right userInvoked

theorem history_of_recedes (search : c.isSearch → c'.isSearch)
    (grab : ∀ date, readers.LastGrab o date → date.Recedes c.now c'.now)
    (accepts : history policy readers o c = .ok .accept) :
    history policy readers o c' = .ok .accept := by
  cases feed' : c'.isSearch with
  | true => simp only [history, feed', if_true]
  | false =>
    have feed : c.isSearch = false := Bool.eq_false_iff.mpr fun h => by simp [search h] at feed'
    cases matched : o.game with
    | none => simp only [history, feed', matched, Bool.false_eq_true, if_false]
    | some game =>
      cases understood : o.standing? with
      | none => simp only [history, feed', matched, understood, Bool.false_eq_true, if_false]
      | some candidate =>
        cases read : readers.history game.id with
        | error error => simp [history, feed, matched, understood, read] at accepts
        | ok entries =>
          rw [history_eq_accept_iff feed' matched understood read]
          intro entry newest grabbed counts
          have recedes :=
            grab entry.date ⟨game, entries, entry, matched, read, newest, grabbed, rfl⟩
          have clears := (history_eq_accept_iff feed matched understood read).mp accepts
          exact clears entry newest grabbed (counts.imp_left (Policy.isRecent_of_recedes recedes))

theorem delay_eq_accept_iff :
    delay policy o c = .accept ↔ c.isUserInvoked ∨
      ∀ game parsed transport, o.game = some game → o.parsed = some parsed →
        Transport.ofProtocol? o.release.protocol = some transport →
        transport = (policy.delayProfileFor game.tags).preferred ∧
            sparesWait policy (policy.delayProfileFor game.tags) o game.profile
              parsed.quality.quality ∨
          ((policy.delayProfileFor game.tags).delay transport).val ≤
            o.release.ageMinutes c.now := by
  unfold delay
  cases c.isUserInvoked with
  | true => simp
  | false =>
    cases o.game <;> cases o.parsed <;> cases Transport.ofProtocol? o.release.protocol <;>
      simp [require_eq_accept_iff]

theorem delay_of_recedes (userInvoked : c.isUserInvoked → c'.isUserInvoked)
    (release : o.release.published.Recedes c.now c'.now) (accepts : delay policy o c = .accept) :
    delay policy o c' = .accept := by
  refine delay_eq_accept_iff.mpr ((delay_eq_accept_iff.mp accepts).imp userInvoked ?_)
  intro waits game parsed transport matched understood known
  refine (waits game parsed transport matched understood known).imp_right fun waited => ?_
  exact Int.le_trans waited (Release.ageMinutes_le release)

/-- Where a search does not spare it, a proper has to be asked for and its file to be new. -/
theorem proper_eq_accept_iff :
    proper policy o c = .accept ↔ c.isSearch ∨
      ∀ held, o.revisedFile? = some held → policy.propers = .doNotPrefer ∨
        policy.propers = .preferAndUpgrade ∧ policy.isOldFile c.now held.1.added = false := by
  unfold proper
  cases c.isSearch with
  | true => simp
  | false => cases o.revisedFile? <;> cases policy.propers <;> simp [require_eq_accept_iff]

theorem proper_of_search (search : c.isSearch → c'.isSearch) (same : c'.now = c.now)
    (accepts : proper policy o c = .accept) : proper policy o c' = .accept := by
  rw [proper_eq_accept_iff, same]
  exact (proper_eq_accept_iff.mp accepts).imp_left search

/-- Only the age of the file may come to speak against a proper. -/
theorem proper_of_accepts (search : c.isSearch → c'.isSearch)
    (accepts : proper policy o c = .accept) :
    proper policy o c' = .accept ∨
      proper policy o c' = .reject .properForOldFile "Proper for old file" := by
  cases feed : c'.isSearch with
  | true => exact .inl (proper_eq_accept_iff.mpr (.inl feed))
  | false =>
    cases revised : o.revisedFile? with
    | none => exact .inl (by simp [proper, feed, revised])
    | some held =>
      have asked := (proper_eq_accept_iff.mp accepts).resolve_left
        (fun searched => by simp [search searched] at feed) held revised
      rcases asked with ignored | ⟨preferred, _⟩
      · exact .inl (by simp [proper, feed, revised, ignored])
      · cases old : policy.isOldFile c'.now held.1.added with
        | true => exact .inr (by simp [proper, feed, revised, preferred, old, require])
        | false => exact .inl (by simp [proper, feed, revised, preferred, old, require])

end Answer

/-! ## From one context to another -/

namespace Check

variable {policy : Policy} {readers : Readers} {o : Offer} {c c' : Context} {check : Check}

theorem accepts_of_mem_firm (mem : check ∈ firm policy readers) (run : check.run o c = .ok .accept)
    (search : c.isSearch → c'.isSearch) (userInvoked : c.isUserInvoked → c'.isUserInvoked)
    (grab : ∀ date, readers.LastGrab o date → date.Recedes c.now c'.now) :
    check.run o c' = .ok .accept := by
  rcases heedless_of_mem_firm check mem with rfl | rfl | heedless
  · exact congrArg _ (Answer.monitored_of_userInvoked userInvoked (Except.ok.inj run))
  · exact Answer.history_of_recedes search grab run
  · exact (heedless o c' c).trans run

/-- The check on propers alone grows stricter as time passes. -/
theorem accepts_of_mem_passing (mem : check ∈ passing policy readers)
    (run : check.run o c = .ok .accept) (userInvoked : c.isUserInvoked → c'.isUserInvoked)
    (release : o.release.published.Recedes c.now c'.now) :
    check = proper policy ∨ check.run o c' = .ok .accept := by
  rcases heedless_of_mem_passing check mem with rfl | rfl | heedless
  · exact .inr (congrArg _ (Answer.delay_of_recedes userInvoked release (Except.ok.inj run)))
  · exact .inl rfl
  · exact .inr ((heedless o c' c).trans run)

end Check

/-! ## How deliberate a request is -/

namespace Offer

variable {policy : Policy} {readers : Readers} {o : Offer} {c c' : Context}

theorem Approved.of_search (approved : o.Approved policy readers c)
    (search : c.isSearch → c'.isSearch) (userInvoked : c.isUserInvoked → c'.isUserInvoked)
    (same : c'.now = c.now) : o.Approved policy readers c' := by
  obtain ⟨understood, accepts⟩ := approved_iff.mp approved
  refine approved_iff.mpr ⟨understood, fun check mem => ?_⟩
  have run := accepts check mem
  have still (since : Instant) : since.Recedes c.now c'.now := by
    rw [same]
    exact since.recedes_refl c.now
  rcases Check.mem_standard_iff.mp mem with firm | passing
  · exact Check.accepts_of_mem_firm firm run search userInvoked fun date _ => still date
  · rcases Check.accepts_of_mem_passing passing run userInvoked (still _) with rfl | accepts
    · exact congrArg _ (Answer.proper_of_search search same (Except.ok.inj run))
    · exact accepts

/-- **A more deliberate request is treated no more strictly.** What is approved from a feed is
approved when it is pushed, and the other way round; it is approved in any search, and what is
approved in a search that no user asked for, in every search that a user did ask for. Whether a
search is interactive makes no difference. -/
theorem approved_of_deliberate (policy : Policy) (readers : Readers) (o : Offer) (now : Instant) :
    (o.Approved policy readers (.rss now) ↔ o.Approved policy readers ⟨none, true, now⟩) ∧
      (o.Approved policy readers (.rss now) → ∀ interactive pushed,
        o.Approved policy readers ⟨some ⟨false, interactive⟩, pushed, now⟩) ∧
      (∀ interactive pushed, o.Approved policy readers ⟨some ⟨false, interactive⟩, pushed, now⟩ →
        ∀ interactive' pushed',
          o.Approved policy readers ⟨some ⟨true, interactive'⟩, pushed', now⟩) ∧
      ∀ userInvoked pushed,
        o.Approved policy readers ⟨some ⟨userInvoked, false⟩, pushed, now⟩ ↔
          o.Approved policy readers ⟨some ⟨userInvoked, true⟩, pushed, now⟩ := by
  refine ⟨⟨fun approved => ?_, fun approved => ?_⟩, fun approved _ _ => ?_,
    fun _ _ approved _ _ => ?_, fun _ _ => ⟨fun approved => ?_, fun approved => ?_⟩⟩
  · exact approved.of_search id id rfl
  · exact approved.of_search id id rfl
  · exact approved.of_search nofun nofun rfl
  · exact approved.of_search (fun _ => rfl) nofun rfl
  · exact approved.of_search id id rfl
  · exact approved.of_search id id rfl

/-- Retail is approved for the small game from a feed, and so it is in every other way. -/
theorem approved_of_deliberate_retail :
    (Game.small.offered (.unversioned .retail 1 [])).Approved .default Store.small.readers
        (.rss ⟨0, 0⟩) ∧
      (Game.small.offered (.unversioned .retail 1 [])).Approved .default Store.small.readers
        ⟨none, true, ⟨0, 0⟩⟩ ∧
      ∀ userInvoked interactive pushed,
        (Game.small.offered (.unversioned .retail 1 [])).Approved .default Store.small.readers
          ⟨some ⟨userInvoked, interactive⟩, pushed, ⟨0, 0⟩⟩ := by
  obtain ⟨push, search, user, _⟩ := approved_of_deliberate .default Store.small.readers
    (Game.small.offered (.unversioned .retail 1 [])) ⟨0, 0⟩
  have feed := approves_retail
  refine ⟨feed, push.mp feed, fun userInvoked interactive pushed => ?_⟩
  cases userInvoked with
  | false => exact search feed interactive pushed
  | true => exact user false false (search feed false false) interactive pushed

end Offer

end ReleaseSelection
