import ReleaseSelection.Proofs.Admission

/-!
# What a block is held against

Info hashes decide alone where both sides have one. Otherwise the titles have to be the same, and a
torrent is then told by its indexer, any other release by its publish date. Dates are compared in
whole minutes, a part of a minute dropped, so two dates match until they are a whole minute beyond
the tolerance (`BlockedRelease.isMatch_dated_iff`). The transport that a block was recorded for
plays no part: it is held against releases of every transport (`Store.isBlocked_every_transport`).
-/

namespace ReleaseSelection

open Text

/-! ## Whole minutes -/

namespace Instant

def nanosPerMinute : Nat := 60000000000

/-- The nanoseconds between two instants, whichever of them comes first. -/
def apart (a b : Instant) : Nat := (a.nanosSince b).natAbs

/-- A leap second in between counts from both sides. -/
theorem leapSince_swap (a b : Instant) : a.leapSince b = -b.leapSince a := by
  unfold leapSince
  rcases Int.lt_trichotomy a.secondOfDay b.secondOfDay with earlier | same | later
  · have converse : ¬ b.secondOfDay < a.secondOfDay := by omega
    by_cases leap : a.isLeap <;> simp [earlier, converse, leap]
  · simp [same]
  · have converse : ¬ a.secondOfDay < b.secondOfDay := by omega
    by_cases leap : b.isLeap <;> simp [later, converse, leap]

theorem apart_comm (a b : Instant) : a.apart b = b.apart a := by
  have swap := leapSince_swap a b
  unfold apart nanosSince nanosPerSecond
  omega

/-- A limit in whole minutes is kept until one more minute is full. -/
theorem natAbs_minutes_le_iff (nanos : Int) (limit : Nat) :
    (minutes nanos).natAbs ≤ limit ↔ nanos.natAbs < (limit + 1) * nanosPerMinute := by
  have positive : 0 < nanosPerMinute := by decide
  have whole : (minutes nanos).natAbs = nanos.natAbs / nanosPerMinute := Int.natAbs_tdiv ..
  rw [whole, ← Nat.lt_succ_iff, Nat.div_lt_iff_lt_mul positive]

end Instant

namespace BlockedRelease

variable {b : BlockedRelease} {r : Release} {published : Instant}

/-- One of the info hashes is not known, so they do not decide. -/
def Unhashed (b : BlockedRelease) (r : Release) : Prop := b.infoHash = none ∨ r.infoHash = none

theorem isMatch_of_unhashed (unhashed : b.Unhashed r) :
    b.isMatch r = (sameLetters b.sourceTitle r.title && b.matchesSource r) := by
  unfold isMatch
  rcases unhashed with unknown | unknown
  · rw [unknown]
  · rw [unknown]
    cases b.infoHash <;> rfl

theorem matchesSource_of_torrent (torrent : r.protocol = .torrent) :
    b.matchesSource r = b.indexer.all fun indexer => sameLetters indexer r.indexer := by
  rw [matchesSource, torrent]
  rfl

theorem matchesSource_of_ne_torrent (other : r.protocol ≠ .torrent) :
    b.matchesSource r = b.published.all fun published =>
      (Instant.minutes (published.nanosSince r.published)).natAbs ≤ toleranceMinutes := by
  rw [matchesSource, if_neg (by simpa using other)]

/-! ## Dates -/

theorem matchesSource_dated_iff (other : r.protocol ≠ .torrent)
    (dated : b.published = some published) :
    b.matchesSource r ↔
      published.apart r.published < (toleranceMinutes + 1) * Instant.nanosPerMinute := by
  have whole := Instant.natAbs_minutes_le_iff (published.nanosSince r.published) 2
  rw [matchesSource_of_ne_torrent other, dated, Option.all_some, decide_eq_true_eq]
  unfold toleranceMinutes Instant.apart
  omega

theorem isMatch_iff_of_dated (unhashed : b.Unhashed r) (other : r.protocol ≠ .torrent)
    (dated : b.published = some published) :
    b.isMatch r ↔ sameLetters b.sourceTitle r.title ∧
      published.apart r.published < (toleranceMinutes + 1) * Instant.nanosPerMinute := by
  rw [isMatch_of_unhashed unhashed, Bool.and_eq_true, matchesSource_dated_iff other dated]

/-- **A date matches until it is a whole minute beyond the tolerance,** and it makes no difference
which of the two dates is the earlier one. -/
theorem isMatch_dated_iff (unhashed : b.Unhashed r) (other : r.protocol ≠ .torrent)
    (dated : b.published = some published) :
    (b.isMatch r ↔ sameLetters b.sourceTitle r.title ∧
      published.apart r.published < (toleranceMinutes + 1) * Instant.nanosPerMinute) ∧
      { b with published := some r.published }.isMatch { r with published := published } =
        b.isMatch r := by
  have own := isMatch_iff_of_dated unhashed other dated
  refine ⟨own, ?_⟩
  have swapped : { b with published := some r.published }.isMatch
      { r with published := published } ↔ _ := isMatch_iff_of_dated unhashed other rfl
  rw [Bool.eq_iff_iff, own, swapped, Instant.apart_comm]

/-- A usenet release that was blocked with its publish date. -/
def dated (published : Instant) : BlockedRelease :=
  ⟨.nil, "Other", .usenet, none, none, some published, ⟨0, 0⟩⟩

/-- The last nanosecond of the third minute still matches, before the release and after it, and the
next one no longer does. -/
theorem isMatch_dated_iff_lastNano :
    (dated ⟨-180, 1⟩).isMatch (.ofTitle "other" .usenet ⟨0, 0⟩) ∧
      (dated ⟨0, 0⟩).isMatch (.ofTitle "other" .usenet ⟨-180, 1⟩) ∧
      ¬ (dated ⟨-180, 0⟩).isMatch (.ofTitle "other" .usenet ⟨0, 0⟩) := by
  have unhashed (published : Instant) :
      (dated published).Unhashed (.ofTitle "other" .usenet ⟨0, 0⟩) := .inl rfl
  obtain ⟨last, swapped⟩ := isMatch_dated_iff (unhashed ⟨-180, 1⟩) (by decide) rfl
  obtain ⟨next, -⟩ := isMatch_dated_iff (unhashed ⟨-180, 0⟩) (by decide) rfl
  have held := last.mpr (by decide)
  refine ⟨held, swapped.trans held, ?_⟩
  intro held
  exact absurd (next.mp held) (by decide)

/-- A nanosecond beyond the tolerance a date matches as well as within it. -/
theorem isMatch_beyond_tolerance :
    ¬ ∀ (b : BlockedRelease) (r : Release) (published : Instant), b.Unhashed r →
      r.protocol ≠ .torrent → b.published = some published → sameLetters b.sourceTitle r.title →
        (b.isMatch r ↔
          published.apart r.published ≤ toleranceMinutes * Instant.nanosPerMinute) := by
  intro strict
  have within := (strict (dated ⟨120, 1⟩) (.ofTitle "other" .usenet ⟨0, 0⟩) ⟨120, 1⟩ (.inl rfl)
    (by decide) rfl (by decide)).mp (by decide)
  exact absurd within (by decide)

/-! ## Transports -/

/-- How a block is held against a release where info hashes do not decide. -/
structure HeldByTitle (b : BlockedRelease) (r : Release) : Prop where
  /-- For whatever transport the block was recorded, it is held against the release or is not. -/
  anyTransport : ∀ protocol, { b with protocol := protocol }.isMatch r = b.isMatch r
  title : b.isMatch r → sameLetters b.sourceTitle r.title
  torrent : r.protocol = .torrent → sameLetters b.sourceTitle r.title →
    (b.isMatch r ↔ ∀ indexer ∈ b.indexer, sameLetters indexer r.indexer)
  undated : r.protocol ≠ .torrent → sameLetters b.sourceTitle r.title → b.published = none →
    b.isMatch r
  /-- Within the tolerance a date is no objection. -/
  close : r.protocol ≠ .torrent → sameLetters b.sourceTitle r.title →
    ∀ published ∈ b.published,
      published.apart r.published ≤ toleranceMinutes * Instant.nanosPerMinute → b.isMatch r
  /-- The indexer tells torrents only. -/
  anyIndexer : r.protocol ≠ .torrent → ∀ indexer,
    { b with indexer := indexer }.isMatch r = b.isMatch r

theorem heldByTitle_of_unhashed (unhashed : b.Unhashed r) : b.HeldByTitle r where
  anyTransport _ := rfl
  title held := by
    rw [isMatch_of_unhashed unhashed, Bool.and_eq_true] at held
    exact held.1
  torrent torrent title := by
    rw [isMatch_of_unhashed unhashed, title, Bool.true_and, matchesSource_of_torrent torrent,
      Option.all_eq_true]
    rfl
  undated other title undated := by
    rw [isMatch_of_unhashed unhashed, title, Bool.true_and, matchesSource_of_ne_torrent other,
      undated]
    rfl
  close other title published dated close := by
    refine (isMatch_iff_of_dated unhashed other dated).mpr ⟨title, ?_⟩
    unfold Instant.nanosPerMinute at *
    omega
  anyIndexer other indexer := by
    have unhashed' : { b with indexer := indexer }.Unhashed r := unhashed
    rw [isMatch_of_unhashed unhashed, isMatch_of_unhashed unhashed',
      matchesSource_of_ne_torrent other, matchesSource_of_ne_torrent other]

end BlockedRelease

namespace Store

/-- The same blocks, recorded for other transports. -/
def rerecorded (s : Store) (recorded : BlockedRelease → Protocol) : Store :=
  { s with blocklist := s.blocklist.map fun b => { b with protocol := recorded b } }

theorem isBlocked_iff (s : Store) (game : GameId) (r : Release) :
    s.isBlocked game r ↔ ∃ b ∈ s.blocklist, b.gameId = game ∧ b.isMatch r := by
  simp only [isBlocked, blocklistFor, List.any_eq_true, List.mem_filter, beq_iff_eq, and_assoc]

theorem isBlocked_rerecorded (s : Store) (recorded : BlockedRelease → Protocol) (game : GameId)
    (r : Release) : (s.rerecorded recorded).isBlocked game r = s.isBlocked game r := by
  simp only [isBlocked, blocklistFor, rerecorded, List.filter_map, List.any_map]
  rfl

theorem blocklist_eq_reject_iff (s : Store) {o : Offer} {game : Game}
    (matched : o.game = some game) :
    Answer.blocklist s.readers o = .reject .blocklisted "Release is blocklisted" ↔
      s.isBlocked game.id o.release := by
  have asked : Answer.blocklist s.readers o =
      .require (!s.isBlocked game.id o.release) .blocklisted "Release is blocklisted" := by
    simp only [Answer.blocklist, matched]
    rfl
  rw [asked]
  cases s.isBlocked game.id o.release <;> decide

/-- **A block is held against releases of every transport.** Whether a release is blocked for a game
does not hang on the transports that its blocks were recorded for. -/
theorem isBlocked_every_transport (s : Store) (r : Release) :
    (∀ b : BlockedRelease, b.Unhashed r → b.HeldByTitle r) ∧
      (∀ game, s.isBlocked game r ↔ ∃ b ∈ s.blocklist, b.gameId = game ∧ b.isMatch r) ∧
      (∀ recorded game, (s.rerecorded recorded).isBlocked game r = s.isBlocked game r) ∧
      ∀ (o : Offer) (game : Game), o.release = r → o.game = some game →
        (Answer.blocklist s.readers o = .reject .blocklisted "Release is blocklisted" ↔
          s.isBlocked game.id r) := by
  refine ⟨fun b => b.heldByTitle_of_unhashed, fun game => s.isBlocked_iff game r,
    fun recorded game => s.isBlocked_rerecorded recorded game r, ?_⟩
  rintro o game rfl matched
  exact s.blocklist_eq_reject_iff matched

/-- A torrent is turned down for a block of a usenet release as for one of a torrent. -/
theorem isBlocked_every_transport_small :
    ∃ b ∈ small.blocklist, b.protocol = .usenet ∧
      b.HeldByTitle (.ofTitle "other" .torrent ⟨0, 0⟩) ∧
      (small.rerecorded fun _ => .torrent).isBlocked Game.small.id
        (.ofTitle "other" .torrent ⟨0, 0⟩) ∧
      Answer.blocklist small.readers { Game.small.offered (.unversioned .retail 1 []) with
        release := .ofTitle "other" .torrent ⟨0, 0⟩ } =
          .reject .blocklisted "Release is blocklisted" := by
  obtain ⟨held, blocked, recorded, turnedDown⟩ :=
    isBlocked_every_transport small (.ofTitle "other" .torrent ⟨0, 0⟩)
  have other : small.isBlocked Game.small.id (.ofTitle "other" .torrent ⟨0, 0⟩) :=
    (blocked _).mpr ⟨_, List.mem_singleton.mpr rfl, rfl, by decide⟩
  exact ⟨_, List.mem_singleton.mpr rfl, rfl, held _ (.inl rfl), (recorded _ _).trans other,
    (turnedDown _ .small rfl rfl).mpr other⟩

end Store

/-- A block of a torrent matches a usenet release of its title. -/
theorem BlockedRelease.isMatch_other_transport :
    ¬ ∀ (b : BlockedRelease) (r : Release), b.Unhashed r → b.protocol ≠ .unknown →
      r.protocol ≠ .unknown → b.protocol ≠ r.protocol → b.isMatch r = false := by
  intro own
  have spared := own ⟨.nil, "Other", .torrent, none, none, none, ⟨0, 0⟩⟩
    (.ofTitle "other" .usenet ⟨0, 0⟩) (.inl rfl) (by decide) (by decide) (by decide)
  exact absurd spared (by decide)

end ReleaseSelection
