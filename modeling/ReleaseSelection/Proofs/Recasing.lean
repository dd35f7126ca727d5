import Mathlib.Data.List.Forall2
import ReleaseSelection.Proofs.Recording

/-!
# The case of letters

What names a release is compared without regard to the case of ASCII letters: its title and its
info hash with a block, the indexer of a torrent, the download it was known by, and the group of a
repack. The title of the last grab alone is compared to the letter, so it is there, and nowhere
else, that another spelling can change a decision (`Offer.verdict_eq_of_recased`).
-/

namespace ReleaseSelection

/-! ## Texts in another case -/

namespace Text

/-- A letter in the other case, if it is one of ASCII at all. -/
def IsRecased (c d : Char) : Prop := d = c ∨ d = c.toLower ∨ d = c.toUpper

def Recased (a b : String) : Prop := a.toList.Forall₂ IsRecased b.toList

instance : DecidableRel IsRecased := fun c d =>
  inferInstanceAs (Decidable (d = c ∨ d = c.toLower ∨ d = c.toUpper))

instance : DecidableRel Recased := fun a b =>
  inferInstanceAs (Decidable (a.toList.Forall₂ IsRecased b.toList))

theorem IsRecased.refl (c : Char) : IsRecased c c := .inl rfl

theorem Recased.refl (a : String) : Recased a a := List.forall₂_same.mpr fun c _ => .refl c

theorem IsRecased.toLower {c d : Char} (h : IsRecased c d) : d.toLower = c.toLower := by
  apply Char.toNat_inj.mp
  rcases h with rfl | rfl | rfl
  · rfl
  · simp only [toNat_toLower]
    grind
  · simp only [toNat_toLower, toNat_toUpper]
    grind

/-- No letter of ASCII is blank. -/
theorem IsRecased.isBlank {c d : Char} (h : IsRecased c d) : isBlank d = Text.isBlank c := by
  unfold Text.isBlank
  rcases h with rfl | rfl | rfl
  · rfl
  · simp only [toNat_toLower]
    grind
  · simp only [toNat_toUpper]
    grind

namespace Recased

variable {a b : String}

theorem letters (h : Recased a b) : a.toList.map Char.toLower = b.toList.map Char.toLower := by
  rw [← List.forall₂_eq_eq_eq, List.forall₂_map_left_iff, List.forall₂_map_right_iff]
  exact h.imp fun _ _ recased => recased.toLower.symm

theorem sameLetters_left (h : Recased a b) (other : String) :
    sameLetters a other = sameLetters b other := by
  simp only [sameLetters, h.letters]

theorem sameLetters_right (h : Recased a b) (other : String) :
    sameLetters other a = sameLetters other b := by
  simp only [sameLetters, h.letters]

theorem isBlankText (h : Recased a b) : isBlankText a = Text.isBlankText b := by
  unfold Text.isBlankText
  unfold Recased at h
  generalize a.toList = as, b.toList = bs at h ⊢
  induction h with
  | nil => rfl
  | cons first _ ih => rw [List.all_cons, List.all_cons, first.isBlank, ih]

end Recased

/-- Both texts are absent, or one is the other in another case. -/
abbrev RecasedIfAny : Option String → Option String → Prop := Option.Rel Recased

theorem RecasedIfAny.any_sameLetters {a b : Option String} (h : RecasedIfAny a b) (other : String) :
    a.any (sameLetters · other) = b.any (sameLetters · other) := by
  cases h with
  | none => rfl
  | some recased => exact recased.sameLetters_left other

end Text

/-! ## Offers in another case -/

/-- The names of a release in another case; the rest of it stays. -/
structure Release.Recased (r r' : Release) : Prop where
  title : Text.Recased r.title r'.title
  indexer : Text.Recased r.indexer r'.indexer
  infoHash : Text.RecasedIfAny r.infoHash r'.infoHash
  clientId : Text.RecasedIfAny r.clientId r'.clientId
  rest : r' = { r with
    title := r'.title, indexer := r'.indexer, infoHash := r'.infoHash, clientId := r'.clientId }

structure ParsedTitle.Recased (p p' : ParsedTitle) : Prop where
  group : Text.RecasedIfAny p.group p'.group
  rest : p' = { p with group := p'.group }

structure Offer.Recased (o o' : Offer) : Prop where
  release : o.release.Recased o'.release
  parsed : Option.Rel ParsedTitle.Recased o.parsed o'.parsed
  rest : o' = { o with release := o'.release, parsed := o'.parsed }

section
variable {r r' : Release} {o o' : Offer}

theorem Release.Recased.downloadIdentity (recased : r.Recased r') :
    Text.RecasedIfAny r.downloadIdentity r'.downloadIdentity := by
  have hash := recased.infoHash
  unfold Release.downloadIdentity
  generalize r.infoHash = a, r'.infoHash = b at hash ⊢
  cases hash with
  | none => exact recased.clientId
  | some same => exact .some same

theorem BlockedRelease.matchesSource_of_recased (b : BlockedRelease) (recased : r.Recased r') :
    b.matchesSource r' = b.matchesSource r := by
  have indexer := recased.indexer.sameLetters_right
  rw [recased.rest]
  simp only [matchesSource, indexer]

theorem BlockedRelease.isMatch_of_recased (b : BlockedRelease) (recased : r.Recased r') :
    b.isMatch r' = b.isMatch r := by
  have source := b.matchesSource_of_recased recased
  have title := recased.title.sameLetters_right b.sourceTitle
  have hash := recased.infoHash
  unfold isMatch
  generalize r.infoHash = offered, r'.infoHash = offered' at hash ⊢
  cases hash with
  | none => simp only [title, source]
  | some same => cases b.infoHash <;> simp only [title, source, same.sameLetters_right]

theorem Offer.Recased.revisedFile? (recased : o.Recased o') :
    Option.Rel (fun held held' => held.1 = held'.1 ∧ held.2.Recased held'.2)
      o.revisedFile? o'.revisedFile? := by
  obtain ⟨_, parsed, rest⟩ := recased
  rw [rest]
  unfold Offer.revisedFile?
  generalize o.parsed = p, o'.parsed = p' at parsed ⊢
  cases o.game with
  | none => exact .none
  | some game =>
    cases parsed with
    | none => exact .none
    | @some p p' same =>
      have quality : p'.quality = p.quality := by rw [same.rest]
      simp only [Option.bind_eq_bind, Option.bind_some, quality]
      cases game.file with
      | none => exact .none
      | some file =>
        simp only [Option.bind_some]
        split
        · exact .some ⟨rfl, same⟩
        · exact .none

end

/-! ## What the checks say -/

/-- An answer whatever the words in which it is given. -/
def Answer.wordless : Answer → Answer
  | reject reason _ => reject reason ""
  | answer => answer

def Rejection.wordless (r : Rejection) : Rejection := { r with message := "" }

/-- Why an offer was rejected, if it was, whatever the words in which it is told. -/
def Decision.verdict (d : Decision) : Option Rejection := d.rejection.map Rejection.wordless

/-- A check that says the same of two offers, though it may say it in other words. -/
def Check.SaysAlike (o o' : Offer) (c : Context) (check : Check) : Prop :=
  (check.run o c).map Answer.wordless = (check.run o' c).map Answer.wordless

section
variable {o o' : Offer} {c : Context} {checks : List Check}

theorem Check.rejection?_wordless (check : Check) {answer answer' : Answer}
    (same : answer.wordless = answer'.wordless) :
    (check.rejection? answer).map Rejection.wordless =
      (check.rejection? answer').map Rejection.wordless := by
  cases answer <;> cases answer' <;>
    simp_all [Answer.wordless, rejection?, Rejection.wordless]

theorem consult_of_saysAlike (alike : ∀ check ∈ checks, check.SaysAlike o o' c) :
    (consult o c checks).2.map (Option.map Rejection.wordless) =
      (consult o' c checks).2.map (Option.map Rejection.wordless) := by
  induction checks with
  | nil => rfl
  | cons check checks ih =>
    obtain ⟨first, rest⟩ := List.forall_mem_cons.mp alike
    unfold Check.SaysAlike at first
    simp only [consult]
    cases run : check.run o c <;> cases run' : check.run o' c <;>
      simp only [run, run', Except.map, reduceCtorEq, Except.error.injEq, Except.ok.injEq] at first
    · exact congrArg Except.error first
    · rename_i answer answer'
      have told := check.rejection?_wordless first
      cases rejected : check.rejection? answer <;> cases rejected' : check.rejection? answer' <;>
        simp only [rejected, rejected', Option.map_none, Option.map_some, reduceCtorEq] at told ⊢
      · exact ih rest
      · exact congrArg Except.ok told

/-! ## One check -/

namespace Offer.Recased

theorem game (recased : o.Recased o') : o'.game = o.game := by rw [recased.rest]

theorem isNone_parsed (recased : o.Recased o') : o'.parsed.isNone = o.parsed.isNone := by
  have parsed := recased.parsed
  generalize o.parsed = p, o'.parsed = p' at parsed ⊢
  cases parsed <;> rfl

theorem unfit? (recased : o.Recased o') : o'.unfit? c = o.unfit? c := by
  simp only [Offer.unfit?, recased.game, recased.isNone_parsed]

theorem inContext (recased : o.Recased o') (c : Context) :
    (o.inContext c).Recased (o'.inContext c) where
  release := recased.release
  parsed := recased.parsed
  rest := congrArg (·.inContext c) recased.rest

theorem isSome_revisedFile? (recased : o.Recased o') :
    o'.revisedFile?.isSome = o.revisedFile?.isSome := by
  have revised := recased.revisedFile?
  generalize o.revisedFile? = held, o'.revisedFile? = held' at revised ⊢
  cases revised <;> rfl

end Offer.Recased

namespace Answer

variable {policy : Policy} {readers : Readers} {game : Game} {parsed : ParsedTitle}

theorem blocklist_of_recased (recased : o.Recased o') :
    blocklist readers o = blocklist readers o' := by
  have block (b : BlockedRelease) := b.isMatch_of_recased recased.release
  simp only [blocklist, recased.game, block]

theorem require_wordless (condition : Bool) (reason : Reason) (message message' : String) :
    (require condition reason message).wordless = (require condition reason message').wordless := by
  cases condition <;> rfl

theorem sameGroup_of_recased {group group' : Option String}
    (recased : Text.RecasedIfAny group group') (file : Option String) :
    (sameGroup file group).wordless = (sameGroup file group').wordless := by
  unfold sameGroup
  cases isUnknownGroup file with
  | true => rfl
  | false =>
    cases recased with
    | none => rfl
    | @some group group' same =>
      simp only [isUnknownGroup, Option.all_some, same.isBlankText, Option.getD_some,
        same.sameLetters_right]
      by_cases blank : Text.isBlankText group'
      · simp only [blank, if_true]
      · simp only [blank, Bool.false_eq_true, if_false]
        exact require_wordless ..

theorem repack_of_recased (recased : o.Recased o') (propers : Propers) :
    (repack propers o).wordless = (repack propers o').wordless := by
  have revised := recased.revisedFile?
  unfold repack
  generalize o.revisedFile? = held, o'.revisedFile? = held' at revised ⊢
  cases revised with
  | none => rfl
  | @some held held' same =>
    obtain ⟨file, parsed⟩ := held
    obtain ⟨file', parsed'⟩ := held'
    obtain ⟨rfl, (recased : parsed.Recased parsed')⟩ := same
    have repack : parsed'.quality.revision.isRepack = parsed.quality.revision.isRepack := by
      rw [recased.rest]
    simp only [repack]
    cases parsed.quality.revision.isRepack with
    | false => rfl
    | true =>
      cases propers with
      | doNotPrefer => rfl
      | doNotUpgrade => rfl
      | preferAndUpgrade => exact sameGroup_of_recased recased.group file.group

theorem proper_of_recased (recased : o.Recased o') : proper policy o c = proper policy o' c := by
  have revised := recased.revisedFile?
  unfold proper
  generalize o.revisedFile? = held, o'.revisedFile? = held' at revised ⊢
  cases revised with
  | none => rfl
  | @some held held' same =>
    obtain ⟨file, parsed⟩ := held
    obtain ⟨file', parsed'⟩ := held'
    obtain ⟨rfl, _⟩ := same
    rfl

theorem delay_of_recased (recased : o.Recased o') : delay policy o c = delay policy o' c := by
  have protocol : o'.release.protocol = o.release.protocol := by rw [recased.release.rest]
  have age : o'.release.ageMinutes c.now = o.release.ageMinutes c.now := by
    rw [recased.release.rest]
    rfl
  have score : o'.score = o.score := by rw [recased.rest]
  have parsed := recased.parsed
  simp only [delay, sparesWait, recased.game, protocol, age, score, recased.isSome_revisedFile?]
  generalize o.parsed = p, o'.parsed = p' at parsed ⊢
  cases parsed with
  | none => cases o.game <;> rfl
  | some same =>
    rw [same.rest]
    cases o.game <;> cases Transport.ofProtocol? o.release.protocol <;> rfl

end Answer

theorem Check.saysAlike_of_run {check : Check} (same : check.run o c = check.run o' c) :
    check.SaysAlike o o' c := by
  unfold SaysAlike
  rw [same]

theorem Check.saysAlike_of_recased {policy : Policy} {readers : Readers} {game : Game}
    {parsed : ParsedTitle} (recased : o.Recased o') (matched : o.game = some game)
    (understood : o.parsed = some parsed)
    (imported : (alreadyImported policy readers).SaysAlike o o' c) :
    ∀ check ∈ standard policy readers, check.SaysAlike o o' c := by
  have block : (blocklist readers).SaysAlike o o' c :=
    saysAlike_of_run (congrArg _ (Answer.blocklist_of_recased recased))
  have repack : (repack policy).SaysAlike o o' c :=
    congrArg Except.ok (Answer.repack_of_recased recased policy.propers)
  have delay : (delay policy).SaysAlike o o' c :=
    saysAlike_of_run (congrArg _ (Answer.delay_of_recased recased))
  have proper : (proper policy).SaysAlike o o' c :=
    saysAlike_of_run (congrArg _ (Answer.proper_of_recased recased))
  -- The others do not look at what is recased.
  obtain ⟨⟨_, _, _, _, rest⟩, same, whole⟩ := recased
  obtain ⟨parsed', understood', title⟩ : ∃ p, o'.parsed = some p ∧ parsed.Recased p := by
    rw [understood] at same
    generalize o'.parsed = other at same
    cases same with
    | some title => exact ⟨_, rfl, title⟩
  rw [understood', title.rest, rest, matched] at whole
  have own : o = { o with parsed := some parsed, game := some game } := by
    rw [← understood, ← matched]
  simp only [standard, List.forall_mem_cons]
  refine ⟨?_, ?_, ?_, ?_, ?_, ?_, block, ?_, ?_, imported, ?_, ?_, ?_, repack, delay, proper, ?_,
    List.forall_mem_nil _⟩
  all_goals
    rw [whole, own]
    rfl

/-! ## The title of the last grab -/

/-- The title with which the check on imports compares that of the release to the letter: the last
grab came out in another quality, and the release is not the download it was known by. -/
def Offer.ComparedTitle (policy : Policy) (store : Store) (o : Offer) (title : String) : Prop :=
  policy.completedDownloadHandling ∧ ∃ game grab imported download,
    o.game = some game ∧ game.file.isSome ∧
      Disappointed (store.history.filter (·.gameId == game.id)) grab imported download ∧
      ¬ o.release.downloadIdentity.any (Text.sameLetters · download) ∧ grab.sourceTitle = title

theorem Answer.sameDownload_of_recased {r r' : Release} (recased : r.Recased r')
    {history : List HistoryEntry}
    (exact : ∀ grab download, disappointingGrab? history = some (grab, download) →
      ¬ r.downloadIdentity.any (Text.sameLetters · download) →
      (grab.sourceTitle = r.title ↔ grab.sourceTitle = r'.title)) :
    sameDownload history r = sameDownload history r' := by
  unfold sameDownload
  cases told : disappointingGrab? history with
  | none => rfl
  | some found =>
    obtain ⟨grab, download⟩ := found
    have identity := recased.downloadIdentity.any_sameLetters download
    simp only [← identity]
    split
    · rfl
    · rename_i other
      have title : (grab.sourceTitle != r.title) = (grab.sourceTitle != r'.title) := by
        rw [Bool.eq_iff_iff, bne_iff_ne, bne_iff_ne]
        exact not_congr (exact grab download told other)
      rw [title]

variable {policy : Policy} {store : Store}

theorem Check.saysAlike_alreadyImported (recased : o.Recased o')
    (exact : ∀ title, o.ComparedTitle policy store title →
      (title = o.release.title ↔ title = o'.release.title)) :
    (alreadyImported policy store.readers).SaysAlike o o' c := by
  refine saysAlike_of_run (congrArg Except.ok ?_)
  simp only [Answer.alreadyImported, recased.game, Store.readers]
  cases matched : o.game with
  | none => rfl
  | some game =>
    simp only
    split
    · rename_i looked
      obtain ⟨handled, onDisk⟩ := (Bool.and_eq_true _ _).mp looked
      apply Answer.sameDownload_of_recased recased.release
      intro grab download told other
      rw [Store.historyFor_eq] at told
      obtain ⟨imported, disappointed⟩ := disappointingGrab?_newestFirst.mp told
      apply exact
      exact ⟨handled, game, grab, imported, download, matched, onDisk, disappointed, other, rfl⟩
    · rfl

theorem Offer.verdict_eq_of_saysAlike {checks : List Check} (recased : o.Recased o') (c : Context)
    (alike : (∃ game parsed, o.game = some game ∧ o.parsed = some parsed) →
      ∀ check ∈ checks, check.SaysAlike (o.inContext c) (o'.inContext c) c) :
    (o.decide checks c).map Decision.verdict = (o'.decide checks c).map Decision.verdict := by
  simp only [decide, judge, (recased.inContext c).unfit?]
  cases fit : (o.inContext c).unfit? c with
  | some rejection => rfl
  | none =>
    have walks := consult_of_saysAlike fun check mem =>
      alike (unfit?_eq_none_iff.mp fit) check (mem_inOrder.mp mem)
    simp only
    generalize (consult (o.inContext c) c (Check.inOrder checks)).2 = verdict,
      (consult (o'.inContext c) c (Check.inOrder checks)).2 = verdict' at walks ⊢
    cases verdict <;> cases verdict' <;> exact walks

/-- **The case of letters does not matter, but for the title of the last grab.** An offer whose
title, info hash, download, indexer and release group are spelled with other capitals is approved or
rejected as before, and for the same reason, unless one spelling of the title is that of the last
grab to the letter and the other is not. -/
theorem Offer.verdict_eq_of_recased (recased : o.Recased o')
    (exact : ∀ title, o.ComparedTitle policy store title →
      (title = o.release.title ↔ title = o'.release.title)) (c : Context) :
    (o.decide (Check.standard policy store.readers) c).map Decision.verdict =
      (o'.decide (Check.standard policy store.readers) c).map Decision.verdict := by
  apply verdict_eq_of_saysAlike recased c
  rintro ⟨game, parsed, matched, understood⟩
  apply Check.saysAlike_of_recased (recased.inContext c) matched understood
  exact Check.saysAlike_alreadyImported (recased.inContext c) exact

end

/-! ## A title in small letters -/

/-- A release for the small game, of which only its title tells that it was grabbed before. -/
def Offer.titled (title : String) : Offer :=
  let offered := Game.small.offered (.unversioned .retail 1 [])
  { offered with release := { offered.release with title := title } }

/-- The release that was grabbed first, with other capitals. -/
def Offer.respelled : Offer :=
  let titled := Offer.titled "SMALL"
  { titled with release := { titled.release with protocol := .torrent, infoHash := some "a" } }

theorem Offer.recased_respelled : Offer.known.Recased .respelled where
  release :=
    { title := by decide
      indexer := .refl _
      infoHash := .some (by decide)
      clientId := .none
      rest := rfl }
  parsed := .some ⟨.none, rfl⟩
  rest := rfl

theorem Offer.recased_titled : (Offer.titled "A").Recased (.titled "a") where
  release :=
    { title := by decide
      indexer := .refl _
      infoHash := .none
      clientId := .none
      rest := rfl }
  parsed := .some ⟨.none, rfl⟩
  rest := rfl

theorem Offer.title_of_compared {o : Offer} {title : String}
    (compared : o.ComparedTitle .default .disappointed title) : title = "A" := by
  obtain ⟨_, game, grab, imported, download, _, _, disappointed, _, rfl⟩ := compared
  have all : ∀ entry ∈ Store.disappointed.history, entry.sourceTitle = "A" := by decide
  have own := (List.mem_filter.mp disappointed.lastGrab.mem).1
  exact all grab (List.mem_filter.mp own).1

/-- Neither spelling of the title is that of the last grab, so its download is known by either. -/
theorem Offer.verdict_eq_of_recased_respelled :
    Offer.known.Recased .respelled ∧
      (∀ title, Offer.known.ComparedTitle .default .disappointed title →
        (title = Offer.known.release.title ↔ title = Offer.respelled.release.title)) ∧
      (Offer.known.decide (Check.standard .default Store.disappointed.readers)
          (.rss ⟨86400, 0⟩)).map Decision.verdict =
        .ok (some ⟨.alreadyImportedSameHash, "", .permanent, .database, some "AlreadyImported"⟩) ∧
      (Offer.respelled.decide (Check.standard .default Store.disappointed.readers)
          (.rss ⟨86400, 0⟩)).map Decision.verdict =
        .ok (some
          ⟨.alreadyImportedSameHash, "", .permanent, .database, some "AlreadyImported"⟩) := by
  have exact : ∀ title, Offer.known.ComparedTitle .default .disappointed title →
      (title = Offer.known.release.title ↔ title = Offer.respelled.release.title) := by
    intro title compared
    rw [title_of_compared compared]
    decide
  have same := verdict_eq_of_recased recased_respelled exact (.rss ⟨86400, 0⟩)
  rw [decide_known] at same
  exact ⟨recased_respelled, exact, by rw [decide_known]; rfl, same.symm⟩

theorem decide_titled :
    (Offer.titled "A").decide (Check.standard .default Store.disappointed.readers)
        (.rss ⟨86400, 0⟩) =
      .ok ⟨(Offer.titled "A").inContext (.rss ⟨86400, 0⟩), some ⟨.alreadyImportedSameName,
        "Has same release name as a grabbed and imported release", .permanent, .database,
        some "AlreadyImported"⟩⟩ := by
  have order : Check.inOrder (Check.standard .default Store.disappointed.readers) =
      (Check.firm .default Store.disappointed.readers).take 8 ++
        .alreadyImported .default Store.disappointed.readers ::
          .history .default Store.disappointed.readers ::
            .requiredFlags Store.disappointed.readers ::
              Check.passing .default Store.disappointed.readers := Check.inOrder_standard _ _
  have matched : ((Offer.titled "A").inContext (.rss ⟨86400, 0⟩)).game = some .small := rfl
  refine Offer.decide_of_rejects rfl order ?_ ?_ (.refused _ _)
  · simp only [Check.firm, List.take, List.forall_mem_cons]
    exact ⟨rfl, rfl, rfl, rfl, rfl, rfl, rfl, rfl, List.forall_mem_nil _⟩
  · simp only [Check.alreadyImported, Answer.alreadyImported, matched, history_disappointed]
    rfl

theorem approves_titled :
    (Offer.titled "a").Approved .default Store.disappointed.readers (.rss ⟨86400, 0⟩) := by
  have matched : (Offer.titled "a").game = some .small := rfl
  have parsed : (Offer.titled "a").standing? = some (.unversioned .retail 1 []) := rfl
  refine Offer.approved_iff.mpr ⟨⟨_, _, rfl, rfl⟩, ?_⟩
  simp only [Check.standard, List.forall_mem_cons]
  refine ⟨rfl, rfl, rfl, rfl, rfl, rfl, rfl, rfl, rfl, ?_, ?_, rfl, rfl, rfl,
    Check.delay_default _ _, rfl, rfl, List.forall_mem_nil _⟩
  · simp only [Check.alreadyImported, Answer.alreadyImported, matched, history_disappointed]
    rfl
  · simp only [Check.history, Answer.history, matched, parsed, history_disappointed]
    rfl

/-- A release that was imported already is grabbed again when it is offered in small letters. -/
theorem Offer.approved_respelled :
    ¬ ∀ (policy : Policy) (store : Store) (o o' : Offer) (c : Context), o.Recased o' →
      (o.Approved policy store.readers c ↔ o'.Approved policy store.readers c) := by
  intro same
  have again := same .default .disappointed _ _ (.rss ⟨86400, 0⟩) recased_titled
  obtain ⟨d, decided, approved⟩ := again.mpr approves_titled
  rw [decide_titled] at decided
  cases decided
  cases approved

end ReleaseSelection
