import ReleaseSelection.Check
import ReleaseSelection.Store
import ReleaseSelection.Upgrade

/-!
# What is held already

A release must be an upgrade over the file on disk, over every download in the queue, and over a
recent grab. Each check first asks whether there is room above what is held at all.
-/

namespace ReleaseSelection

def Offer.standing? (o : Offer) : Option Standing :=
  o.parsed.map fun parsed => ⟨parsed.quality, o.formats, parsed.version⟩

/-- There is no room above what is held, and the candidate is no newer version of it. -/
def UpgradeRules.isExhausted (rules : UpgradeRules) (p : Profile) (held candidate : Standing) :
    Except Fault Bool := do
  let room ← rules.cutoffNotMet p held (some candidate.quality)
  return !room && !GameVersion.isUpgrade held.version candidate.version

namespace Answer

def overGrab (rules : UpgradeRules) (recent : Bool) (p : Profile) (grab : HistoryEntry)
    (candidate : Standing) : Except Fault Answer := do
  if ← rules.isExhausted p grab.standing candidate then
    return if recent then
      reject .historyRecentCutoffMet "Recent grab event in history already meets cutoff"
    else
      reject .historyCdhDisabledCutoffMet
        "CDH is disabled and grab event in history already meets cutoff"
  if ← rules.isUpgrade p grab.standing candidate then return accept
  return if recent then
    reject .historyHigherPreference
      ("Recent grab event in history is of equal or higher preference: " ++ grab.quality.text)
  else
    reject .historyCdhDisabledHigherPreference
      ("CDH is disabled and grab event in history is of equal or higher preference: " ++
        grab.quality.text)

/-- A grab that is not recent counts only where nothing is told of completed downloads. -/
def overHistory (policy : Policy) (p : Profile) (history : List HistoryEntry)
    (candidate : Standing) (now : Instant) : Except Fault Answer :=
  match history.head? with
  | some entry =>
    let recent := policy.isRecent now entry.date
    if entry.event == .grabbed && (recent || !policy.completedDownloadHandling) then
      overGrab policy.upgradeRules recent p entry candidate
    else .ok accept
  | none => .ok accept

def history (policy : Policy) (readers : Readers) (o : Offer) (c : Context) :
    Except Fault Answer :=
  if c.isSearch then .ok accept
  else
    match o.game, o.standing? with
    | some game, some candidate =>
      match readers.history game.id with
      | .ok entries => overHistory policy game.profile entries candidate c.now
      | .error error => .ok (failure error.message)
    | _, _ => .ok accept

def overQueued (rules : UpgradeRules) (p : Profile) (item : QueueItem) (candidate : Standing) :
    Except Fault Answer := do
  if ← rules.isExhausted p item.standing candidate then
    return reject .queueCutoffMet ("Release in queue already meets cutoff: " ++ item.quality.text)
  match ← rules.evaluate p item.standing candidate with
  | .upgrade _ => return accept
  | .notUpgrade .upgradesNotAllowed =>
    return reject .queueUpgradesNotAllowed
      "Release in queue and quality profile does not allow upgrades"
  | .notUpgrade _ =>
    return reject .queueHigherPreference
      ("Release in queue is of equal or higher preference: " ++ item.quality.text)

/-- Downloads are taken in order up to the first that is not improved on. One that is about to
fail holds nothing. -/
def overQueue (rules : UpgradeRules) (p : Profile) (candidate : Standing) :
    List QueueItem → Except Fault Answer
  | [] => .ok accept
  | item :: items =>
    if item.state == .failedPending then overQueue rules p candidate items
    else do
      match ← overQueued rules p item candidate with
      | .accept => overQueue rules p candidate items
      | answer => return answer

def queue (rules : UpgradeRules) (readers : Readers) (o : Offer) : Except Fault Answer :=
  match o.game, o.standing? with
  | some game, some candidate =>
    match readers.queue game.id with
    | .ok items => overQueue rules game.profile candidate items
    | .error error => .ok (failure error.message)
  | _, _ => .ok accept

def cutoffTitle (p : Profile) : String :=
  ((p.cutoffIndex.bind (p.items[·]?)).map (·.quality.title)).getD ""

def diskShortfall (p : Profile) (file : GameFile) : Shortfall → Except Fault Answer
  | .betterQuality =>
    .ok (reject .diskHigherPreference
      ("Existing file on disk is of equal or higher preference: " ++ file.quality.text))
  | .betterRevision =>
    .ok (reject .diskHigherRevision
      ("Existing file on disk is of equal or higher revision: " ++ file.quality.revision.text))
  | .qualityCutoff =>
    .ok (reject .diskCutoffMet
      ("Existing file on disk meets quality cutoff: " ++ p.cutoff.title))
  | .customFormatCutoff =>
    .ok (reject .diskCustomFormatCutoffMet
      ("Existing file on disk meets Custom Format cutoff: " ++
        Text.numeral p.cutoffFormatScore.val))
  | .customFormatScore => do
    let score ← p.scoreOf file.formats
    return reject .diskCustomFormatScore
      ("Existing file on disk has a equal or higher Custom Format score: " ++
        Text.numeral score.val)
  | .minCustomFormatScore =>
    .ok (reject .diskCustomFormatScoreIncrement
      ("Existing file on disk has Custom Format score within Custom Format score increment: " ++
        Text.numeral p.minUpgradeFormatScore.val))
  | .upgradesNotAllowed =>
    .ok (reject .diskUpgradesNotAllowed
      ("Existing file on disk and Quality Profile '" ++ p.name ++ "' does not allow upgrades"))

def overFile (rules : UpgradeRules) (p : Profile) (file : GameFile) (candidate : Standing) :
    Except Fault Answer := do
  if ← rules.isExhausted p file.standing candidate then
    return reject .diskCutoffMet ("Existing file meets cutoff: " ++ cutoffTitle p)
  match ← rules.evaluate p file.standing candidate with
  | .upgrade _ => return accept
  | .notUpgrade shortfall => diskShortfall p file shortfall

def disk (rules : UpgradeRules) (o : Offer) : Except Fault Answer :=
  match o.game, o.standing? with
  | some game, some candidate =>
    match game.file with
    | some file => overFile rules game.profile file candidate
    | none => .ok accept
  | _, _ => .ok accept

end Answer

namespace Check

def history (policy : Policy) (readers : Readers) : Check where
  name := "History"
  stage := .database
  run := Answer.history policy readers

def queue (policy : Policy) (readers : Readers) : Check where
  name := "Queue"
  run o _ := Answer.queue policy.upgradeRules readers o

def disk (policy : Policy) : Check where
  name := "UpgradeDisk"
  stage := .disk
  run o _ := Answer.disk policy.upgradeRules o

end Check

end ReleaseSelection
