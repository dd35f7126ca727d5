import ReleaseSelection.Game
import ReleaseSelection.Release

/-!
# Records of the library

What happened to the releases of a game, which releases are blocked, what is being downloaded,
and what is known of an indexer.
-/

namespace ReleaseSelection

inductive HistoryEvent where
  | unknown | grabbed | downloadFolderImported | downloadFailed | gameFileDeleted | gameFileRenamed
  | downloadIgnored
  deriving DecidableEq, Repr

namespace HistoryEvent

def all : List HistoryEvent :=
  [unknown, grabbed, downloadFolderImported, downloadFailed, gameFileDeleted, gameFileRenamed,
    downloadIgnored]

def name : HistoryEvent → String
  | unknown => "unknown"
  | grabbed => "grabbed"
  | downloadFolderImported => "download_folder_imported"
  | downloadFailed => "download_failed"
  | gameFileDeleted => "game_file_deleted"
  | gameFileRenamed => "game_file_renamed"
  | downloadIgnored => "download_ignored"

end HistoryEvent

instance : Named HistoryEvent := ⟨HistoryEvent.all, HistoryEvent.name⟩

inductive DownloadState where
  | downloading | importBlocked | importPending | importing | imported | failedPending | failed
  | ignored
  deriving DecidableEq, Repr

namespace DownloadState

def all : List DownloadState :=
  [downloading, importBlocked, importPending, importing, imported, failedPending, failed, ignored]

def name : DownloadState → String
  | downloading => "downloading"
  | importBlocked => "import_blocked"
  | importPending => "import_pending"
  | importing => "importing"
  | imported => "imported"
  | failedPending => "failed_pending"
  | failed => "failed"
  | ignored => "ignored"

end DownloadState

instance : Named DownloadState := ⟨DownloadState.all, DownloadState.name⟩

structure HistoryEntry where
  gameId : GameId
  event : HistoryEvent
  sourceTitle : String
  quality : QualityModel
  formats : List Format
  version : Option GameVersion
  downloadId : Option String
  date : Instant
  deriving DecidableEq, Repr

structure BlockedRelease where
  gameId : GameId
  sourceTitle : String
  protocol : Protocol
  indexer : Option String
  infoHash : Option String
  published : Option Instant
  date : Instant
  deriving DecidableEq, Repr

namespace BlockedRelease

/-- Publish dates are compared in whole minutes, up to this many. -/
def toleranceMinutes : Int := 2

/-- Torrents are told apart by their indexer, other releases by their publish date. -/
def matchesSource (b : BlockedRelease) (r : Release) : Bool :=
  if r.protocol == .torrent then
    b.indexer.all fun indexer => Text.sameLetters indexer r.indexer
  else
    b.published.all fun published =>
      (Instant.minutes (published.nanosSince r.published)).natAbs ≤ toleranceMinutes

/-- Info hashes decide where both sides have one. -/
def isMatch (b : BlockedRelease) (r : Release) : Bool :=
  match b.infoHash, r.infoHash with
  | some blocked, some offered => Text.sameLetters blocked offered
  | _, _ => Text.sameLetters b.sourceTitle r.title && b.matchesSource r

end BlockedRelease

structure QueueItem where
  gameId : GameId
  title : String
  quality : QualityModel
  formats : List Format
  version : Option GameVersion
  state : DownloadState
  downloadId : Option String
  deriving DecidableEq, Repr

structure Indexer where
  id : IndexerId
  name : String
  requiredFlags : List Flag
  tags : List Count
  priority : Score
  deriving DecidableEq, Repr

instance : DataForm HistoryEntry where
  toData h := .record
    [("game_id", toData h.gameId), ("event_type", toData h.event),
      ("source_title", toData h.sourceTitle), ("quality", toData h.quality),
      ("custom_formats", toData h.formats), ("game_version", toData h.version),
      ("download_id", toData h.downloadId), ("date", toData h.date)]
  ofData? d := do
    let m ← Members.of?
      ["game_id", "event_type", "source_title", "quality", "custom_formats", "game_version",
        "download_id", "date"] d
    return {
      gameId := ← m.required "game_id"
      event := ← m.required "event_type"
      sourceTitle := ← m.required "source_title"
      quality := ← m.required "quality"
      formats := ← m.defaulted "custom_formats" []
      version := ← m.optional "game_version"
      downloadId := ← m.optional "download_id"
      date := ← m.required "date" }

instance : DataForm BlockedRelease where
  toData b := .record
    [("game_id", toData b.gameId), ("source_title", toData b.sourceTitle),
      ("protocol", toData b.protocol), ("indexer", toData b.indexer),
      ("info_hash", toData b.infoHash), ("published", toData b.published), ("date", toData b.date)]
  ofData? d := do
    let m ← Members.of?
      ["game_id", "source_title", "protocol", "indexer", "info_hash", "published", "date"] d
    return {
      gameId := ← m.required "game_id"
      sourceTitle := ← m.required "source_title"
      protocol := ← m.required "protocol"
      indexer := ← m.optional "indexer"
      infoHash := ← m.optional "info_hash"
      published := ← m.optional "published"
      date := ← m.required "date" }

instance : DataForm QueueItem where
  toData q := .record
    [("game_id", toData q.gameId), ("title", toData q.title), ("quality", toData q.quality),
      ("custom_formats", toData q.formats), ("game_version", toData q.version),
      ("state", toData q.state), ("download_id", toData q.downloadId)]
  ofData? d := do
    let m ← Members.of?
      ["game_id", "title", "quality", "custom_formats", "game_version", "state", "download_id"] d
    return {
      gameId := ← m.required "game_id"
      title := ← m.required "title"
      quality := ← m.required "quality"
      formats := ← m.defaulted "custom_formats" []
      version := ← m.optional "game_version"
      state := ← m.required "state"
      downloadId := ← m.optional "download_id" }

instance : DataForm Indexer where
  toData i := .record
    [("id", toData i.id), ("name", toData i.name), ("required_flags", toData i.requiredFlags),
      ("tags", toData i.tags), ("priority", toData i.priority)]
  ofData? d := do
    let m ← Members.of? ["id", "name", "required_flags", "tags", "priority"] d
    return {
      id := ← m.required "id"
      name := ← m.required "name"
      requiredFlags := ← m.defaulted "required_flags" []
      tags := ← m.defaulted "tags" []
      priority := ← m.required "priority" }

end ReleaseSelection
