import ReleaseSelection.GameVersion
import ReleaseSelection.Profile

/-!
# Releases

A release as an indexer reports it, and what its title says about its contents.
-/

namespace ReleaseSelection

inductive Protocol where
  | unknown | usenet | torrent
  deriving DecidableEq, Repr

namespace Protocol

def all : List Protocol := [unknown, usenet, torrent]

def name : Protocol → String
  | unknown => "unknown"
  | usenet => "usenet"
  | torrent => "torrent"

end Protocol

instance : Named Protocol := ⟨Protocol.all, Protocol.name⟩

/-- What a release holds of a game. -/
inductive Content where
  | unknown | baseGame | baseGameWithAllDlc | expansion | dlcOnly | updateOnly | seasonPass
  deriving DecidableEq, Repr

namespace Content

def all : List Content :=
  [unknown, baseGame, baseGameWithAllDlc, expansion, dlcOnly, updateOnly, seasonPass]

def name : Content → String
  | unknown => "unknown"
  | baseGame => "base_game"
  | baseGameWithAllDlc => "base_game_with_all_dlc"
  | expansion => "expansion"
  | dlcOnly => "dlc_only"
  | updateOnly => "update_only"
  | seasonPass => "season_pass"

def title : Content → String
  | unknown => "unknown"
  | baseGame => "base game"
  | baseGameWithAllDlc => "base game with all DLC"
  | expansion => "expansion"
  | dlcOnly => "DLC only"
  | updateOnly => "update only"
  | seasonPass => "season pass"

end Content

instance : Named Content := ⟨Content.all, Content.name⟩

/-- A mark that an indexer puts on a release. -/
inductive Flag where
  | freeleech | halfleech | doubleUpload | internal | scene | approved | golden
  deriving DecidableEq, Repr

namespace Flag

def all : List Flag := [freeleech, halfleech, doubleUpload, internal, scene, approved, golden]

def name : Flag → String
  | freeleech => "freeleech"
  | halfleech => "halfleech"
  | doubleUpload => "double_upload"
  | internal => "internal"
  | scene => "scene"
  | approved => "approved"
  | golden => "golden"

end Flag

instance : Named Flag := ⟨Flag.all, Flag.name⟩

abbrev IndexerId := Uuid

/-- A lower indexer priority is preferred. -/
structure Release where
  guid : String
  title : String
  size : Size
  published : Instant
  protocol : Protocol
  indexerId : Option IndexerId
  indexer : String
  indexerPriority : Score
  flags : List Flag
  seeders : Option Count
  peers : Option Count
  infoHash : Option String
  clientId : Option String
  deriving DecidableEq, Repr

namespace Release

def ofTitle (title : String) (protocol : Protocol) (published : Instant) : Release where
  guid := title
  title := title
  size := 0
  published := published
  protocol := protocol
  indexerId := none
  indexer := ""
  indexerPriority := 25
  flags := []
  seeders := none
  peers := none
  infoHash := none
  clientId := none

/-- The nanoseconds since a release was published, none before that. -/
def age (r : Release) (now : Instant) : Int := max 0 (now.nanosSince r.published)

def ageMinutes (r : Release) (now : Instant) : Int := Instant.minutes (r.age now)

/-- The name by which a grab of the release is known to a download client. -/
def downloadIdentity (r : Release) : Option String := r.infoHash.or r.clientId

theorem age_nonneg (r : Release) (now : Instant) : 0 ≤ r.age now := Int.le_max_left ..

theorem ageMinutes_nonneg (r : Release) (now : Instant) : 0 ≤ r.ageMinutes now := by
  apply Int.tdiv_nonneg (r.age_nonneg now)
  decide

end Release

/-- What the title of a release says. -/
structure ParsedTitle where
  gameTitle : String
  quality : QualityModel
  content : Content
  platform : Platform
  languages : List Language
  version : Option GameVersion
  group : Option String
  deriving DecidableEq, Repr

def ParsedTitle.ofQuality (gameTitle : String) (quality : QualityModel) : ParsedTitle :=
  ⟨gameTitle, quality, .unknown, .unknown, [], none, none⟩

instance : DataForm Release where
  toData r := .record
    [("guid", toData r.guid), ("title", toData r.title), ("size_bytes", toData r.size),
      ("publish_date", toData r.published), ("download_protocol", toData r.protocol),
      ("indexer_id", toData r.indexerId), ("indexer", toData r.indexer),
      ("indexer_priority", toData r.indexerPriority), ("indexer_flags", toData r.flags),
      ("seeders", toData r.seeders), ("peers", toData r.peers), ("info_hash", toData r.infoHash),
      ("download_client_id", toData r.clientId)]
  ofData? d := do
    let m ← Members.of?
      ["guid", "title", "size_bytes", "publish_date", "download_protocol", "indexer_id", "indexer",
        "indexer_priority", "indexer_flags", "seeders", "peers", "info_hash",
        "download_client_id"] d
    return {
      guid := ← m.required "guid"
      title := ← m.required "title"
      size := ← m.required "size_bytes"
      published := ← m.required "publish_date"
      protocol := ← m.required "download_protocol"
      indexerId := ← m.optional "indexer_id"
      indexer := ← m.required "indexer"
      indexerPriority := ← m.required "indexer_priority"
      flags := ← m.defaulted "indexer_flags" []
      seeders := ← m.optional "seeders"
      peers := ← m.optional "peers"
      infoHash := ← m.optional "info_hash"
      clientId := ← m.optional "download_client_id" }

instance : DataForm ParsedTitle where
  toData p := .record
    [("game_title", toData p.gameTitle), ("quality", toData p.quality),
      ("content_type", toData p.content), ("platform", toData p.platform),
      ("languages", toData p.languages), ("game_version", toData p.version),
      ("release_group", toData p.group)]
  ofData? d := do
    let m ← Members.of?
      ["game_title", "quality", "content_type", "platform", "languages", "game_version",
        "release_group"] d
    return {
      gameTitle := ← m.required "game_title"
      quality := ← m.required "quality"
      content := ← m.defaulted "content_type" .unknown
      platform := ← m.defaulted "platform" .unknown
      languages := ← m.defaulted "languages" []
      version := ← m.optional "game_version"
      group := ← m.optional "release_group" }

end ReleaseSelection
