import ReleaseSelection.GameVersion
import ReleaseSelection.Profile

/-!
# Games of the library

A game has a profile and perhaps a file on disk.
-/

namespace ReleaseSelection

abbrev GameId := Uuid

abbrev FileId := Uuid

structure GameFile where
  id : FileId
  quality : QualityModel
  formats : List Format
  version : Option GameVersion
  group : Option String
  size : Size
  added : Instant
  deriving DecidableEq, Repr

/-- The runtime is a typical play-through in minutes. -/
structure Game where
  id : GameId
  title : String
  monitored : Bool
  profile : Profile
  tags : List Count
  originalLanguage : Language
  runtime : Count
  file : Option GameFile
  deriving DecidableEq, Repr

def GameFile.ofQuality (id : FileId) (added : Instant) (quality : QualityModel) : GameFile :=
  ⟨id, quality, [], none, none, 0, added⟩

def Game.ofTitle (id : GameId) (title : String) (profile : Profile) : Game :=
  ⟨id, title, true, profile, [], .english, 0, none⟩

instance : DataForm GameFile where
  toData f := .record
    [("id", toData f.id), ("quality", toData f.quality), ("custom_formats", toData f.formats),
      ("game_version", toData f.version), ("release_group", toData f.group),
      ("size_bytes", toData f.size), ("date_added", toData f.added)]
  ofData? d := do
    let m ← Members.of?
      ["id", "quality", "custom_formats", "game_version", "release_group", "size_bytes",
        "date_added"] d
    return {
      id := ← m.required "id"
      quality := ← m.required "quality"
      formats := ← m.required "custom_formats"
      version := ← m.optional "game_version"
      group := ← m.optional "release_group"
      size := ← m.required "size_bytes"
      added := ← m.required "date_added" }

instance : DataForm Game where
  toData g := .record
    [("id", toData g.id), ("title", toData g.title), ("monitored", toData g.monitored),
      ("quality_profile", toData g.profile), ("tags", toData g.tags),
      ("original_language", toData g.originalLanguage), ("runtime_minutes", toData g.runtime),
      ("game_file", toData g.file)]
  ofData? d := do
    let m ← Members.of?
      ["id", "title", "monitored", "quality_profile", "tags", "original_language",
        "runtime_minutes", "game_file"] d
    return {
      id := ← m.required "id"
      title := ← m.required "title"
      monitored := ← m.required "monitored"
      profile := ← m.required "quality_profile"
      tags := ← m.required "tags"
      originalLanguage := ← m.required "original_language"
      runtime := ← m.required "runtime_minutes"
      file := ← m.optional "game_file" }

end ReleaseSelection
