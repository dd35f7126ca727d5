import ReleaseSelection.Fault
import ReleaseSelection.Quality
import ReleaseSelection.Total

/-!
# Quality profiles

A profile ranks qualities by their place in its list, allows some of them, and weighs custom
formats. `scoreOf` sums the weights of matched formats and faults as soon as a partial sum leaves
the range of scores; `scoreOf_eq_ok` ties it to the exact sum.
-/

namespace ReleaseSelection

inductive Language where
  | unknown | any | original | english | french | german | spanish | italian | portuguese | russian
  | polish | japanese | chinese | korean
  deriving DecidableEq, Repr

namespace Language

def all : List Language :=
  [unknown, any, original, english, french, german, spanish, italian, portuguese, russian, polish,
    japanese, chinese, korean]

def name : Language → String
  | unknown => "unknown"
  | any => "any"
  | original => "original"
  | english => "english"
  | french => "french"
  | german => "german"
  | spanish => "spanish"
  | italian => "italian"
  | portuguese => "portuguese"
  | russian => "russian"
  | polish => "polish"
  | japanese => "japanese"
  | chinese => "chinese"
  | korean => "korean"

def title : Language → String
  | unknown => "Unknown"
  | any => "Any"
  | original => "Original"
  | english => "English"
  | french => "French"
  | german => "German"
  | spanish => "Spanish"
  | italian => "Italian"
  | portuguese => "Portuguese"
  | russian => "Russian"
  | polish => "Polish"
  | japanese => "Japanese"
  | chinese => "Chinese"
  | korean => "Korean"

end Language

instance : Named Language := ⟨Language.all, Language.name⟩

inductive Platform where
  | unknown | pc | mac | linux | playStation | xbox | nintendo
  deriving DecidableEq, Repr

namespace Platform

def all : List Platform := [unknown, pc, mac, linux, playStation, xbox, nintendo]

def name : Platform → String
  | unknown => "unknown"
  | pc => "pc"
  | mac => "mac"
  | linux => "linux"
  | playStation => "playstation"
  | xbox => "xbox"
  | nintendo => "nintendo"

end Platform

instance : Named Platform := ⟨Platform.all, Platform.name⟩

abbrev FormatId := Uuid

abbrev ProfileId := Uuid

/-- A custom format that a release was found to match. -/
structure Format where
  id : FormatId
  name : String
  deriving DecidableEq, Repr

structure ProfileItem where
  quality : Quality
  allowed : Bool
  deriving DecidableEq, Repr

structure FormatWeight where
  format : FormatId
  score : Score
  deriving DecidableEq, Repr

/-- Sizes are wished for in megabytes per minute of play. -/
structure Profile where
  id : ProfileId
  name : String
  items : List ProfileItem
  cutoff : Quality
  upgradeAllowed : Bool
  formatItems : List FormatWeight
  minFormatScore : Score
  cutoffFormatScore : Score
  minUpgradeFormatScore : Score
  language : Language
  preferredPlatforms : List Platform
  preferredSize : Option Float
  deriving DecidableEq, Repr

namespace Profile

def ofItems (id : ProfileId) (name : String) (items : List ProfileItem) (cutoff : Quality) :
    Profile where
  id := id
  name := name
  items := items
  cutoff := cutoff
  upgradeAllowed := true
  formatItems := []
  minFormatScore := 0
  cutoffFormatScore := 0
  minUpgradeFormatScore := 1
  language := .any
  preferredPlatforms := []
  preferredSize := none

/-- The profile that allows every quality and is content only with the last. -/
def permissive (id : ProfileId) (name : String) : Profile :=
  ofItems id name (Quality.all.map (⟨·, true⟩)) .multiLanguage

def rankOf (p : Profile) (q : Quality) : Option Nat := p.items.findIdx? (·.quality == q)

def isAllowed (p : Profile) (q : Quality) : Bool :=
  p.items.any fun item => item.quality == q && item.allowed

def firstAllowed (p : Profile) : Option Quality := (p.items.find? (·.allowed)).map (·.quality)

def lastAllowed (p : Profile) : Option Quality :=
  (p.items.reverse.find? (·.allowed)).map (·.quality)

/-- The rank from which on the profile is content. A profile without upgrades is content with the
first quality that it allows. -/
def cutoffIndex (p : Profile) : Option Nat :=
  (if p.upgradeAllowed then some p.cutoff else p.firstAllowed).bind p.rankOf

/-- Formats that are not in the table weigh nothing; of entries for one format the first counts. -/
def formatScore (p : Profile) (format : FormatId) : Score :=
  ((p.formatItems.find? (·.format == format)).map (·.score)).getD 0

def addScores (sum : Score) : List Score → Except Fault Score
  | [] => .ok sum
  | score :: scores =>
    match sum.add? score with
    | some sum => addScores sum scores
    | none => .error .overflow

def scoreOf (p : Profile) (formats : List Format) : Except Fault Score :=
  addScores 0 (formats.map (p.formatScore ·.id))

theorem addScores_eq_ok {sum score : Score} {scores : List Score}
    (h : addScores sum scores = .ok score) : score.val = sum.val + total (scores.map (·.val)) := by
  induction scores generalizing sum with
  | nil => cases h; simp
  | cons score scores ih =>
    simp only [addScores] at h
    split at h
    · rename_i next hn
      rw [ih h, Bounded.add?_eq_some_iff.mp hn]
      simp [Int.add_assoc]
    · cases h

theorem scoreOf_eq_ok {p : Profile} {formats : List Format} {score : Score}
    (h : p.scoreOf formats = .ok score) :
    score.val = total (formats.map fun format => (p.formatScore format.id).val) := by
  have sum := addScores_eq_ok h
  rw [List.map_map] at sum
  exact sum.trans (Int.zero_add _)

end Profile

instance : DataForm Format where
  toData f := .record [("id", toData f.id), ("name", toData f.name)]
  ofData? d := do
    let m ← Members.of? ["id", "name"] d
    return ⟨← m.required "id", ← m.required "name"⟩

instance : DataForm ProfileItem where
  toData i := .record [("quality", toData i.quality), ("allowed", toData i.allowed)]
  ofData? d := do
    let m ← Members.of? ["quality", "allowed"] d
    return ⟨← m.required "quality", ← m.required "allowed"⟩

instance : DataForm FormatWeight where
  toData w := .record [("format", toData w.format), ("score", toData w.score)]
  ofData? d := do
    let m ← Members.of? ["format", "score"] d
    return ⟨← m.required "format", ← m.required "score"⟩

instance : DataForm Profile where
  toData p := .record
    [("id", toData p.id), ("name", toData p.name), ("items", toData p.items),
      ("cutoff", toData p.cutoff), ("upgrade_allowed", toData p.upgradeAllowed),
      ("format_items", toData p.formatItems), ("min_format_score", toData p.minFormatScore),
      ("cutoff_format_score", toData p.cutoffFormatScore),
      ("min_upgrade_format_score", toData p.minUpgradeFormatScore),
      ("language", toData p.language), ("preferred_platforms", toData p.preferredPlatforms),
      ("preferred_size_mb_per_minute", toData p.preferredSize)]
  ofData? d := do
    let m ← Members.of?
      ["id", "name", "items", "cutoff", "upgrade_allowed", "format_items", "min_format_score",
        "cutoff_format_score", "min_upgrade_format_score", "language", "preferred_platforms",
        "preferred_size_mb_per_minute"] d
    return {
      id := ← m.required "id"
      name := ← m.required "name"
      items := ← m.required "items"
      cutoff := ← m.required "cutoff"
      upgradeAllowed := ← m.required "upgrade_allowed"
      formatItems := ← m.required "format_items"
      minFormatScore := ← m.required "min_format_score"
      cutoffFormatScore := ← m.required "cutoff_format_score"
      minUpgradeFormatScore := ← m.required "min_upgrade_format_score"
      language := ← m.required "language"
      preferredPlatforms := ← m.required "preferred_platforms"
      preferredSize := ← m.optional "preferred_size_mb_per_minute" }

end ReleaseSelection
