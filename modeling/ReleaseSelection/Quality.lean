import ReleaseSelection.Data.Form

/-!
# Qualities and revisions

A release has a quality and a revision of it. Profiles rank qualities in an order of their own;
`weight` is the order that holds without a profile.
-/

namespace ReleaseSelection

inductive Quality where
  | unknown | scene | sceneCracked | gog | steam | epic | origin | uplay | repack | repackAllDlc
  | iso | retail | portable | preload | updateOnly | multiLanguage
  deriving DecidableEq, Repr

namespace Quality

def all : List Quality :=
  [unknown, scene, sceneCracked, gog, steam, epic, origin, uplay, repack, repackAllDlc, iso, retail,
    portable, preload, updateOnly, multiLanguage]

def name : Quality → String
  | unknown => "unknown"
  | scene => "scene"
  | sceneCracked => "scene_cracked"
  | gog => "gog"
  | steam => "steam"
  | epic => "epic"
  | origin => "origin"
  | uplay => "uplay"
  | repack => "repack"
  | repackAllDlc => "repack_all_dlc"
  | iso => "iso"
  | retail => "retail"
  | portable => "portable"
  | preload => "preload"
  | updateOnly => "update_only"
  | multiLanguage => "multi_language"

def title : Quality → String
  | unknown => "Unknown"
  | scene => "Scene"
  | sceneCracked => "Scene Cracked"
  | gog => "GOG"
  | steam => "Steam"
  | epic => "Epic"
  | origin => "Origin"
  | uplay => "Uplay"
  | repack => "Repack"
  | repackAllDlc => "Repack All DLC"
  | iso => "ISO"
  | retail => "Retail"
  | portable => "Portable"
  | preload => "Preload"
  | updateOnly => "Update Only"
  | multiLanguage => "Multi-Language"

/-- The number by which a quality is stored. -/
def id (q : Quality) : Nat := all.idxOf q

def ofId? (id : Nat) : Option Quality := all[id]?

def weight : Quality → Nat
  | unknown => 1
  | preload => 2
  | updateOnly => 3
  | scene => 4
  | sceneCracked => 5
  | repack => 6
  | repackAllDlc => 7
  | gog => 8
  | steam => 9
  | epic => 10
  | origin => 11
  | uplay => 12
  | iso => 13
  | retail => 14
  | portable => 15
  | multiLanguage => 16

theorem mem_all (q : Quality) : q ∈ all := by cases q <;> decide

theorem ofId?_id (q : Quality) : ofId? q.id = some q := by cases q <;> rfl

theorem weight_inj {p q : Quality} : p.weight = q.weight ↔ p = q := by
  cases p <;> cases q <;> decide

end Quality

instance : Named Quality := ⟨Quality.all, Quality.name⟩

/-- A repack is a release made again by the same group; it does not count in the order. -/
structure Revision where
  version : Count
  real : Count
  isRepack : Bool
  deriving DecidableEq, Repr

namespace Revision

def first : Revision := ⟨1, 0, false⟩

instance : Ord Revision := ⟨fun a b => (compare a.version b.version).then (compare a.real b.real)⟩

def text (r : Revision) : String :=
  "v" ++ Text.numeral r.version.val ++
    (if r.real.val > 0 then " real:" ++ Text.numeral r.real.val else "") ++
    (if r.isRepack then " repack" else "")

end Revision

structure QualityModel where
  quality : Quality
  revision : Revision
  deriving DecidableEq, Repr

namespace QualityModel

def text (m : QualityModel) : String := s!"{m.quality.title} {m.revision.text}"

/-- The same quality in a higher revision. -/
def isRevisionUpgrade (incumbent candidate : QualityModel) : Bool :=
  incumbent.quality == candidate.quality &&
    compare candidate.revision incumbent.revision == .gt

end QualityModel

instance : DataForm Revision where
  toData r := .record
    [("version", toData r.version), ("real", toData r.real), ("is_repack", toData r.isRepack)]
  ofData? d := do
    let m ← Members.of? ["version", "real", "is_repack"] d
    return ⟨← m.required "version", ← m.required "real", ← m.required "is_repack"⟩

instance : DataForm QualityModel where
  toData q := .record [("quality", toData q.quality), ("revision", toData q.revision)]
  ofData? d := do
    let m ← Members.of? ["quality", "revision"] d
    return ⟨← m.required "quality", ← m.defaulted "revision" .first⟩

end ReleaseSelection
