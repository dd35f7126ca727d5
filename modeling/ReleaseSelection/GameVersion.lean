import ReleaseSelection.Data.Form

/-!
# Versions of a game

A version has four parts and is read from two notations: up to four numbers with dots between
them, or a build number. `parse` refuses every other text.
-/

namespace ReleaseSelection

structure GameVersion where
  major : Count
  minor : Count
  patch : Count
  build : Count
  deriving DecidableEq, Repr

namespace GameVersion

open Text

instance : Ord GameVersion where
  compare a b := (compare a.major b.major).then <| (compare a.minor b.minor).then <|
    (compare a.patch b.patch).then (compare a.build b.build)

def zero : GameVersion := ⟨0, 0, 0, 0⟩

def isEmpty (v : GameVersion) : Bool := v == zero

/-- A missing version and the empty one rank below every other. -/
def isUpgrade (incumbent candidate : Option GameVersion) : Bool :=
  match incumbent, candidate with
  | _, none => false
  | none, some c => !c.isEmpty
  | some i, some c => if i.isEmpty then !c.isEmpty else compare c i == .gt

/-- A version that is a build number alone says so; otherwise zeros at the end are left out as far
as the minor part. -/
def text (v : GameVersion) : String :=
  let numerals := [v.major, v.minor, v.patch, v.build].map fun part => decimal part.toNat
  if v.major = 0 ∧ v.minor = 0 ∧ v.patch = 0 ∧ v.build ≠ 0 then
    String.ofList ("Build ".toList ++ decimal v.build.toNat)
  else if v.build ≠ 0 then String.ofList ('v' :: joinWith '.' numerals)
  else if v.patch ≠ 0 then String.ofList ('v' :: joinWith '.' (numerals.take 3))
  else String.ofList ('v' :: joinWith '.' (numerals.take 2))

/-- Reads a run of ASCII digits that stands for a number in range. -/
def part? (cs : List Char) : Option Count :=
  (readDecimal? cs).bind fun n => Bounded.ofInt? n

def ofParts? : List Count → Option GameVersion
  | [a] => some ⟨a, 0, 0, 0⟩
  | [a, b] => some ⟨a, b, 0, 0⟩
  | [a, b, c] => some ⟨a, b, c, 0⟩
  | [a, b, c, d] => some ⟨a, b, c, d⟩
  | _ => none

/-- One to four numbers with dots between them, after an optional `v`. -/
def ofDotted? (cs : List Char) : Option GameVersion :=
  let cs := match cs with
    | 'v' :: cs => cs
    | cs => cs
  ((splitAt '.' cs).mapM part?).bind ofParts?

/-- The text after `build` or `b` in any case and at most one blank or dot. -/
def afterBuild? (cs : List Char) : Option (List Char) :=
  let rest? :=
    if (cs.take 5).map Char.toLower = "build".toList then some (cs.drop 5)
    else if (cs.take 1).map Char.toLower = ['b'] then some (cs.drop 1)
    else none
  rest?.map fun
    | c :: cs => if c = '.' ∨ isBlank c then cs else c :: cs
    | [] => []

def ofBuild? (cs : List Char) : Option GameVersion :=
  ((afterBuild? cs).bind part?).map fun n => ⟨0, 0, 0, n⟩

def ofText? (s : String) : Option GameVersion :=
  let cs := trim s.toList
  (ofBuild? cs).or (ofDotted? cs)

/-- The error of a text that is no version. It keeps the text as it was given. -/
structure Unrecognised where
  text : String
  deriving DecidableEq, Repr

def Unrecognised.message (e : Unrecognised) : String := "unrecognised game version: " ++ e.text

def parse (s : String) : Except Unrecognised GameVersion :=
  match ofText? s with
  | some v => .ok v
  | none => .error ⟨s⟩

end GameVersion

instance : DataForm GameVersion where
  toData v := .record
    [("major", toData v.major), ("minor", toData v.minor), ("patch", toData v.patch),
      ("build", toData v.build)]
  ofData? d := do
    let m ← Members.of? ["major", "minor", "patch", "build"] d
    return ⟨← m.required "major", ← m.required "minor", ← m.required "patch",
      ← m.required "build"⟩

end ReleaseSelection
