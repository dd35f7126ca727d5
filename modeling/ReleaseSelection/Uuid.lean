import ReleaseSelection.Text

/-!
# Identifiers

Games, files, profiles, formats and indexers carry a UUID. It is written in lower case with
hyphens, and it is read in four forms. `ofText?_text` says that a written identifier reads back.
-/

namespace ReleaseSelection

/-- The 32 hexadecimal digits of an identifier, the highest first. -/
structure Uuid where
  digits : List (Fin 16)
  length_digits : digits.length = 32
  deriving DecidableEq, Repr

namespace Uuid

def hexDigit (d : Fin 16) : Char :=
  if d.val < 10 then Char.ofNat ('0'.toNat + d.val) else Char.ofNat ('a'.toNat + (d.val - 10))

def digit? (c : Char) : Option (Fin 16) :=
  (Text.hexDigit? c).bind fun n => if h : n < 16 then some ⟨n, h⟩ else none

def ofDigits? (ds : List (Fin 16)) : Option Uuid :=
  if h : ds.length = 32 then some ⟨ds, h⟩ else none

/-- Reads 32 hexadecimal digits in either case. -/
def ofSimple? (cs : List Char) : Option Uuid := (cs.mapM digit?).bind ofDigits?

/-- Reads five groups of 8, 4, 4, 4 and 12 digits with a hyphen between each two. -/
def ofHyphenated? (cs : List Char) : Option Uuid :=
  if cs[8]? = some '-' ∧ cs[13]? = some '-' ∧ cs[18]? = some '-' ∧ cs[23]? = some '-' then
    ofSimple? (cs.take 8 ++ (cs.drop 9).take 4 ++ (cs.drop 14).take 4 ++ (cs.drop 19).take 4 ++
      cs.drop 24)
  else none

/-- The forms are told apart by their length: bare digits, hyphenated, hyphenated in braces, and
hyphenated after `urn:uuid:` in either case. -/
def ofText? (s : String) : Option Uuid :=
  let cs := s.toList
  if cs.length = 32 then ofSimple? cs
  else if cs.length = 36 then ofHyphenated? cs
  else if cs.length = 38 ∧ cs[0]? = some '{' ∧ cs[37]? = some '}' then
    ofHyphenated? ((cs.drop 1).take 36)
  else if cs.length = 45 ∧ (cs.take 9).map Char.toLower = "urn:uuid:".toList then
    ofHyphenated? (cs.drop 9)
  else none

def hyphenate (cs : List Char) : List Char :=
  cs.take 8 ++ '-' :: ((cs.drop 8).take 4 ++ '-' :: ((cs.drop 12).take 4 ++ '-' ::
    ((cs.drop 16).take 4 ++ '-' :: cs.drop 20)))

def text (u : Uuid) : String := String.ofList (hyphenate (u.digits.map hexDigit))

theorem digit?_hexDigit (d : Fin 16) : digit? (hexDigit d) = some d := by
  revert d
  decide

theorem ofSimple?_hexDigits (u : Uuid) : ofSimple? (u.digits.map hexDigit) = some u := by
  have h : ∀ ds : List (Fin 16), (ds.map hexDigit).mapM digit? = some ds := by
    intro ds
    induction ds with
    | nil => rfl
    | cons d ds ih => simp [digit?_hexDigit, ih]
  simp [ofSimple?, h, ofDigits?, u.length_digits]

theorem length_hyphenate {cs : List Char} (h : cs.length = 32) : (hyphenate cs).length = 36 := by
  simp [hyphenate, h]

theorem ofHyphenated?_hyphenate {cs : List Char} (h : cs.length = 32) :
    ofHyphenated? (hyphenate cs) = ofSimple? cs := by
  match cs, h with
  | [a0, a1, a2, a3, a4, a5, a6, a7, b0, b1, b2, b3, c0, c1, c2, c3, d0, d1, d2, d3, e0, e1, e2, e3,
      e4, e5, e6, e7, e8, e9, e10, e11], _ => rfl

theorem ofText?_text (u : Uuid) : ofText? u.text = some u := by
  have hl : (u.digits.map hexDigit).length = 32 := by simp [u.length_digits]
  simp [ofText?, text, length_hyphenate hl, ofHyphenated?_hyphenate hl, ofSimple?_hexDigits]

end Uuid

end ReleaseSelection
