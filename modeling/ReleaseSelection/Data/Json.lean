import ReleaseSelection.Data.Numeral
import ReleaseSelection.Text

/-!
# Reading JSON

`Json.read?` takes a text that is one JSON value with blanks around it. A string with an escaped
half of a surrogate pair, a record with such a name and a number out of range are well formed but
unreadable.
-/

namespace ReleaseSelection.Json

open Text

def isSpace (c : Char) : Bool := c = ' ' || c = '\n' || c = '\t' || c = '\r'

def skipSpace (cs : List Char) : List Char := cs.dropWhile isSpace

/-- A character as it stands, or the 16 bits of an escape. -/
inductive Piece where
  | char (c : Char)
  | unit (n : Nat)
  deriving DecidableEq, Repr

def shortEscape? (c : Char) : Option Char :=
  if c = '"' ∨ c = '\\' ∨ c = '/' then some c
  else if c = 'b' then some '\x08'
  else if c = 'f' then some '\x0c'
  else if c = 'n' then some '\n'
  else if c = 'r' then some '\r'
  else if c = 't' then some '\t'
  else none

/-- Reads up to the closing quote. Control characters must be escaped. -/
def pieces : List Char → Option (List Piece × List Char)
  | [] => none
  | c :: cs =>
    if c = '"' then some ([], cs)
    else if c = '\\' then
      match cs with
      | 'u' :: c₁ :: c₂ :: c₃ :: c₄ :: cs => do
        let n ← readHex? [c₁, c₂, c₃, c₄]
        let (ps, cs) ← pieces cs
        some (.unit n :: ps, cs)
      | e :: cs => do
        let c ← shortEscape? e
        let (ps, cs) ← pieces cs
        some (.char c :: ps, cs)
      | [] => none
    else if c.toNat < 0x20 then none
    else do
      let (ps, cs) ← pieces cs
      some (.char c :: ps, cs)

def isHigh (n : Nat) : Bool := 0xD800 ≤ n && n ≤ 0xDBFF

def isLow (n : Nat) : Bool := 0xDC00 ≤ n && n ≤ 0xDFFF

/-- Puts surrogate pairs together; a half on its own is no character. -/
def join? : List Piece → Option (List Char)
  | [] => some []
  | .char c :: ps => (join? ps).map (c :: ·)
  | .unit n :: ps =>
    if isLow n then none
    else if isHigh n then
      match ps with
      | .unit m :: ps =>
        if isLow m then
          (join? ps).map (Char.ofNat (0x10000 + (n - 0xD800) * 0x400 + (m - 0xDC00)) :: ·)
        else none
      | _ => none
    else (join? ps).map (Char.ofNat n :: ·)

def takeDigits (cs : List Char) : List Nat × List Char :=
  ((cs.takeWhile isDigit).filterMap digit?, cs.dropWhile isDigit)

def fraction? (cs : List Char) : Option (List Nat × List Char) :=
  match cs with
  | '.' :: cs =>
    let (ds, cs) := takeDigits cs
    if ds.isEmpty then none else some (ds, cs)
  | cs => some ([], cs)

def exponentDigits? (negative : Bool) (cs : List Char) :
    Option (Option (Bool × List Nat) × List Char) :=
  let (ds, cs) := takeDigits cs
  if ds.isEmpty then none else some (some (negative, ds), cs)

def exponent? (cs : List Char) : Option (Option (Bool × List Nat) × List Char) :=
  match cs with
  | 'e' :: '-' :: cs | 'E' :: '-' :: cs => exponentDigits? true cs
  | 'e' :: '+' :: cs | 'E' :: '+' :: cs => exponentDigits? false cs
  | 'e' :: cs | 'E' :: cs => exponentDigits? false cs
  | cs => some (none, cs)

def unsigned? (negative : Bool) (cs : List Char) : Option (Numeral × List Char) := do
  let (whole, cs) := takeDigits cs
  if whole.isEmpty ∨ (whole.head? = some 0 ∧ whole.length ≠ 1) then none
  else
    let (fraction, cs) ← fraction? cs
    let (exponent, cs) ← exponent? cs
    some (⟨negative, whole, fraction, exponent⟩, cs)

def numeral? (cs : List Char) : Option (Numeral × List Char) :=
  match cs with
  | '-' :: cs => unsigned? true cs
  | cs => unsigned? false cs

def scalar? (cs : List Char) : Option (Data × List Char) :=
  match afterWord? "null" cs, afterWord? "true" cs, afterWord? "false" cs with
  | some cs, _, _ => some (.null, cs)
  | _, some cs, _ => some (.bool true, cs)
  | _, _, some cs => some (.bool false, cs)
  | none, none, none => (numeral? cs).map fun p => (p.1.toData, p.2)

def string? (cs : List Char) : Option (Option String × List Char) :=
  (pieces cs).map fun p => ((join? p.1).map String.ofList, p.2)

/-- A record of members whose names may be no text. -/
def record (ms : List (Option String × Data)) : Data :=
  match ms.mapM fun m => m.1.map (·, m.2) with
  | some ms => .record ms
  | none => .unreadable

mutual

def value? : Nat → List Char → Option (Data × List Char)
  | 0, _ => none
  | fuel + 1, cs =>
    match skipSpace cs with
    | '"' :: cs => (string? cs).map fun p => ((p.1.map Data.text).getD .unreadable, p.2)
    | '[' :: cs =>
      match skipSpace cs with
      | ']' :: cs => some (.list [], cs)
      | cs => (items? fuel cs).map fun p => (.list p.1, p.2)
    | '{' :: cs =>
      match skipSpace cs with
      | '}' :: cs => some (.record [], cs)
      | cs => (members? fuel cs).map fun p => (record p.1, p.2)
    | cs => scalar? cs

def items? : Nat → List Char → Option (List Data × List Char)
  | 0, _ => none
  | fuel + 1, cs => do
    let (d, cs) ← value? fuel cs
    match skipSpace cs with
    | ']' :: cs => some ([d], cs)
    | ',' :: cs =>
      let (ds, cs) ← items? fuel cs
      some (d :: ds, cs)
    | _ => none

def members? : Nat → List Char → Option (List (Option String × Data) × List Char)
  | 0, _ => none
  | fuel + 1, cs =>
    match skipSpace cs with
    | '"' :: cs => do
      let (name, cs) ← string? cs
      match skipSpace cs with
      | ':' :: cs =>
        let (d, cs) ← value? fuel cs
        match skipSpace cs with
        | '}' :: cs => some ([(name, d)], cs)
        | ',' :: cs =>
          let (ms, cs) ← members? fuel cs
          some ((name, d) :: ms, cs)
        | _ => none
      | _ => none
    | _ => none

end

/-- Two steps of the reader take at least one character. -/
def read? (s : String) : Option Data := do
  let cs := s.toList
  let (d, cs) ← value? (2 * cs.length + 2) cs
  if (skipSpace cs).isEmpty then some d else none

end ReleaseSelection.Json
