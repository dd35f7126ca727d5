import ReleaseSelection.Data.Numeral
import ReleaseSelection.Data.Quoted
import ReleaseSelection.Fault

/-!
# Values of environment variables

The text of a variable is read as a value where it can be: a truth value, a number, a quoted text, a
list or a record. Every other text stands for itself. A quoted text with an escape keeps the
characters before the first one only as far as `clip` does, which is all of them where they are
ASCII. `nested` puts a value below the names of its key.
-/

namespace ReleaseSelection.Variable

open Text

/-- The blanks of ASCII. -/
def isSpace (c : Char) : Bool := c = ' ' || c = '\t' || c = '\n' || c = '\x0c' || c = '\r'

def skipSpace (cs : List Char) : List Char := cs.dropWhile isSpace

def isSeparator (c : Char) : Bool := c = ',' || c = '{' || c = '}' || c = '[' || c = ']'

/-- An error without a fault says that a text is not of the form in question. -/
abbrev Reading := Except (Option Fault)

def Reading.ofOption {α : Type} : Option α → Reading α
  | some a => .ok a
  | none => .error none

def insideCharacter (stop start : Nat) (c : Char) : Fault :=
  ⟨"end byte index " ++ numeral stop ++ " is not a char boundary; it is inside '" ++ c.toString ++
    "' (bytes " ++ numeral start ++ ".." ++ numeral (start + c.utf8Size) ++ " of string)"⟩

/-- The characters of a text in its bytes from `start` up to `stop`, which must not lie inside a
character. -/
def keep (stop : Nat) : Nat → List Char → Except Fault (List Char)
  | _, [] => .ok []
  | start, c :: cs =>
    if stop ≤ start then .ok []
    else if stop < start + c.utf8Size then .error (insideCharacter stop start c)
    else (keep stop (start + c.utf8Size) cs).map (c :: ·)

/-- As many bytes of a text as it has characters. -/
def clip (cs : List Char) : Except Fault (List Char) := keep cs.length 0 cs

/-- Whether a closing quote follows. A character after a backslash is none. -/
def isClosed : List Char → Bool
  | [] => false
  | '"' :: _ => true
  | '\\' :: _ :: cs => isClosed cs
  | _ :: cs => isClosed cs

/-- Reads a text after its opening quote. -/
def quoted (cs : List Char) : Reading (String × List Char) :=
  let plain := cs.takeWhile fun c => c ≠ '"' && c ≠ '\\'
  match cs.drop plain.length with
  | '\\' :: rest =>
    if isClosed cs && plain.all Quoted.isPlain then do
      let kept ← (clip plain).mapError some
      let (text, cs) ← Reading.ofOption (Quoted.read? '"' ('\\' :: rest))
      return (String.ofList kept ++ text, cs)
    else .error none
  | _ => Reading.ofOption (Quoted.read? '"' cs)

def key (cs : List Char) : Reading (String × List Char) :=
  match skipSpace cs with
  | '"' :: cs => quoted cs
  | cs => Reading.ofOption (Quoted.bare? cs)

/-- An integer from the least signed to the greatest unsigned one of 64 bits. -/
def integer? (cs : List Char) : Option Data :=
  match cs with
  | '-' :: cs =>
    (readDecimal? cs).bind fun n =>
      if n ≤ 9223372036854775808 then some (.int (-(n : Int))) else none
  | '+' :: cs => (readDecimal? cs).bind fun n =>
      if n ≤ 18446744073709551615 then some (.int n) else none
  | cs => (readDecimal? cs).bind fun n =>
      if n ≤ 18446744073709551615 then some (.int n) else none

def isFraction (cs : List Char) : Bool :=
  let unsigned := match cs with
    | '-' :: cs | '+' :: cs => cs
    | cs => cs
  let isExponent (c : Char) : Bool := c = 'e' || c = 'E'
  let mantissa := unsigned.takeWhile (!isExponent ·)
  let exponent := match unsigned.dropWhile (!isExponent ·) with
    | _ :: '-' :: cs | _ :: '+' :: cs => some cs
    | _ :: cs => some cs
    | [] => none
  (mantissa.filter (· == '.')).length == 1 && mantissa.any isDigit &&
    mantissa.all (fun c => isDigit c || c = '.') &&
    exponent.all fun cs => !cs.isEmpty && cs.all isDigit

/-- A bare word: a number, or the word itself. No setting is a fraction, so which one it is does
not matter. -/
def word (cs : List Char) : Data :=
  if isFraction cs then .float 0
  else (integer? cs).getD (.text (String.ofList cs))

mutual

def value : Nat → List Char → Reading (Data × List Char)
  | 0, _ => .error none
  | fuel + 1, cs => do
    let cs := skipSpace cs
    let (d, cs) ←
      match afterWord? "true" cs, afterWord? "false" cs with
      | some cs, _ => .ok (.bool true, cs)
      | _, some cs => .ok (.bool false, cs)
      | none, none =>
        match cs with
        | '{' :: cs => (record fuel cs).map fun p => (.record p.1, p.2)
        | '[' :: cs => (list fuel cs).map fun p => (.list p.1, p.2)
        | '"' :: cs => (quoted cs).map fun p => (.text p.1, p.2)
        | '\'' :: c :: '\'' :: cs => .ok (.text (String.ofList [c]), cs)
        | '\'' :: _ => .error none
        | cs => .ok (word (trim (cs.takeWhile (!isSeparator ·))), cs.dropWhile (!isSeparator ·))
    return (d, skipSpace cs)

def list : Nat → List Char → Reading (List Data × List Char)
  | 0, _ => .error none
  | fuel + 1, cs =>
    match cs with
    | ']' :: cs => .ok ([], cs)
    | cs => do
      let (d, cs) ← value fuel cs
      match cs with
      | ',' :: cs => (list fuel cs).map fun p => (d :: p.1, p.2)
      | ']' :: cs => .ok ([d], cs)
      | _ => .error none

def record : Nat → List Char → Reading (List (String × Data) × List Char)
  | 0, _ => .error none
  | fuel + 1, cs =>
    match cs with
    | '}' :: cs => .ok ([], cs)
    | cs => do
      let (name, cs) ← key cs
      match skipSpace cs with
      | '=' :: cs =>
        let (d, cs) ← value fuel cs
        match cs with
        | ',' :: cs =>
          let (ms, cs) ← record fuel cs
          return (if ms.any (·.1 == name) then ms else (name, d) :: ms, cs)
        | '}' :: cs => return ([(name, d)], cs)
        | _ => .error none
      | _ => .error none

end

def read (s : String) : Except Fault Data :=
  let cs := s.toList
  match value (2 * cs.length + 2) cs with
  | .ok (d, []) => .ok d
  | .error (some fault) => .error fault
  | _ => .ok (.text s)

/-- The parts of a key between double underscores or dots. -/
def path : List Char → List (List Char)
  | [] => [[]]
  | '_' :: '_' :: cs => [] :: path cs
  | '.' :: cs => [] :: path cs
  | c :: cs =>
    match path cs with
    | [] => [[c]]
    | part :: parts => (c :: part) :: parts

/-- A value below the names of a path. -/
def nested (d : Data) : List String → Data
  | [] => d
  | name :: names => .record [(name, nested d names)]

/-- The names of a variable's key in lower case, if it starts with a mark in any case and no name
is empty. -/
def names? (mark name : String) : Option (List String) :=
  let cs := trim name.toList
  let size := mark.toList.length
  if (cs.take size).map Char.toLower = mark.toList.map Char.toLower then
    let parts := path (trim (cs.drop size))
    if parts.any (·.isEmpty) then none
    else some (parts.map fun part => String.ofList (part.map Char.toLower))
  else none

end ReleaseSelection.Variable
