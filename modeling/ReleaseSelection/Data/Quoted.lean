import ReleaseSelection.Text

/-!
# Names and quoted texts

What documents and variables have in common: bare names, and text between two marks on one line.
Between double quotes a backslash starts an escape.
-/

namespace ReleaseSelection.Quoted

open Text

/-- Names that need no quotes are made of these. -/
def isBare (c : Char) : Bool :=
  isDigit c || ('a' ≤ c && c ≤ 'z') || ('A' ≤ c && c ≤ 'Z') || c = '_' || c = '-'

/-- Characters that may stand for themselves. -/
def isPlain (c : Char) : Bool := c = '\t' || (0x20 ≤ c.toNat && c.toNat ≠ 0x7F)

/-- Reads a code point of `n` digits. -/
def codePoint? (n : Nat) (cs : List Char) : Option (Char × List Char) :=
  if (cs.take n).length = n then
    ((readHex? (cs.take n)).bind scalar?).map (·, cs.drop n)
  else none

/-- Reads the rest of an escape. -/
def escape? (cs : List Char) : Option (Char × List Char) :=
  match cs with
  | '"' :: cs => some ('"', cs)
  | '\\' :: cs => some ('\\', cs)
  | 'b' :: cs => some ('\x08', cs)
  | 'f' :: cs => some ('\x0c', cs)
  | 'n' :: cs => some ('\n', cs)
  | 'r' :: cs => some ('\r', cs)
  | 't' :: cs => some ('\t', cs)
  | 'u' :: cs => codePoint? 4 cs
  | 'U' :: cs => codePoint? 8 cs
  | _ => none

def upTo? (mark : Char) : Nat → List Char → Option (List Char × List Char)
  | 0, _ => none
  | _ + 1, [] => none
  | fuel + 1, c :: cs =>
    if c = mark then some ([], cs)
    else if c = '\\' && mark == '"' then do
      let (c, cs) ← escape? cs
      let (text, cs) ← upTo? mark fuel cs
      some (c :: text, cs)
    else if isPlain c then (upTo? mark fuel cs).map fun p => (c :: p.1, p.2)
    else none

/-- Reads up to the closing mark. -/
def read? (mark : Char) (cs : List Char) : Option (String × List Char) :=
  (upTo? mark (cs.length + 1) cs).map fun p => (String.ofList p.1, p.2)

def bare? (cs : List Char) : Option (String × List Char) :=
  let name := cs.takeWhile isBare
  if name.isEmpty then none else some (String.ofList name, cs.dropWhile isBare)

end ReleaseSelection.Quoted
