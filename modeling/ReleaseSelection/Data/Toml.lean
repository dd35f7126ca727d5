import ReleaseSelection.Data.Numeral
import ReleaseSelection.Data.Quoted
import ReleaseSelection.Instant.Calendar

/-!
# Reading TOML

`Toml.read?` takes a text to the record of its tables. A table may be opened by a header once, and
a key may be given once. A date or a time is taken for an empty record, since no setting is one.
-/

namespace ReleaseSelection.Toml

open Text Quoted

/-- How a table came about: through a header of a table below it, through a dotted key, or through
its own header. -/
inductive Origin where
  | implied | dotted | defined
  deriving DecidableEq, Repr

inductive Item where
  | value (d : Data)
  | table (origin : Origin) (items : List (String × Item))
  | tables (elements : List (List (String × Item)))
  deriving Inhabited

structure Table where
  origin : Origin
  items : List (String × Item)

namespace Table

def empty : Table := ⟨.defined, []⟩

def put (t : Table) (key : String) (item : Item) : Table :=
  if t.items.any (·.1 == key) then
    { t with items := t.items.map fun m => if m.1 == key then (key, item) else m }
  else { t with items := t.items ++ [(key, item)] }

/-- Changes the table at a path, the last one of an array of tables, and makes the tables that are
missing on the way. A dotted key does not reach into a table that has a header. -/
def modify (dotted : Bool) (change : Table → Option Table) : List String → Table → Option Table
  | [], t => change t
  | key :: path, t =>
    match t.items.lookup key with
    | none => do
      let t' ← modify dotted change path ⟨if dotted then .dotted else .implied, []⟩
      some (t.put key (.table t'.origin t'.items))
    | some (.table origin items) =>
      if dotted && origin == .defined then none
      else do
        let t' ← modify dotted change path ⟨origin, items⟩
        some (t.put key (.table t'.origin t'.items))
    | some (.tables elements) =>
      match elements.reverse with
      | last :: others => do
        let t' ← modify dotted change path ⟨.defined, last⟩
        some (t.put key (.tables (others.reverse ++ [t'.items])))
      | [] => none
    | some (.value _) => none

/-- Gives a key of the table a value. The tables of a dotted key must have come from dotted keys. -/
def assign (path : List String) (key : String) (d : Data) (t : Table) : Option Table :=
  modify true
    (fun t =>
      if (t.origin == .dotted) == path.isEmpty || t.items.any (·.1 == key) then none
      else some (t.put key (.value d)))
    path t

/-- Opens the table of a header. -/
def define (parents : List String) (key : String) (t : Table) : Option Table :=
  modify false
    (fun t =>
      match t.items.lookup key with
      | none => some (t.put key (.table .defined []))
      | some (.table .implied items) => some (t.put key (.table .defined items))
      | some _ => none)
    parents t

/-- Opens the next table of an array of tables. -/
def extend (parents : List String) (key : String) (t : Table) : Option Table :=
  modify false
    (fun t =>
      match t.items.lookup key with
      | none => some (t.put key (.tables [[]]))
      | some (.tables elements) => some (t.put key (.tables (elements ++ [[]])))
      | some _ => none)
    parents t

end Table

mutual

def Item.toData : Item → Data
  | .value d => d
  | .table _ items => .record (membersToData items)
  | .tables elements => .list (elementsToData elements)

def membersToData : List (String × Item) → List (String × Data)
  | [] => []
  | (key, item) :: items => (key, item.toData) :: membersToData items

def elementsToData : List (List (String × Item)) → List Data
  | [] => []
  | items :: elements => .record (membersToData items) :: elementsToData elements

end

def isSpace (c : Char) : Bool := c = ' ' || c = '\t'

def skipSpace (cs : List Char) : List Char := cs.dropWhile isSpace

/-- The text after a line break. -/
def afterBreak? : List Char → Option (List Char)
  | '\n' :: cs => some cs
  | '\r' :: '\n' :: cs => some cs
  | _ => none

/-- Leaves out a comment, if there is one. -/
def skipComment (cs : List Char) : List Char :=
  match cs with
  | '#' :: cs => cs.dropWhile isPlain
  | cs => cs

/-- Blanks and a comment up to the end of the line. -/
def endLine? (cs : List Char) : Option (List Char) :=
  let cs := skipComment (skipSpace cs)
  if cs.isEmpty then some [] else afterBreak? cs

/-- Leaves out blanks, comments and line breaks between the values of an array. -/
def skipLines : Nat → List Char → List Char
  | 0, cs => cs
  | fuel + 1, cs =>
    let cs := skipComment (skipSpace cs)
    match afterBreak? cs with
    | some cs => skipLines fuel cs
    | none => cs

/-- Leaves out blanks and line breaks. -/
def skipBreaks : Nat → List Char → List Char
  | 0, cs => cs
  | fuel + 1, cs =>
    let cs := skipSpace cs
    match afterBreak? cs with
    | some cs => skipBreaks fuel cs
    | none => cs

/-- The text after a backslash that ends a line, from the next character that is not blank. -/
def afterJoin? (cs : List Char) : Option (List Char) :=
  (afterBreak? (skipSpace cs)).map fun cs => skipBreaks cs.length cs

/-- Reads up to three closing marks. One or two marks more belong to the text. -/
def lines? (mark : Char) : Nat → List Char → Option (List Char × List Char)
  | 0, _ => none
  | _ + 1, [] => none
  | fuel + 1, c :: cs =>
    if c = mark then
      let marks := (c :: cs).takeWhile (· == mark)
      let rest := (c :: cs).dropWhile (· == mark)
      if marks.length < 3 then (lines? mark fuel rest).map fun p => (marks ++ p.1, p.2)
      else if marks.length ≤ 5 then some (marks.drop 3, rest)
      else none
    else if c = '\\' && mark == '"' then
      match afterJoin? cs with
      | some cs => lines? mark fuel cs
      | none => do
        let (c, cs) ← escape? cs
        let (text, cs) ← lines? mark fuel cs
        some (c :: text, cs)
    else
      match afterBreak? (c :: cs) with
      | some cs => (lines? mark fuel cs).map fun p => ('\n' :: p.1, p.2)
      | none =>
        if isPlain c then (lines? mark fuel cs).map fun p => (c :: p.1, p.2) else none

/-- Reads a string after its first mark. A line break right after three marks is left out. -/
def string? (mark : Char) (cs : List Char) : Option (String × List Char) :=
  if cs.take 2 = [mark, mark] then
    let cs := cs.drop 2
    (lines? mark (cs.length + 1) ((afterBreak? cs).getD cs)).map fun p => (String.ofList p.1, p.2)
  else Quoted.read? mark cs

def simpleKey? (cs : List Char) : Option (String × List Char) :=
  match cs with
  | '"' :: cs => Quoted.read? '"' cs
  | '\'' :: cs => Quoted.read? '\'' cs
  | cs => Quoted.bare? cs

def dottedKey? : Nat → List Char → Option ((List String × String) × List Char)
  | 0, _ => none
  | fuel + 1, cs => do
    let (name, cs) ← simpleKey? (skipSpace cs)
    match skipSpace cs with
    | '.' :: cs =>
      let ((names, last), cs) ← dottedKey? fuel cs
      some ((name :: names, last), cs)
    | cs => some (([], name), cs)

/-- A key has no more names than this, and no more brackets are open at once. -/
def maxDepth : Nat := 79

/-- Reads a key: the names before the last dot and the name after it. -/
def key? (cs : List Char) : Option ((List String × String) × List Char) :=
  (dottedKey? cs.length cs).filter fun p => p.1.1.length < maxDepth

/-- The digits of a number in which single underscores may stand between two digits. -/
def digits? (digit? : Char → Option Nat) (cs : List Char) : Option (List Nat) :=
  let groups := splitAt '_' cs
  if groups.any (·.isEmpty) then none else groups.flatten.mapM digit?

def below (base : Nat) (c : Char) : Option Nat := (hexDigit? c).filter (· < base)

def inRange? (n : Int) : Option Data :=
  if -9223372036854775808 ≤ n ∧ n ≤ 9223372036854775807 then some (.int n) else none

/-- Splits off a sign: whether it is negative, and the text after it. -/
def sign (cs : List Char) : Bool × List Char :=
  match cs with
  | '-' :: cs => (true, cs)
  | '+' :: cs => (false, cs)
  | cs => (false, cs)

/-- Digits of a decimal number, which do not start with a zero unless it is the only one. -/
def whole? (cs : List Char) : Option (List Nat) := do
  let ds ← digits? digit? cs
  if ds.head? = some 0 ∧ ds.length ≠ 1 then none else some ds

def integer? (cs : List Char) : Option Data :=
  match cs with
  | '0' :: 'x' :: cs => (digits? hexDigit? cs).bind fun ds => inRange? (ofDigits 16 ds)
  | '0' :: 'o' :: cs => (digits? (below 8) cs).bind fun ds => inRange? (ofDigits 8 ds)
  | '0' :: 'b' :: cs => (digits? (below 2) cs).bind fun ds => inRange? (ofDigits 2 ds)
  | cs =>
    let (negative, cs) := sign cs
    (whole? cs).bind fun ds =>
      inRange? (if negative then -(ofDigits 10 ds : Int) else ofDigits 10 ds)

/-- A number beyond the largest float is refused, one beyond the least is an infinity. -/
def float? (cs : List Char) : Option Data := do
  let (negative, cs) := sign cs
  if cs = "inf".toList then return .float (if negative then -1 / 0 else 1 / 0)
  if cs = "nan".toList then return .float (0 / 0)
  let isExponent (c : Char) : Bool := c = 'e' || c = 'E'
  let mantissa := cs.takeWhile (!isExponent ·)
  let exponent := cs.dropWhile (!isExponent ·)
  let whole ← whole? (mantissa.takeWhile (· != '.'))
  let fraction ← match mantissa.dropWhile (· != '.') with
    | [] => some []
    | _ :: cs => digits? digit? cs
  let exponent ← match exponent with
    | [] => some none
    | _ :: cs => (digits? digit? (sign cs).2).map fun ds => some ((sign cs).1, ds)
  if fraction.isEmpty && exponent.isNone then none
  else
    let x := Numeral.nearest ⟨negative, whole, fraction, exponent⟩
    if x.isInf && !negative then none else some (.float x)

/-- Exactly `n` digits that stand for a number up to `most`. -/
def pair? (n most : Nat) (cs : List Char) : Option Nat :=
  if cs.length = n then (readDecimal? cs).filter (· ≤ most) else none

def isDate (cs : List Char) : Bool :=
  match splitAt '-' cs with
  | [year, month, day] =>
    match pair? 4 9999 year, pair? 2 12 month, pair? 2 31 day with
    | some year, some month, some day => (Calendar.Date.mk year month day).isValid
    | _, _, _ => false
  | _ => false

def isTime (cs : List Char) : Bool :=
  match splitAt ':' cs with
  | [hour, minute, second] =>
    (pair? 2 23 hour).isSome && (pair? 2 59 minute).isSome &&
      match splitAt '.' second with
      | [second] => (pair? 2 60 second).isSome
      | [second, fraction] =>
        (pair? 2 60 second).isSome && !fraction.isEmpty && fraction.all isDigit
      | _ => false
  | _ => false

def isOffset (cs : List Char) : Bool :=
  match cs with
  | [] | ['Z'] | ['z'] => true
  | c :: cs =>
    (c = '+' || c = '-') &&
      match splitAt ':' cs with
      | [hour, minute] => (pair? 2 23 hour).isSome && (pair? 2 59 minute).isSome
      | _ => false

def isTimeWithOffset (cs : List Char) : Bool :=
  let isClock (c : Char) : Bool := isDigit c || c = ':' || c = '.'
  isTime (cs.takeWhile isClock) && isOffset (cs.dropWhile isClock)

def isDateTime (cs : List Char) : Bool :=
  isTime cs || isDate cs ||
    (isDate (cs.take 10) && ((cs[10]?).any fun c => c = 'T' || c = 't' || c = ' ') &&
      isTimeWithOffset (cs.drop 11))

def isWord (c : Char) : Bool := isBare c || c = '+' || c = '.' || c = ':'

/-- The characters of a number, a date or a name. A time may follow a date after one blank. -/
def word (cs : List Char) : List Char :=
  let first := cs.takeWhile isWord
  match cs.dropWhile isWord with
  | ' ' :: c :: rest =>
    if isDate first && isDigit c then first ++ ' ' :: (c :: rest).takeWhile isWord else first
  | _ => first

def word? (cs : List Char) : Option Data :=
  if cs = "true".toList then some (.bool true)
  else if cs = "false".toList then some (.bool false)
  else if isDateTime cs then some (.record [])
  else (integer? cs).or (float? cs)

mutual

/-- Reads a value in which at most `room` brackets are open at once. -/
def value? : Nat → Nat → List Char → Option (Data × List Char)
  | 0, _, _ => none
  | fuel + 1, room, cs =>
    match room, cs with
    | _, '"' :: cs => (string? '"' cs).map fun p => (.text p.1, p.2)
    | _, '\'' :: cs => (string? '\'' cs).map fun p => (.text p.1, p.2)
    | room + 1, '[' :: cs => (array? fuel room cs).map fun p => (.list p.1, p.2)
    | room + 1, '{' :: cs =>
      match skipSpace cs with
      | '}' :: cs => some (.record [], cs)
      | cs => (inline? fuel room .empty cs).map fun p => (.record (membersToData p.1.items), p.2)
    | _, cs => (word? (word cs)).map fun d => (d, cs.drop (word cs).length)

def array? : Nat → Nat → List Char → Option (List Data × List Char)
  | 0, _, _ => none
  | fuel + 1, room, cs =>
    match skipLines cs.length cs with
    | ']' :: cs => some ([], cs)
    | cs => do
      let (d, cs) ← value? fuel room cs
      match skipLines cs.length cs with
      | ']' :: cs => some ([d], cs)
      | ',' :: cs =>
        let (ds, cs) ← array? fuel room cs
        some (d :: ds, cs)
      | _ => none

def inline? : Nat → Nat → Table → List Char → Option (Table × List Char)
  | 0, _, _, _ => none
  | fuel + 1, room, t, cs => do
    let ((path, key), cs) ← key? cs
    match cs with
    | '=' :: cs =>
      let (d, cs) ← value? fuel room (skipSpace cs)
      let t ← t.assign path key d
      match skipSpace cs with
      | '}' :: cs => some (t, cs)
      | ',' :: cs => inline? fuel room t cs
      | _ => none
    | _ => none

end

/-- Reads the lines of a document into a table, given the path of the last header. -/
def document? : Nat → List String → Table → List Char → Option Table
  | 0, _, _, _ => none
  | fuel + 1, header, root, cs =>
    match skipSpace cs with
    | [] => some root
    | '[' :: '[' :: cs => do
      let ((path, key), cs) ← key? cs
      match cs with
      | ']' :: ']' :: cs =>
        let root ← root.extend path key
        document? fuel (path ++ [key]) root (← endLine? cs)
      | _ => none
    | '[' :: cs => do
      let ((path, key), cs) ← key? cs
      match cs with
      | ']' :: cs =>
        let root ← root.define path key
        document? fuel (path ++ [key]) root (← endLine? cs)
      | _ => none
    | c :: cs =>
      match endLine? (c :: cs) with
      | some cs => document? fuel header root cs
      | none => do
        let ((path, key), cs) ← key? (c :: cs)
        match cs with
        | '=' :: cs =>
          let (d, cs) ← value? (2 * cs.length + 2) maxDepth (skipSpace cs)
          let root ← Table.modify false (·.assign path key d) header root
          document? fuel header root (← endLine? cs)
        | _ => none

/-- A byte order mark at the start does not count. -/
def read? (s : String) : Option Data :=
  let cs := s.toList
  let cs := if cs.head? = some '\ufeff' then cs.drop 1 else cs
  (document? (cs.length + 1) [] .empty cs).map fun t => .record (membersToData t.items)

end ReleaseSelection.Toml
