/-!
# Text

Blank characters, trimming, comparison that ignores the case of ASCII letters, and decimal
numerals. `readDecimal?_decimal` says that a written number reads back.
-/

namespace ReleaseSelection.Text

/-- The characters with the Unicode property White_Space. -/
def isBlank (c : Char) : Bool :=
  let n := c.toNat
  (0x9 ≤ n && n ≤ 0xD) || n == 0x20 || n == 0x85 || n == 0xA0 || n == 0x1680 ||
    (0x2000 ≤ n && n ≤ 0x200A) || n == 0x2028 || n == 0x2029 || n == 0x202F || n == 0x205F ||
    n == 0x3000

def trimStart (cs : List Char) : List Char := cs.dropWhile isBlank

/-- Drops the blank characters at both ends. -/
def trim (cs : List Char) : List Char := (trimStart (trimStart cs).reverse).reverse

def isBlankText (s : String) : Bool := s.toList.all isBlank

/-- Equality up to the case of ASCII letters. -/
def sameLetters (a b : String) : Bool :=
  a.toList.map Char.toLower == b.toList.map Char.toLower

/-- The lower case of a character by its code. -/
theorem toNat_toLower (c : Char) :
    c.toLower.toNat = if 65 ≤ c.toNat ∧ c.toNat ≤ 90 then c.toNat + 32 else c.toNat := by
  have upper : (c.val ≥ 'A'.val ∧ c.val ≤ 'Z'.val) ↔ 65 ≤ c.toNat ∧ c.toNat ≤ 90 := by
    simp [UInt32.le_iff_toNat_le]
  unfold Char.toLower
  split
  · rename_i code
    have code := upper.mp code
    rw [if_pos code, ← Char.toNat_val, UInt32.toNat_add]
    change (c.toNat + 32) % 4294967296 = c.toNat + 32
    omega
  · rename_i other
    rw [if_neg (other ∘ upper.mpr)]

/-- The upper case of a character by its code. The difference is added modulo 2 ^ 32. -/
theorem toNat_toUpper (c : Char) :
    c.toUpper.toNat = if 97 ≤ c.toNat ∧ c.toNat ≤ 122 then c.toNat - 32 else c.toNat := by
  have lower : ('a'.val ≤ c.val ∧ c.val ≤ 'z'.val) ↔ 97 ≤ c.toNat ∧ c.toNat ≤ 122 := by
    simp [UInt32.le_iff_toNat_le]
  unfold Char.toUpper
  split
  · rename_i code
    have code := lower.mp code
    rw [if_pos code, ← Char.toNat_val, UInt32.toNat_add]
    change (c.toNat + 4294967264) % 4294967296 = c.toNat - 32
    omega
  · rename_i other
    rw [if_neg (other ∘ lower.mpr)]

/-- The text after a word that a text starts with. -/
def afterWord? (word : String) (cs : List Char) : Option (List Char) :=
  if cs.take word.length = word.toList then some (cs.drop word.length) else none

/-- The value of an ASCII digit. -/
def digit? (c : Char) : Option Nat :=
  if '0' ≤ c ∧ c ≤ '9' then some (c.toNat - '0'.toNat) else none

def isDigit (c : Char) : Bool := (digit? c).isSome

/-- The value of an ASCII hexadecimal digit in either case. -/
def hexDigit? (c : Char) : Option Nat :=
  if '0' ≤ c ∧ c ≤ '9' then some (c.toNat - '0'.toNat)
  else if 'a' ≤ c ∧ c ≤ 'f' then some (c.toNat - 'a'.toNat + 10)
  else if 'A' ≤ c ∧ c ≤ 'F' then some (c.toNat - 'A'.toNat + 10)
  else none

/-- The number that digits of a base stand for, the highest first. -/
def ofDigits (base : Nat) (ds : List Nat) : Nat := ds.foldl (fun n d => base * n + d) 0

/-- Reads a non-empty run of ASCII digits. -/
def readDecimal? (cs : List Char) : Option Nat :=
  if cs.isEmpty then none else (cs.mapM digit?).map (ofDigits 10)

/-- Reads a run of hexadecimal digits. -/
def readHex? (cs : List Char) : Option Nat := (cs.mapM hexDigit?).map (ofDigits 16)

/-- The character with a code point, if there is one. -/
def scalar? (n : Nat) : Option Char := if h : n.isValidChar then some (Char.ofNatAux n h) else none

def digitChar (d : Nat) : Char := Char.ofNat ('0'.toNat + d)

/-- The decimal numeral of `n`, without leading zeros. -/
def decimal (n : Nat) : List Char :=
  if n < 10 then [digitChar n] else decimal (n / 10) ++ [digitChar (n % 10)]
termination_by n
decreasing_by omega

/-- The decimal numeral of `n`, filled up with zeros to at least `width` digits. -/
def decimalPadded (width n : Nat) : List Char :=
  List.replicate (width - (decimal n).length) '0' ++ decimal n

def integer (n : Int) : List Char :=
  match n with
  | .ofNat n => decimal n
  | .negSucc n => '-' :: decimal (n + 1)

/-- The numeral of an integer as a text. -/
def numeral (n : Int) : String := String.ofList (integer n)

/-- Texts with a separator between each two. -/
def joinWith (separator : Char) : List (List Char) → List Char
  | [] => []
  | [part] => part
  | part :: parts => part ++ separator :: joinWith separator parts

/-- The parts of a text between its separators. -/
def splitAt (separator : Char) : List Char → List (List Char)
  | [] => [[]]
  | c :: cs =>
    if c = separator then [] :: splitAt separator cs
    else
      match splitAt separator cs with
      | [] => [[c]]
      | part :: parts => (c :: part) :: parts

theorem digit?_digitChar {d : Nat} (h : d < 10) : digit? (digitChar d) = some d := by
  have all : ∀ d, d < 10 → digit? (digitChar d) = some d := by decide
  exact all d h

theorem decimal_ne_nil (n : Nat) : decimal n ≠ [] := by
  rw [decimal]
  split <;> simp

theorem mapM_digit?_decimal (n : Nat) :
    ∃ ds, (decimal n).mapM digit? = some ds ∧ ofDigits 10 ds = n := by
  rw [decimal]
  split
  · rename_i h
    exact ⟨[n], by simp [digit?_digitChar h], by simp [ofDigits]⟩
  · obtain ⟨ds, hd, hn⟩ := mapM_digit?_decimal (n / 10)
    refine ⟨ds ++ [n % 10], ?_, ?_⟩
    · simp [hd, digit?_digitChar (Nat.mod_lt n (by decide : 0 < 10))]
    · simp only [ofDigits, List.foldl_append, List.foldl_cons, List.foldl_nil] at hn ⊢
      rw [hn]
      omega
termination_by n
decreasing_by omega

theorem readDecimal?_decimal (n : Nat) : readDecimal? (decimal n) = some n := by
  obtain ⟨ds, hd, hn⟩ := mapM_digit?_decimal n
  have hne : (decimal n).isEmpty = false := by
    cases h : decimal n with
    | nil => exact absurd h (decimal_ne_nil n)
    | cons => rfl
  simp [readDecimal?, hne, hd, hn]

end ReleaseSelection.Text
