import Mathlib.Data.List.Basic
import ReleaseSelection.Data.Json

/-!
# Numerals as they are written

A numeral is written with its sign, its digits, and a point or an exponent where it has one. It is
read back as itself wherever the text behind it does not carry it on (`Json.numeral?_text`), and
the numeral of an integer of 64 bits gives back the integer (`Numeral.toData_ofInt`).
-/

namespace ReleaseSelection

/-! ## Digits -/

namespace Text

/-- The decimal digits of `n`, the highest first and without leading zeros. -/
def digits (n : Nat) : List Nat :=
  if n < 10 then [n] else digits (n / 10) ++ [n % 10]
termination_by n
decreasing_by omega

theorem decimal_eq_map_digits (n : Nat) : decimal n = (digits n).map digitChar := by
  rw [decimal, digits]
  split
  · rfl
  · rw [decimal_eq_map_digits (n / 10), List.map_append, List.map_singleton]
termination_by n
decreasing_by omega

theorem digits_ne_nil (n : Nat) : digits n ≠ [] := by
  rw [digits]
  split <;> simp

theorem lt_of_mem_digits {n d : Nat} (mem : d ∈ digits n) : d < 10 := by
  rw [digits] at mem
  split at mem
  · rename_i small
    rw [List.mem_singleton.mp mem]
    exact small
  · rcases List.mem_append.mp mem with higher | last
    · exact lt_of_mem_digits higher
    · rw [List.mem_singleton.mp last]
      exact Nat.mod_lt n (by decide)
termination_by n
decreasing_by omega

theorem ofDigits_digits (n : Nat) : ofDigits 10 (digits n) = n := by
  rw [digits]
  split
  · simp [ofDigits]
  · have higher := ofDigits_digits (n / 10)
    simp only [ofDigits, List.foldl_append, List.foldl_cons, List.foldl_nil] at higher ⊢
    rw [higher]
    omega
termination_by n
decreasing_by omega

theorem pos_of_head?_digits {n d : Nat} (pos : 0 < n) (head : (digits n).head? = some d) :
    0 < d := by
  rw [digits] at head
  split at head
  · obtain rfl := Option.some.inj head
    exact pos
  · have higher : (digits (n / 10)).head? = some d := by
      rw [List.head?_append_of_ne_nil _ (digits_ne_nil _)] at head
      exact head
    exact pos_of_head?_digits (by omega) higher
termination_by n
decreasing_by omega

/-- Only zero itself is written with a zero in front. -/
theorem length_digits_of_zero {n : Nat} (head : (digits n).head? = some 0) :
    (digits n).length = 1 := by
  rcases Nat.eq_zero_or_pos n with rfl | pos
  · rw [digits]
    rfl
  · exact absurd (pos_of_head?_digits pos head) (Nat.lt_irrefl 0)

theorem isDigit_digitChar {d : Nat} (lt : d < 10) : isDigit (digitChar d) := by
  rw [isDigit, digit?_digitChar lt]
  rfl

theorem digitChar_ne {d : Nat} (lt : d < 10) {c : Char} (other : isDigit c = false) :
    digitChar d ≠ c := by
  rintro rfl
  rw [isDigit_digitChar lt] at other
  cases other

theorem code_of_isDigit {c : Char} (digit : isDigit c) : 48 ≤ c.toNat ∧ c.toNat ≤ 57 := by
  simpa [isDigit, digit?, Char.le_def, UInt32.le_iff_toNat_le] using digit

theorem isBlank_of_isDigit {c : Char} (digit : isDigit c) : isBlank c = false := by
  have code := code_of_isDigit digit
  simp only [isBlank, Bool.or_eq_false_iff, Bool.and_eq_false_iff, decide_eq_false_iff_not,
    beq_eq_false_iff_ne]
  omega

theorem trimStart_cons {c : Char} (other : isBlank c = false) (cs : List Char) :
    trimStart (c :: cs) = c :: cs := by
  simp [trimStart, other]

end Text

/-! ## Numerals -/

namespace Numeral

/-- The digits of a numeral are digits, and its whole part starts with a zero only if it is zero. -/
structure WellFormed (n : Numeral) : Prop where
  whole_ne_nil : n.whole ≠ []
  length_of_zero : n.whole.head? = some 0 → n.whole.length = 1
  whole_lt : ∀ d ∈ n.whole, d < 10
  fraction_lt : ∀ d ∈ n.fraction, d < 10
  exponent : ∀ e, n.exponent = some e → e.2 ≠ [] ∧ ∀ d ∈ e.2, d < 10

def fractionText : List Nat → List Char
  | [] => []
  | ds => '.' :: ds.map Text.digitChar

def exponentText : Option (Bool × List Nat) → List Char
  | none => []
  | some (true, ds) => 'e' :: '-' :: ds.map Text.digitChar
  | some (false, ds) => 'e' :: ds.map Text.digitChar

def text (n : Numeral) : List Char :=
  (if n.negative then ['-'] else []) ++ n.whole.map Text.digitChar ++ fractionText n.fraction ++
    exponentText n.exponent

/-- The numeral of an integer. -/
def ofInt (n : Int) : Numeral := ⟨n < 0, Text.digits n.natAbs, [], none⟩

theorem wellFormed_ofInt (n : Int) : (ofInt n).WellFormed where
  whole_ne_nil := Text.digits_ne_nil _
  length_of_zero := Text.length_digits_of_zero
  whole_lt _ mem := Text.lt_of_mem_digits mem
  fraction_lt := List.forall_mem_nil _
  exponent := nofun

theorem integer_eq_text (n : Int) : Text.integer n = (ofInt n).text := by
  cases n <;>
    simp [Text.integer, ofInt, text, fractionText, exponentText, Text.decimal_eq_map_digits]

/-- An integer of 64 bits is read as an integer. -/
theorem toData_ofInt {n : Int} (lo : -9223372036854775808 ≤ n) (hi : n ≤ 18446744073709551615) :
    (ofInt n).toData = .int n := by
  have read : (ofInt n).int? = some n := by
    simp only [int?, ofInt, List.isEmpty_nil, Option.isNone_none, Bool.and_self, if_true,
      Text.ofDigits_digits, maxSignificand]
    by_cases negative : n < 0
    · simp only [negative, decide_true, if_true]
      rw [if_pos (by omega), Option.some.injEq]
      omega
    · simp only [negative, decide_false, Bool.false_eq_true, if_false]
      rw [if_pos (by omega), Option.some.injEq]
      omega
  rw [toData, read]

end Numeral

/-! ## Reading -/

namespace Json

open Text

/-- What follows a numeral does not carry it on. -/
def Ends (rest : List Char) : Prop :=
  ∀ c ∈ rest.head?, isDigit c = false ∧ c ≠ '.' ∧ c ≠ 'e' ∧ c ≠ 'E'

theorem takeDigits_append {ds : List Nat} {rest : List Char} (digits : ∀ d ∈ ds, d < 10)
    (ends : ∀ c ∈ rest.head?, isDigit c = false) :
    takeDigits (ds.map digitChar ++ rest) = (ds, rest) := by
  induction ds with
  | nil =>
    cases rest with
    | nil => rfl
    | cons c rest =>
      have other := ends c rfl
      simp [takeDigits, other]
  | cons d ds ih =>
    obtain ⟨digit, digits⟩ := List.forall_mem_cons.mp digits
    have further := ih digits
    simp only [takeDigits, Prod.mk.injEq] at further
    simp [takeDigits, isDigit_digitChar digit, digit?_digitChar digit, further]

variable {n : Numeral} {rest : List Char}

theorem fraction?_text {ds : List Nat} (digits : ∀ d ∈ ds, d < 10)
    (ends : ∀ c ∈ rest.head?, isDigit c = false ∧ c ≠ '.') :
    fraction? (Numeral.fractionText ds ++ rest) = some (ds, rest) := by
  cases ds with
  | nil =>
    cases rest with
    | nil => rfl
    | cons c rest =>
      have other := (ends c rfl).2
      simp [Numeral.fractionText, fraction?, other]
  | cons d ds =>
    have taken := takeDigits_append digits fun c mem => (ends c mem).1
    simp only [Numeral.fractionText, fraction?, List.cons_append, taken]
    rfl

theorem exponentDigits?_append {ds : List Nat} (negative : Bool) (ne_nil : ds ≠ [])
    (digits : ∀ d ∈ ds, d < 10) (ends : ∀ c ∈ rest.head?, isDigit c = false) :
    exponentDigits? negative (ds.map digitChar ++ rest) = some (some (negative, ds), rest) := by
  have taken := takeDigits_append digits ends
  simp only [exponentDigits?, taken]
  rw [if_neg (by simp [ne_nil])]

theorem exponent?_text (wellFormed : ∀ e, n.exponent = some e → e.2 ≠ [] ∧ ∀ d ∈ e.2, d < 10)
    (ends : Ends rest) :
    exponent? (Numeral.exponentText n.exponent ++ rest) = some (n.exponent, rest) := by
  cases written : n.exponent with
  | none =>
    cases rest with
    | nil => rfl
    | cons c rest =>
      have other := (ends c rfl).2.2
      simp [Numeral.exponentText, exponent?, other]
  | some e =>
    obtain ⟨ne_nil, digits⟩ := wellFormed e written
    obtain ⟨negative, ds⟩ := e
    have read := exponentDigits?_append negative ne_nil digits fun c mem => (ends c mem).1
    cases negative with
    | true => exact read
    | false =>
      cases ds with
      | nil => exact absurd rfl ne_nil
      | cons d ds =>
        have plain : digitChar d ≠ '-' ∧ digitChar d ≠ '+' := by
          have digit := digits d List.mem_cons_self
          exact ⟨digitChar_ne digit rfl, digitChar_ne digit rfl⟩
        simp only [List.map_cons, List.cons_append] at read
        simp [Numeral.exponentText, exponent?, plain, read]

/-- Neither an exponent nor what follows it carries on a fraction. -/
theorem head?_exponentText (e : Option (Bool × List Nat)) (ends : Ends rest) :
    ∀ c ∈ (Numeral.exponentText e ++ rest).head?, isDigit c = false ∧ c ≠ '.' := by
  match e with
  | none => exact fun c mem => ⟨(ends c mem).1, (ends c mem).2.1⟩
  | some (true, ds) =>
    rintro _ ⟨⟩
    exact ⟨rfl, by decide⟩
  | some (false, ds) =>
    rintro _ ⟨⟩
    exact ⟨rfl, by decide⟩

theorem head?_fractionText (ds : List Nat)
    (ends : ∀ c ∈ rest.head?, isDigit c = false ∧ c ≠ '.') :
    ∀ c ∈ (Numeral.fractionText ds ++ rest).head?, isDigit c = false := by
  cases ds with
  | nil => exact fun c mem => (ends c mem).1
  | cons d ds =>
    rintro _ ⟨⟩
    rfl

theorem unsigned?_text (wellFormed : n.WellFormed) (ends : Ends rest) :
    unsigned? n.negative (n.whole.map digitChar ++ (Numeral.fractionText n.fraction ++
      (Numeral.exponentText n.exponent ++ rest))) = some (n, rest) := by
  have endsFraction := head?_exponentText n.exponent ends
  have endsWhole := head?_fractionText n.fraction endsFraction
  have whole := takeDigits_append wellFormed.whole_lt endsWhole
  have fraction := fraction?_text wellFormed.fraction_lt endsFraction
  have exponent := exponent?_text wellFormed.exponent ends
  have canonical : ¬ (n.whole.isEmpty ∨ n.whole.head? = some 0 ∧ n.whole.length ≠ 1) := by
    rintro (none | ⟨zero, long⟩)
    · exact wellFormed.whole_ne_nil (List.isEmpty_iff.mp none)
    · exact long (wellFormed.length_of_zero zero)
  simp only [unsigned?, whole, if_neg canonical, fraction, exponent, Option.bind_eq_bind,
    Option.bind_some]

theorem numeral?_text (wellFormed : n.WellFormed) (ends : Ends rest) :
    numeral? (n.text ++ rest) = some (n, rest) := by
  have read := unsigned?_text wellFormed ends
  simp only [Numeral.text, List.append_assoc]
  cases negative : n.negative with
  | true =>
    rw [negative] at read
    exact read
  | false =>
    rw [negative] at read
    cases written : n.whole with
    | nil => exact absurd written wellFormed.whole_ne_nil
    | cons d ds =>
      -- No sign is read where the text starts with a digit.
      have digit : d < 10 := wellFormed.whole_lt d (by simp [written])
      have plain : digitChar d ≠ '-' := digitChar_ne digit rfl
      simp only [written, List.map_cons, List.cons_append] at read
      simp [numeral?, plain, read]

end Json

end ReleaseSelection
