import ReleaseSelection.Instant.Text
import ReleaseSelection.Proofs.Numerals

/-!
# Dates as they are written

An instant of the years that have four digits is written and read back as itself, unless it lies
within a leap second (`Instant.ofText?_text`).
-/

namespace ReleaseSelection

/-! ## Numbers of a fixed width -/

namespace Text

def paddedDigits (width n : Nat) : List Nat :=
  List.replicate (width - (digits n).length) 0 ++ digits n

variable {width n : Nat}

theorem decimalPadded_eq_map (width n : Nat) :
    decimalPadded width n = (paddedDigits width n).map digitChar := by
  have zero : digitChar 0 = '0' := rfl
  simp only [decimalPadded, paddedDigits, decimal_eq_map_digits, List.length_map, List.map_append,
    List.map_replicate, zero]

theorem lt_of_mem_paddedDigits {d : Nat} (mem : d ∈ paddedDigits width n) : d < 10 := by
  rcases List.mem_append.mp mem with zero | digit
  · rw [List.eq_of_mem_replicate zero]
    decide
  · exact lt_of_mem_digits digit

theorem paddedDigits_ne_nil (width n : Nat) : paddedDigits width n ≠ [] := by
  simp [paddedDigits, digits_ne_nil]

theorem ofDigits_paddedDigits (width n : Nat) : ofDigits 10 (paddedDigits width n) = n := by
  have zeros (k : Nat) : (List.replicate k 0).foldl (fun n d => 10 * n + d) 0 = 0 := by
    induction k with
    | zero => rfl
    | succ k ih => exact ih
  rw [paddedDigits, ofDigits, List.foldl_append, zeros]
  exact ofDigits_digits n

theorem length_digits_le (pos : 0 < width) (fits : n < Nat.pow 10 width) :
    (digits n).length ≤ width := by
  induction width generalizing n with
  | zero => cases pos
  | succ width ih =>
    have bound : n < Nat.pow 10 width * 10 := fits
    rw [digits]
    split
    · simp
    · have longer : 0 < width := by
        rcases Nat.eq_zero_or_pos width with rfl | pos
        · have small : n < 10 := bound
          omega
        · exact pos
      have shorter := ih (n := n / 10) longer (by omega)
      simpa using shorter

theorem length_paddedDigits (pos : 0 < width) (fits : n < Nat.pow 10 width) :
    (paddedDigits width n).length = width := by
  have short := length_digits_le pos fits
  simp only [paddedDigits, List.length_append, List.length_replicate]
  omega

theorem readDecimal?_map {ds : List Nat} (ne_nil : ds ≠ []) (digits : ∀ d ∈ ds, d < 10) :
    readDecimal? (ds.map digitChar) = some (ofDigits 10 ds) := by
  have read : (ds.map digitChar).mapM digit? = some ds := by
    clear ne_nil
    induction ds with
    | nil => rfl
    | cons d ds ih =>
      obtain ⟨digit, digits⟩ := List.forall_mem_cons.mp digits
      simp [digit?_digitChar digit, ih digits]
  have written : (ds.map digitChar).isEmpty = false := by simp [ne_nil]
  simp [readDecimal?, written, read]

end Text

/-! ## Reading -/

namespace Instant

open Text

variable {width limit n : Nat} {rest : List Char}

theorem readNumber_map {ds : List Nat} (ne_nil : ds ≠ []) (digits : ∀ d ∈ ds, d < 10)
    (short : ds.length ≤ limit) (ends : ∀ c ∈ rest.head?, isDigit c = false) :
    readNumber limit (ds.map digitChar ++ rest) = some (ofDigits 10 ds, rest) := by
  have all : ∀ c ∈ ds.map digitChar, isDigit c := by
    intro c mem
    obtain ⟨d, digit, rfl⟩ := List.mem_map.mp mem
    exact isDigit_digitChar (digits d digit)
  -- The limit may lie beyond the number, but what follows does not carry it on.
  have further (k : Nat) : (rest.take k).takeWhile isDigit = [] := by
    cases k with
    | zero => rfl
    | succ k =>
      cases rest with
      | nil => rfl
      | cons c rest => simp [ends c rfl]
  have taken : ((ds.map digitChar ++ rest).take limit).takeWhile isDigit = ds.map digitChar := by
    rw [List.take_append, List.take_of_length_le (by simpa using short),
      List.takeWhile_append_of_pos all, further, List.append_nil]
  simp only [readNumber, taken, readDecimal?_map ne_nil digits, Option.map_some, List.drop_left]

/-- Leading zeros do not change a number that is read. -/
theorem readNumber_padded (width : Nat) (pos : 0 < width) (fits : n < Nat.pow 10 width)
    (short : width ≤ limit) (ends : ∀ c ∈ rest.head?, isDigit c = false) :
    readNumber limit (decimalPadded width n ++ rest) = some (n, rest) := by
  have length := length_paddedDigits pos fits
  have fits : (paddedDigits width n).length ≤ limit := by omega
  have read := readNumber_map (paddedDigits_ne_nil width n)
    (fun d mem => lt_of_mem_paddedDigits mem) fits ends
  rw [ofDigits_paddedDigits] at read
  rw [decimalPadded_eq_map]
  exact read

theorem exists_head_padded (width n : Nat) :
    ∃ c cs, decimalPadded width n = c :: cs ∧ isDigit c := by
  cases written : paddedDigits width n with
  | nil => exact absurd written (paddedDigits_ne_nil width n)
  | cons d ds =>
    have digit : d < 10 := lt_of_mem_paddedDigits (by rw [written]; exact List.mem_cons_self)
    exact ⟨digitChar d, ds.map digitChar, by rw [decimalPadded_eq_map, written]; rfl,
      isDigit_digitChar digit⟩

theorem trimStart_padded (width n : Nat) (rest : List Char) :
    trimStart (decimalPadded width n ++ rest) = decimalPadded width n ++ rest := by
  obtain ⟨c, cs, written, digit⟩ := exists_head_padded width n
  rw [written, List.cons_append, trimStart_cons (isBlank_of_isDigit digit)]

/-! ## Instants -/

def year (t : Instant) : Int := (Calendar.Date.ofDay (t.second / secondsPerDay + 719162)).year

/-- An instant of the years that are written with four digits, and outside of a leap second. -/
structure IsPlain (t : Instant) : Prop where
  first : 0 ≤ t.year
  last : t.year ≤ 9999
  nano : t.nano < nanosPerSecond

theorem readYear_text {year : Int} (first : 0 ≤ year) (last : year ≤ 9999)
    (ends : ∀ c ∈ rest.head?, isDigit c = false) :
    readYear (yearText year ++ rest) = some (year, rest) := by
  have fits : year.toNat < 10000 := by omega
  have read := readNumber_padded 4 (by decide) fits (Nat.le_refl 4) ends
  obtain ⟨c, cs, written, digit⟩ := exists_head_padded 4 year.toNat
  have other : c ≠ '-' ∧ c ≠ '+' := by
    constructor <;> rintro rfl <;> cases digit
  rw [yearText, if_pos ⟨first, last⟩]
  simp only [written, List.cons_append] at read ⊢
  simp [readYear, other, read, Int.max_eq_left first]

theorem readFraction_padded (width : Nat) (pos : 0 < width) (fits : n < Nat.pow 10 width)
    (short : width ≤ 9) (ends : ∀ c ∈ rest.head?, isDigit c = false) :
    readFraction ('.' :: decimalPadded width n ++ rest) =
      some (n * Nat.pow 10 (9 - width), rest) := by
  have read := readNumber_padded width pos fits short ends
  have length : (decimalPadded width n).length = width := by
    rw [decimalPadded_eq_map, List.length_map, length_paddedDigits pos fits]
  have dropped : rest.dropWhile isDigit = rest := by
    cases rest with
    | nil => rfl
    | cons c rest => simp [ends c rfl]
  simp [readFraction, read, length, dropped]

theorem readFraction_text {nano : Nat} (lt : nano < nanosPerSecond)
    (ends : ∀ c ∈ rest.head?, isDigit c = false ∧ c ≠ '.') :
    readFraction (fractionText nano ++ rest) = some (nano, rest) := by
  have endsDigits : ∀ c ∈ rest.head?, isDigit c = false := fun c mem => (ends c mem).1
  unfold nanosPerSecond at lt
  unfold fractionText
  split_ifs with none millis micros
  · subst none
    cases rest with
    | nil => rfl
    | cons c rest => simp [readFraction, (ends c rfl).2]
  · have fits : nano / 1000000 < 1000 := by omega
    rw [readFraction_padded 3 (by decide) fits (by decide) endsDigits]
    show some (nano / 1000000 * 1000000, rest) = some (nano, rest)
    rw [Nat.div_mul_cancel (Nat.dvd_of_mod_eq_zero millis)]
  · have fits : nano / 1000 < 1000000 := by omega
    rw [readFraction_padded 6 (by decide) fits (by decide) endsDigits]
    show some (nano / 1000 * 1000, rest) = some (nano, rest)
    rw [Nat.div_mul_cancel (Nat.dvd_of_mod_eq_zero micros)]
  · rw [readFraction_padded 9 (by decide) lt (by decide) endsDigits]
    show some (nano * 1, rest) = some (nano, rest)
    rw [Nat.mul_one]

/-- What stands behind a second does not carry it on. -/
theorem head?_fractionText (nano : Nat) (ends : ∀ c ∈ rest.head?, isDigit c = false) :
    ∀ c ∈ (fractionText nano ++ rest).head?, isDigit c = false := by
  unfold fractionText
  split_ifs
  · exact ends
  all_goals
    rintro _ ⟨⟩
    rfl

theorem readMark_cons (mark : Char) (cs : List Char) : readMark mark (mark :: cs) = some cs := by
  simp [readMark]

theorem digits_of_valid {date : Calendar.Date} (valid : date.isValid) :
    date.month < 100 ∧ 0 ≤ date.day ∧ date.day < 100 := by
  simp only [Calendar.Date.isValid, Bool.and_eq_true, Option.any_eq_true,
    decide_eq_true_eq] at valid
  obtain ⟨_, length, month, lo, hi⟩ := valid
  have short : length ≤ 31 := by
    have mem := List.mem_of_getElem? month
    simp only [Calendar.monthLengths, List.mem_cons, List.not_mem_nil, or_false] at mem
    split at mem <;> omega
  have early : date.month - 1 < 12 := (List.getElem?_eq_some_iff.mp month).1
  omega

theorem ends_mark (mark : Char) (other : isDigit mark = false) (cs : List Char) :
    ∀ c ∈ (mark :: cs).head?, isDigit c = false := by
  rintro _ ⟨⟩
  exact other

theorem readNumber_two (fits : n < 100) (ends : ∀ c ∈ rest.head?, isDigit c = false) :
    readNumber 2 (decimalPadded 2 n ++ rest) = some (n, rest) :=
  readNumber_padded 2 (by decide) fits (Nat.le_refl 2) ends

theorem readDate_text {date : Calendar.Date} (valid : date.isValid) (first : 0 ≤ date.year)
    (last : date.year ≤ 9999) (ends : ∀ c ∈ rest.head?, isDigit c = false) :
    readDate (yearText date.year ++ '-' :: (decimalPadded 2 date.month ++
      '-' :: (decimalPadded 2 date.day.toNat ++ rest))) = some (date, rest) := by
  obtain ⟨month, positive, short⟩ := digits_of_valid valid
  have day : date.day.toNat < 100 := by omega
  have trimmed (cs : List Char) :
      trimStart (yearText date.year ++ cs) = yearText date.year ++ cs := by
    rw [yearText, if_pos ⟨first, last⟩, trimStart_padded]
  have dash (cs : List Char) : trimStart ('-' :: cs) = '-' :: cs := trimStart_cons rfl cs
  simp only [readDate, trimmed, readYear_text first last (ends_mark '-' rfl _), dash,
    readMark_cons, trimStart_padded, readNumber_two month (ends_mark '-' rfl _),
    readNumber_two day ends, Option.bind_eq_bind, Option.bind_some, Int.toNat_of_nonneg positive]
  have early : -262143 ≤ date.year ∧ date.year ≤ 262142 := by omega
  simp [valid, early]

theorem readClock_text (hour minute second nano : Nat) (hours : hour < 24) (minutes : minute < 60)
    (seconds : second < 60) (lt : nano < nanosPerSecond)
    (ends : ∀ c ∈ rest.head?, isDigit c = false ∧ c ≠ '.') :
    readClock (decimalPadded 2 hour ++ ':' :: (decimalPadded 2 minute ++
      ':' :: (decimalPadded 2 second ++ (fractionText nano ++ rest)))) =
      some ((hour : Int) * 3600 + minute * 60 + second, nano, rest) := by
  have colon (cs : List Char) : trimStart (':' :: cs) = ':' :: cs := trimStart_cons rfl cs
  have fraction := readFraction_text lt ends
  have endsSecond := head?_fractionText nano fun c mem => (ends c mem).1
  simp only [readClock, trimStart_padded, colon, readMark_cons,
    readNumber_two (Nat.lt_trans hours (by decide)) (ends_mark ':' rfl _),
    readNumber_two (Nat.lt_trans minutes (by decide)) (ends_mark ':' rfl _),
    readNumber_two (Nat.lt_trans seconds (by decide)) endsSecond, fraction, Option.bind_eq_bind,
    Option.bind_some]
  rw [if_neg (by omega), if_neg (by omega)]

theorem second_eq (t : Instant) :
    ((Calendar.Date.ofDay (t.second / secondsPerDay + 719162)).toDay - 719162) * secondsPerDay +
      (((t.secondOfDay.toNat / 3600 : Nat) : Int) * 3600 +
        (t.secondOfDay.toNat / 60 % 60 : Nat) * 60 + (t.secondOfDay.toNat % 60 : Nat)) - 0 =
      t.second := by
  rw [Calendar.Date.toDay_ofDay]
  unfold secondOfDay secondsPerDay
  omega

theorem isRepresentable_of_plain {t : Instant} (plain : t.IsPlain) : isRepresentable t.second := by
  have first : 0 ≤ Calendar.yearOf (t.second / secondsPerDay + 719162) := plain.first
  have last : Calendar.yearOf (t.second / secondsPerDay + 719162) ≤ 9999 := plain.last
  simp only [isRepresentable, Bool.and_eq_true, decide_eq_true_eq]
  omega

/-- **A date is read back as it was written.** -/
theorem ofText?_text {t : Instant} (plain : t.IsPlain) : ofText? t.text = some t := by
  have valid := Calendar.Date.isValid_ofDay (t.second / secondsPerDay + 719162)
  have clock : t.secondOfDay.toNat < 86400 := by
    unfold secondOfDay secondsPerDay
    omega
  have ends : ∀ c ∈ ['Z'].head?, isDigit c = false ∧ c ≠ '.' := by
    rintro _ ⟨⟩
    exact ⟨rfl, by decide⟩
  have time := readClock_text (t.secondOfDay.toNat / 3600) (t.secondOfDay.toNat / 60 % 60)
    (t.secondOfDay.toNat % 60) t.nano (by omega) (by omega) (by omega) plain.nano ends
  have whole : t.nano / nanosPerSecond = 0 := Nat.div_eq_of_lt plain.nano
  have separator (cs : List Char) : readSeparator ('T' :: cs) = some cs := rfl
  have offset : readOffset (trimStart ['Z']) = some (0, []) := rfl
  simp only [ofText?, text, String.toList_ofList, List.append_assoc, List.cons_append, whole,
    Nat.add_zero, Nat.mod_eq_of_lt plain.nano,
    readDate_text valid plain.first plain.last (ends_mark 'T' rfl _), separator, time,
    offset, Option.bind_eq_bind, Option.bind_some, second_eq, isRepresentable_of_plain plain]
  rfl

end Instant

end ReleaseSelection
