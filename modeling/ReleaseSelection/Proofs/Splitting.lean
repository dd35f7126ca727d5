import Mathlib.Data.List.Forall2
import Mathlib.Data.List.TakeWhile
import Mathlib.Data.Nat.Digits.Defs
import ReleaseSelection.Proofs.Numerals

/-!
# Texts taken apart

What is left of a text without the blanks around it, its parts between separators, and the number
that a run of digits spells. What `trim` and `readDecimal?` find is said here without them
(`trim_eq_iff`, `readDecimal?_eq_some_iff`), and splitting undoes joining and joining splitting
(`splitAt_joinWith`, `joinWith_splitAt`).
-/

namespace ReleaseSelection

theorem mapM_eq_some_iff {α β : Type} {f : α → Option β} {xs : List α} {ys : List β} :
    xs.mapM f = some ys ↔ xs.Forall₂ (fun x y => f x = some y) ys := by
  induction xs generalizing ys with
  | nil => cases ys <;> simp
  | cons x xs ih =>
    rw [List.mapM_cons]
    cases ys with
    | nil => cases f x <;> cases xs.mapM f <;> simp
    | cons y ys =>
      rw [List.forall₂_cons, ← ih]
      cases f x <;> cases xs.mapM f <;> simp

/-- What each relative on the right vouches for holds on the left. -/
theorem forall_mem_of_forall₂ {α β : Type} {R : α → β → Prop} {p : α → Prop} {xs : List α}
    {ys : List β} (related : xs.Forall₂ R ys) (holds : ∀ x y, R x y → p x) : ∀ x ∈ xs, p x :=
  ((List.forall₂_and_left _ _).mp (related.imp fun x y own => ⟨holds x y own, own⟩)).1

namespace Text

variable {separator : Char} {part cs core : List Char} {parts : List (List Char)} {n : Nat}

/-! ## Blanks -/

/-- `core` is what is left of a text when the blanks at both of its ends are taken off. -/
structure Trimmed (cs core : List Char) : Prop where
  inside : ∃ before after, cs = before ++ core ++ after ∧ (∀ c ∈ before, isBlank c) ∧
    ∀ c ∈ after, isBlank c
  first : ∀ c ∈ core.head?, isBlank c = false
  last : ∀ c ∈ core.getLast?, isBlank c = false

theorem trimStart_append (blank : ∀ c ∈ part, isBlank c) :
    trimStart (part ++ cs) = trimStart cs :=
  List.dropWhile_append_of_pos blank

theorem exists_trimStart (cs : List Char) :
    ∃ before, cs = before ++ trimStart cs ∧ ∀ c ∈ before, isBlank c :=
  ⟨cs.takeWhile isBlank, List.takeWhile_append_dropWhile.symm, fun _ => List.mem_takeWhile_imp⟩

theorem trimStart_of_first (first : ∀ c ∈ cs.head?, isBlank c = false) : trimStart cs = cs := by
  cases cs with
  | nil => rfl
  | cons c cs => exact trimStart_cons (first c rfl) cs

theorem first_trimStart (cs : List Char) : ∀ c ∈ (trimStart cs).head?, isBlank c = false := by
  induction cs with
  | nil => simp [trimStart]
  | cons c cs ih =>
    by_cases blank : isBlank c
    · rwa [trimStart, List.dropWhile_cons_of_pos blank]
    · rw [trimStart_cons (by simpa using blank)]
      simpa using blank

theorem trimmed_trim (cs : List Char) : Trimmed cs (trim cs) := by
  obtain ⟨before, start, blankBefore⟩ := exists_trimStart cs
  obtain ⟨after, stop, blankAfter⟩ := exists_trimStart (trimStart cs).reverse
  have kept : trimStart cs = trim cs ++ after.reverse := by
    rw [← List.reverse_reverse (trimStart cs), stop, List.reverse_append]
    rfl
  refine ⟨⟨before, after.reverse, ?_, blankBefore, by simpa using blankAfter⟩, ?_, ?_⟩
  · rw [List.append_assoc, ← kept]
    exact start
  · intro c head
    apply first_trimStart cs
    rw [kept, List.head?_append, head]
    rfl
  · rw [trim, List.getLast?_reverse]
    exact first_trimStart _

theorem Trimmed.trim_eq (trimmed : Trimmed cs core) : trim cs = core := by
  obtain ⟨⟨before, after, rfl, blankBefore, blankAfter⟩, first, last⟩ := trimmed
  rw [trim, List.append_assoc, trimStart_append blankBefore]
  cases core with
  | nil =>
    have none : trimStart after = [] := List.dropWhile_eq_nil_iff.mpr blankAfter
    rw [List.nil_append, none]
    rfl
  | cons c rest =>
    have blank : ∀ c ∈ after.reverse, isBlank c := by simpa using blankAfter
    have start : trimStart (c :: rest ++ after) = c :: rest ++ after := trimStart_of_first first
    rw [start, List.reverse_append, trimStart_append blank,
      trimStart_of_first (by rwa [List.head?_reverse]), List.reverse_reverse]

theorem trim_eq_iff : trim cs = core ↔ Trimmed cs core := by
  constructor
  · rintro rfl
    exact trimmed_trim cs
  · exact Trimmed.trim_eq

/-! ## Separators -/

theorem joinWith_cons (ne_nil : parts ≠ []) :
    joinWith separator (part :: parts) = part ++ separator :: joinWith separator parts := by
  cases parts with
  | nil => contradiction
  | cons => rfl

theorem mem_joinWith {c : Char} (mem : c ∈ joinWith separator parts) :
    c = separator ∨ ∃ part ∈ parts, c ∈ part := by
  induction parts with
  | nil => cases mem
  | cons part parts ih =>
    by_cases last : parts = []
    · rw [last] at mem
      exact .inr ⟨part, List.mem_cons_self, mem⟩
    · rw [joinWith_cons last, List.mem_append, List.mem_cons] at mem
      rcases mem with own | rfl | later
      · exact .inr ⟨part, List.mem_cons_self, own⟩
      · exact .inl rfl
      · exact (ih later).imp_right fun ⟨other, mem, own⟩ =>
          ⟨other, List.mem_cons_of_mem part mem, own⟩

theorem splitAt_cons_self (separator : Char) (cs : List Char) :
    splitAt separator (separator :: cs) = [] :: splitAt separator cs := by
  rw [splitAt, if_pos rfl]

theorem splitAt_cons_of_ne {c : Char} (ne : c ≠ separator)
    (split : splitAt separator cs = part :: parts) :
    splitAt separator (c :: cs) = (c :: part) :: parts := by
  rw [splitAt, if_neg ne, split]

theorem exists_splitAt (separator : Char) (cs : List Char) :
    ∃ part parts, splitAt separator cs = part :: parts := by
  induction cs with
  | nil => exact ⟨_, _, rfl⟩
  | cons c cs ih =>
    by_cases same : c = separator
    · exact ⟨_, _, by rw [same, splitAt_cons_self]⟩
    · obtain ⟨part, parts, split⟩ := ih
      exact ⟨_, _, splitAt_cons_of_ne same split⟩

theorem joinWith_splitAt (separator : Char) (cs : List Char) :
    joinWith separator (splitAt separator cs) = cs := by
  induction cs with
  | nil => rfl
  | cons c cs ih =>
    obtain ⟨part, parts, split⟩ := exists_splitAt separator cs
    by_cases same : c = separator
    · rw [same, splitAt_cons_self, joinWith_cons (by simp [split]), ih]
      rfl
    · rw [splitAt_cons_of_ne same split]
      rw [split] at ih
      cases parts with
      | nil => exact congrArg (c :: ·) ih
      | cons => exact congrArg (c :: ·) ih

theorem splitAt_of_not_mem (free : separator ∉ cs) : splitAt separator cs = [cs] := by
  induction cs with
  | nil => rfl
  | cons c cs ih =>
    rw [List.mem_cons, not_or] at free
    exact splitAt_cons_of_ne (Ne.symm free.1) (ih free.2)

theorem splitAt_append (free : separator ∉ part) (cs : List Char) :
    splitAt separator (part ++ separator :: cs) = part :: splitAt separator cs := by
  induction part with
  | nil => exact splitAt_cons_self separator cs
  | cons c part ih =>
    rw [List.mem_cons, not_or] at free
    exact splitAt_cons_of_ne (Ne.symm free.1) (ih free.2)

theorem splitAt_joinWith (ne_nil : parts ≠ []) (free : ∀ part ∈ parts, separator ∉ part) :
    splitAt separator (joinWith separator parts) = parts := by
  induction parts with
  | nil => contradiction
  | cons part parts ih =>
    obtain ⟨first, rest⟩ := List.forall_mem_cons.mp free
    by_cases last : parts = []
    · rw [last]
      exact splitAt_of_not_mem first
    · rw [joinWith_cons last, splitAt_append first, ih last rest]

/-! ## Numbers -/

/-- A run of ASCII digits, one at the least, and the number that it stands for. -/
structure Spells (cs : List Char) (n : Nat) : Prop where
  ne_nil : cs ≠ []
  digits : ∀ c ∈ cs, '0' ≤ c ∧ c ≤ '9'
  value : Nat.ofDigits 10 (cs.reverse.map fun c => c.toNat - '0'.toNat) = n

theorem digit?_eq_some_iff {c : Char} {d : Nat} :
    digit? c = some d ↔ ('0' ≤ c ∧ c ≤ '9') ∧ c.toNat - '0'.toNat = d := by
  unfold digit?
  split <;> simp_all

theorem mapM_digit?_eq_some_iff {ds : List Nat} : cs.mapM digit? = some ds ↔
    (∀ c ∈ cs, '0' ≤ c ∧ c ≤ '9') ∧ (cs.map fun c => c.toNat - '0'.toNat) = ds := by
  rw [mapM_eq_some_iff]
  induction cs generalizing ds with
  | nil => cases ds <;> simp
  | cons c cs ih =>
    cases ds with
    | nil => simp
    | cons d ds =>
      rw [List.forall₂_cons, ih, digit?_eq_some_iff, List.forall_mem_cons, List.map_cons,
        List.cons.injEq]
      exact and_and_and_comm

/-- The digits are in order of place from the right. -/
theorem ofDigits_eq (ds : List Nat) : ofDigits 10 ds = Nat.ofDigits 10 ds.reverse := by
  rw [Nat.ofDigits_eq_foldr, List.foldr_reverse, ofDigits]
  simp only [Nat.add_comm, Nat.cast_id]

theorem readDecimal?_eq_some_iff : readDecimal? cs = some n ↔ Spells cs n := by
  rw [readDecimal?]
  cases cs with
  | nil =>
    constructor
    · intro read
      cases read
    · intro spells
      exact absurd rfl spells.ne_nil
  | cons c rest =>
    rw [List.isEmpty_cons, if_neg (by decide), Option.map_eq_some_iff]
    constructor
    · rintro ⟨ds, read, rfl⟩
      obtain ⟨digits, rfl⟩ := mapM_digit?_eq_some_iff.mp read
      exact ⟨List.cons_ne_nil c rest, digits, by rw [ofDigits_eq, List.map_reverse]⟩
    · rintro ⟨-, digits, rfl⟩
      exact ⟨_, mapM_digit?_eq_some_iff.mpr ⟨digits, rfl⟩, by rw [ofDigits_eq, List.map_reverse]⟩

theorem Spells.isDigit (spells : Spells cs n) : ∀ c ∈ cs, isDigit c := by
  intro c mem
  rw [Text.isDigit, digit?_eq_some_iff.mpr ⟨spells.digits c mem, rfl⟩]
  rfl

theorem spells_decimal (n : Nat) : Spells (decimal n) n :=
  readDecimal?_eq_some_iff.mp (readDecimal?_decimal n)

end Text

end ReleaseSelection
