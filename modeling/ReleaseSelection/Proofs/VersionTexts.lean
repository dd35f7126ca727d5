import ReleaseSelection.GameVersion
import ReleaseSelection.Proofs.Splitting

/-!
# How versions are written

A version is written with dots between its numbers, or as the number of a build. `Denotes` is the
grammar of the two. What is read are its texts, with blanks around them or without, and no others
(`GameVersion.parse_iff`), and the text of a version is one of its own
(`GameVersion.parse_text`).
-/

namespace ReleaseSelection

namespace GameVersion

open Text

variable {cs rest gap word : List Char} {numbers : List Count} {number : Count} {v : GameVersion}

/-! ## The grammar -/

/-- The numbers that a text lists with dots between them. -/
def Lists (cs : List Char) (numbers : List Count) : Prop :=
  ∃ parts, cs = joinWith '.' parts ∧
    parts.Forall₂ (fun part number => Spells part number.toNat) numbers

/-- The version of which these are the first parts, with zeros for the others. -/
def ofLeading (numbers : List Count) : GameVersion :=
  ⟨numbers.getD 0 0, numbers.getD 1 0, numbers.getD 2 0, numbers.getD 3 0⟩

/-- The word before the number of a build, in any case. -/
def IsBuildWord (word : List Char) : Prop :=
  word.map Char.toLower = "build".toList ∨ word.map Char.toLower = "b".toList

/-- A blank or a dot, or nothing. -/
def IsGap (gap : List Char) : Prop := gap = [] ∨ ∃ c, gap = [c] ∧ (c = '.' ∨ isBlank c)

/-- The texts that stand for a version. -/
inductive Denotes : List Char → GameVersion → Prop where
  /-- One to four numbers after an optional `v`. -/
  | dotted {mark cs : List Char} {numbers : List Count} (marked : mark = [] ∨ mark = ['v'])
      (listed : Lists cs numbers) (atLeast : numbers ≠ []) (atMost : numbers.length ≤ 4) :
      Denotes (mark ++ cs) (ofLeading numbers)
  | build {word gap numeral : List Char} {number : Count} (named : IsBuildWord word)
      (apart : IsGap gap) (spelled : Spells numeral number.toNat) :
      Denotes (word ++ gap ++ numeral) ⟨0, 0, 0, number⟩

/-! ## Numbers with dots between them -/

theorem part?_eq_some_iff : part? cs = some number ↔ Spells cs number.toNat := by
  rw [part?, Option.bind_eq_some_iff]
  have nonneg := number.lo_le
  constructor
  · rintro ⟨n, read, bounded⟩
    have value : number.toNat = n := by
      rw [Bounded.toNat, Bounded.ofInt?_eq_some_iff.mp bounded, Int.toNat_natCast]
    rw [value]
    exact readDecimal?_eq_some_iff.mp read
  · intro spells
    exact ⟨_, readDecimal?_eq_some_iff.mpr spells,
      Bounded.ofInt?_eq_some_iff.mpr (Int.toNat_of_nonneg nonneg).symm⟩

theorem ofParts?_eq_some_iff :
    ofParts? numbers = some v ↔ numbers ≠ [] ∧ numbers.length ≤ 4 ∧ ofLeading numbers = v := by
  match numbers with
  | [] => simp [ofParts?]
  | [_] => simp [ofParts?, ofLeading]
  | [_, _] => simp [ofParts?, ofLeading]
  | [_, _, _] => simp [ofParts?, ofLeading]
  | [_, _, _, _] => simp [ofParts?, ofLeading]
  | _ :: _ :: _ :: _ :: _ :: _ => simp [ofParts?]

theorem dot_not_mem {part : List Char} {n : Nat} (spells : Spells part n) : '.' ∉ part := by
  intro mem
  have digit := spells.isDigit '.' mem
  cases digit

theorem mapM_part?_eq_some_iff :
    (splitAt '.' cs).mapM part? = some numbers ↔ numbers ≠ [] ∧ Lists cs numbers := by
  rw [mapM_eq_some_iff]
  simp only [part?_eq_some_iff]
  constructor
  · intro spelled
    refine ⟨?_, splitAt '.' cs, (joinWith_splitAt '.' cs).symm, spelled⟩
    rintro rfl
    obtain ⟨part, parts, split⟩ := exists_splitAt '.' cs
    rw [split] at spelled
    cases spelled
  · rintro ⟨atLeast, parts, rfl, spelled⟩
    have ne_nil : parts ≠ [] := by
      rintro rfl
      cases spelled
      contradiction
    have free : ∀ part ∈ parts, '.' ∉ part :=
      forall_mem_of_forall₂ spelled fun _ _ spells => dot_not_mem spells
    rwa [splitAt_joinWith ne_nil free]

/-- A list of numbers holds no characters but digits and dots. -/
theorem Lists.isDigit_or_dot (listed : Lists cs numbers) : ∀ c ∈ cs, isDigit c ∨ c = '.' := by
  obtain ⟨parts, rfl, spelled⟩ := listed
  have digits : ∀ part ∈ parts, ∀ c ∈ part, isDigit c :=
    forall_mem_of_forall₂ spelled fun _ _ spells => spells.isDigit
  intro c mem
  rcases mem_joinWith mem with dot | ⟨part, here, own⟩
  · exact .inr dot
  · exact .inl (digits part here c own)

theorem ofDotted?_of_mark (cs : List Char) :
    ofDotted? ('v' :: cs) = ((splitAt '.' cs).mapM part?).bind ofParts? := rfl

theorem ofDotted?_of_head (head : cs.head? ≠ some 'v') :
    ofDotted? cs = ((splitAt '.' cs).mapM part?).bind ofParts? := by
  unfold ofDotted?
  split
  · contradiction
  · rfl

/-- Numbers that are read off a list of them. -/
theorem bind_ofParts?_eq_some_iff : ((splitAt '.' cs).mapM part?).bind ofParts? = some v ↔
    ∃ numbers, Lists cs numbers ∧ numbers ≠ [] ∧ numbers.length ≤ 4 ∧ ofLeading numbers = v := by
  simp only [Option.bind_eq_some_iff, mapM_part?_eq_some_iff, ofParts?_eq_some_iff]
  constructor
  · rintro ⟨numbers, ⟨_, listed⟩, rest⟩
    exact ⟨numbers, listed, rest⟩
  · rintro ⟨numbers, listed, rest⟩
    exact ⟨numbers, ⟨rest.1, listed⟩, rest⟩

/-- What stands behind the mark, if there is one, is read as a list of numbers. -/
theorem exists_mark (cs : List Char) : ∃ mark rest, cs = mark ++ rest ∧
    (mark = [] ∨ mark = ['v']) ∧
      ofDotted? cs = ((splitAt '.' rest).mapM part?).bind ofParts? := by
  by_cases marked : cs.head? = some 'v'
  · obtain ⟨rest, rfl⟩ := List.head?_eq_some_iff.mp marked
    exact ⟨['v'], rest, rfl, .inr rfl, ofDotted?_of_mark rest⟩
  · exact ⟨[], cs, rfl, .inl rfl, ofDotted?_of_head marked⟩

theorem denotes_of_ofDotted? (read : ofDotted? cs = some v) : Denotes cs v := by
  obtain ⟨mark, rest, rfl, marked, asked⟩ := exists_mark cs
  rw [asked] at read
  obtain ⟨numbers, listed, atLeast, atMost, rfl⟩ := bind_ofParts?_eq_some_iff.mp read
  exact .dotted marked listed atLeast atMost

theorem ofDotted?_of_lists {mark : List Char} (marked : mark = [] ∨ mark = ['v'])
    (listed : Lists cs numbers) (atLeast : numbers ≠ []) (atMost : numbers.length ≤ 4) :
    ofDotted? (mark ++ cs) = some (ofLeading numbers) := by
  have read := bind_ofParts?_eq_some_iff.mpr ⟨numbers, listed, atLeast, atMost, rfl⟩
  rcases marked with rfl | rfl
  · have head : cs.head? ≠ some 'v' := by
      intro head
      rcases listed.isDigit_or_dot 'v' (List.mem_of_head? head) with digit | dot
      · cases digit
      · cases dot
    rwa [List.nil_append, ofDotted?_of_head head]
  · exact read

/-! ## Numbers of builds -/

/-- The text behind a gap. -/
def dropGap : List Char → List Char
  | c :: cs => if c = '.' ∨ isBlank c then cs else c :: cs
  | [] => []

theorem afterBuild?_eq (cs : List Char) : afterBuild? cs =
    (if (cs.take 5).map Char.toLower = "build".toList then some (cs.drop 5)
      else if (cs.take 1).map Char.toLower = ['b'] then some (cs.drop 1)
      else none).map dropGap := rfl

theorem exists_gap (cs : List Char) : ∃ gap, cs = gap ++ dropGap cs ∧ IsGap gap := by
  cases cs with
  | nil => exact ⟨[], rfl, .inl rfl⟩
  | cons c cs =>
    rw [dropGap]
    split
    · rename_i apart
      exact ⟨[c], rfl, .inr ⟨c, rfl, apart⟩⟩
    · exact ⟨[], rfl, .inl rfl⟩

theorem dropGap_append {numeral : List Char} {n : Nat} (apart : IsGap gap)
    (spells : Spells numeral n) : dropGap (gap ++ numeral) = numeral := by
  rcases apart with rfl | ⟨c, rfl, mark⟩
  · cases numeral with
    | nil => rfl
    | cons c numeral =>
      have digit := spells.isDigit c List.mem_cons_self
      have blank := isBlank_of_isDigit digit
      have dot : c ≠ '.' := by
        rintro rfl
        cases digit
      rw [List.nil_append, dropGap, if_neg (by simp [blank, dot])]
  · rw [List.singleton_append, dropGap, if_pos mark]

theorem toLower_eq_self {c : Char} (plain : isDigit c ∨ c = '.' ∨ isBlank c) : c.toLower = c := by
  apply Char.toNat_inj.mp
  rw [toNat_toLower]
  apply if_neg
  intro upper
  rcases plain with digit | rfl | blank
  · have digits := code_of_isDigit digit
    omega
  · exact absurd upper (by decide)
  · simp only [isBlank, Bool.or_eq_true, Bool.and_eq_true, decide_eq_true_eq, beq_iff_eq] at blank
    omega

theorem exists_word (length : Nat) (named : IsBuildWord (cs.take length)) :
    ∃ word gap, cs = word ++ gap ++ dropGap (cs.drop length) ∧ IsBuildWord word ∧ IsGap gap := by
  obtain ⟨gap, split, apart⟩ := exists_gap (cs.drop length)
  refine ⟨cs.take length, gap, ?_, named, apart⟩
  rw [List.append_assoc, ← split, List.take_append_drop]

theorem exists_of_afterBuild? (read : afterBuild? cs = some rest) :
    ∃ word gap, cs = word ++ gap ++ rest ∧ IsBuildWord word ∧ IsGap gap := by
  rw [afterBuild?_eq] at read
  split at read
  · rename_i named
    obtain rfl := Option.some.inj read
    exact exists_word 5 (.inl named)
  · split at read
    · rename_i named
      obtain rfl := Option.some.inj read
      exact exists_word 1 (.inr named)
    · cases read

theorem head?_gap_append {numeral : List Char} {n : Nat} (apart : IsGap gap)
    (spells : Spells numeral n) :
    ∀ c ∈ (gap ++ numeral).head?, isDigit c ∨ c = '.' ∨ isBlank c := by
  intro c head
  rcases apart with rfl | ⟨mark, rfl, apart⟩
  · exact .inl (spells.isDigit c (List.mem_of_head? head))
  · cases head
    exact .inr apart

/-- What stands behind a `b` does not make a longer word of it. -/
theorem not_build_of_head {c : Char} (head : ∀ c ∈ rest.head?, isDigit c ∨ c = '.' ∨ isBlank c) :
    ((c :: rest).take 5).map Char.toLower ≠ "build".toList := by
  intro named
  cases rest with
  | nil => exact absurd (congrArg List.length named) (by simp)
  | cons d rest =>
    have plain := head d rfl
    have letter : d.toLower = 'u' := (List.cons.inj (List.cons.inj named).2).1
    rw [toLower_eq_self plain] at letter
    subst letter
    exact absurd plain (by decide)

theorem afterBuild?_append {numeral : List Char} {n : Nat} (named : IsBuildWord word)
    (apart : IsGap gap) (spells : Spells numeral n) :
    afterBuild? (word ++ gap ++ numeral) = some numeral := by
  rw [afterBuild?_eq, List.append_assoc]
  rcases named with long | short
  · have length : word.length = 5 := by simpa using congrArg List.length long
    rw [List.take_append_of_le_length length.ge, List.take_of_length_le length.le, if_pos long,
      Option.map_some, List.drop_left' length, dropGap_append apart spells]
  · obtain ⟨b, rfl, lower⟩ := List.map_eq_singleton_iff.mp short
    have first : ((b :: (gap ++ numeral)).take 1).map Char.toLower = ['b'] := short
    rw [List.singleton_append, if_neg (not_build_of_head (head?_gap_append apart spells)),
      if_pos first, Option.map_some, List.drop_succ_cons, List.drop_zero,
      dropGap_append apart spells]

theorem afterBuild?_eq_none (head : ∀ c ∈ cs.head?, c.toLower ≠ 'b') : afterBuild? cs = none := by
  cases cs with
  | nil => rfl
  | cons c cs =>
    have other : c.toLower ≠ 'b' := head c rfl
    rw [afterBuild?_eq, if_neg, if_neg]
    · rfl
    · intro named
      exact other (List.cons.inj named).1
    · intro named
      exact other (List.cons.inj named).1

theorem denotes_of_ofBuild? (read : ofBuild? cs = some v) : Denotes cs v := by
  obtain ⟨number, found, rfl⟩ := Option.map_eq_some_iff.mp read
  obtain ⟨numeral, after, part⟩ := Option.bind_eq_some_iff.mp found
  obtain ⟨word, gap, rfl, named, apart⟩ := exists_of_afterBuild? after
  exact .build named apart (part?_eq_some_iff.mp part)

theorem ofBuild?_append {numeral : List Char} (named : IsBuildWord word) (apart : IsGap gap)
    (spelled : Spells numeral number.toNat) :
    ofBuild? (word ++ gap ++ numeral) = some ⟨0, 0, 0, number⟩ := by
  rw [ofBuild?, afterBuild?_append named apart spelled, Option.bind_some,
    part?_eq_some_iff.mpr spelled, Option.map_some]

/-- A text in the one notation is none in the other. -/
theorem ofBuild?_of_lists {mark : List Char} (marked : mark = [] ∨ mark = ['v'])
    (listed : Lists cs numbers) : ofBuild? (mark ++ cs) = none := by
  have other : ∀ c ∈ (mark ++ cs).head?, c.toLower ≠ 'b' := by
    intro c head
    rcases marked with rfl | rfl
    · have plain := listed.isDigit_or_dot c (List.mem_of_head? head)
      rw [toLower_eq_self (plain.imp_right .inl)]
      rintro rfl
      exact absurd plain (by decide)
    · cases head
      decide
  rw [ofBuild?, afterBuild?_eq_none other]
  rfl

/-! ## What is read -/

theorem ofText?_eq_some_iff {s : String} :
    ofText? s = some v ↔ ∃ core, Trimmed s.toList core ∧ Denotes core v := by
  have core : (∃ core, Trimmed s.toList core ∧ Denotes core v) ↔ Denotes (trim s.toList) v := by
    simp only [← trim_eq_iff, exists_eq_left']
  rw [core, ofText?, Option.or_eq_some_iff]
  constructor
  · rintro (build | ⟨-, dotted⟩)
    · exact denotes_of_ofBuild? build
    · exact denotes_of_ofDotted? dotted
  · intro denotes
    generalize trim s.toList = cs at denotes ⊢
    cases denotes with
    | dotted marked listed atLeast atMost =>
      exact .inr ⟨ofBuild?_of_lists marked listed, ofDotted?_of_lists marked listed atLeast atMost⟩
    | build named apart spelled => exact .inl (ofBuild?_append named apart spelled)

theorem parse_eq_ok_iff {s : String} : parse s = .ok v ↔ ofText? s = some v := by
  rw [parse]
  cases ofText? s <;> simp

theorem parse_eq_error_iff {s : String} {e : Unrecognised} :
    parse s = .error e ↔ e = ⟨s⟩ ∧ ∀ v, ofText? s ≠ some v := by
  rw [parse, ← Option.eq_none_iff_forall_ne_some]
  cases ofText? s <;> simp [eq_comm]

/-- **A version is read from the texts of the grammar and from no others,** whatever blanks stand
around them. The error keeps any other text as it was given. -/
theorem parse_iff (s : String) :
    (∀ v, parse s = .ok v ↔ ∃ core, Trimmed s.toList core ∧ Denotes core v) ∧
      ∀ e, parse s = .error e ↔
        e = ⟨s⟩ ∧ ¬ ∃ core v, Trimmed s.toList core ∧ Denotes core v := by
  constructor
  · intro v
    rw [parse_eq_ok_iff, ofText?_eq_some_iff]
  · intro e
    have unread : (∀ v, ofText? s ≠ some v) ↔
        ¬ ∃ core v, Trimmed s.toList core ∧ Denotes core v := by
      simp only [ne_eq, ofText?_eq_some_iff, ← not_exists]
      rw [exists_comm]
    rw [parse_eq_error_iff, unread]

example : parse "\tBUILD.0007 " = .ok ⟨0, 0, 0, 7⟩ := rfl

example : parse " v1..2 " = .error ⟨" v1..2 "⟩ := rfl

/-! ## What is written -/

theorem IsBuildWord.first (named : IsBuildWord word) :
    ∃ c rest, word = c :: rest ∧ c.toLower = 'b' := by
  cases word with
  | nil => rcases named with long | short <;> simp at *
  | cons c rest =>
    refine ⟨c, rest, rfl, ?_⟩
    rcases named with long | short
    · exact (List.cons.inj long).1
    · exact (List.cons.inj short).1

theorem isBlank_of_toLower {c : Char} (letter : c.toLower = 'b') : isBlank c = false := by
  apply Bool.eq_false_iff.mpr
  intro blank
  rw [toLower_eq_self (.inr (.inr blank))] at letter
  subst letter
  cases blank

theorem Lists.isBlank (listed : Lists cs numbers) : ∀ c ∈ cs, Text.isBlank c = false := by
  intro c mem
  rcases listed.isDigit_or_dot c mem with digit | rfl
  · exact isBlank_of_isDigit digit
  · rfl

/-- No text of the grammar begins or ends with a blank. -/
theorem Denotes.trimmed (denotes : Denotes cs v) : Trimmed cs cs := by
  have inside : ∃ before after, cs = before ++ cs ++ after ∧ (∀ c ∈ before, isBlank c) ∧
      ∀ c ∈ after, isBlank c := ⟨[], [], by simp⟩
  cases denotes with
  | @dotted mark cs numbers marked listed atLeast atMost =>
    have plain : ∀ c ∈ mark ++ cs, isBlank c = false := by
      intro c mem
      rcases List.mem_append.mp mem with sign | own
      · rcases marked with rfl | rfl
        · cases sign
        · rw [List.mem_singleton.mp sign]
          rfl
      · exact listed.isBlank c own
    exact ⟨inside, fun c head => plain c (List.mem_of_head? head),
      fun c last => plain c (List.mem_of_getLast? last)⟩
  | @build word gap numeral number named apart spelled =>
    refine ⟨inside, ?_, ?_⟩
    · obtain ⟨b, rest, rfl, letter⟩ := named.first
      rintro c ⟨⟩
      exact isBlank_of_toLower letter
    · intro c last
      rw [List.getLast?_append_of_ne_nil _ spelled.ne_nil] at last
      exact isBlank_of_isDigit (spelled.isDigit c (List.mem_of_getLast? last))

theorem lists_decimals (numbers : List Count) :
    Lists (joinWith '.' (numbers.map fun number => decimal number.toNat)) numbers := by
  refine ⟨_, rfl, ?_⟩
  rw [List.forall₂_map_left_iff, List.forall₂_same]
  exact fun number _ => spells_decimal number.toNat

theorem denotes_text (v : GameVersion) : Denotes v.text.toList v := by
  obtain ⟨major, minor, patch, build⟩ := v
  have dotted (numbers : List Count) (atLeast : numbers ≠ []) (atMost : numbers.length ≤ 4) :=
    Denotes.dotted (.inr rfl) (lists_decimals numbers) atLeast atMost
  unfold text
  split_ifs with alone built patched
  · obtain ⟨rfl, rfl, rfl, -⟩ := alone
    have named : IsBuildWord "Build".toList := .inl (by decide)
    have apart : IsGap [' '] := .inr ⟨' ', rfl, by decide⟩
    rw [String.toList_ofList]
    exact .build named apart (spells_decimal build.toNat)
  · rw [String.toList_ofList]
    exact dotted [major, minor, patch, build] (by simp) (by simp)
  · obtain rfl : build = 0 := by simpa using built
    rw [String.toList_ofList]
    exact dotted [major, minor, patch] (by simp) (by simp)
  · obtain rfl : build = 0 := by simpa using built
    obtain rfl : patch = 0 := by simpa using patched
    rw [String.toList_ofList]
    exact dotted [major, minor] (by simp) (by simp)

theorem parse_of_denotes {s : String} (denotes : Denotes s.toList v) : parse s = .ok v := by
  rw [parse_eq_ok_iff, ofText?_eq_some_iff]
  exact ⟨_, denotes.trimmed, denotes⟩

/-- **A version is read back from its text,** so versions have different texts, and what is read of
any text is read again from the text of it. -/
theorem parse_text (v w : GameVersion) (s : String) :
    parse v.text = .ok v ∧ (v.text = w.text ↔ v = w) ∧
      (parse s >>= fun read => parse read.text) = parse s := by
  have back (v : GameVersion) : parse v.text = .ok v := parse_of_denotes v.denotes_text
  refine ⟨back v, ?_, ?_⟩
  · constructor
    · intro same
      have read := back v
      rw [same, back w] at read
      exact (Except.ok.inj read).symm
    · exact congrArg text
  · cases parse s with
    | error e => rfl
    | ok read => exact back read

end GameVersion

end ReleaseSelection
