import ReleaseSelection.Proofs.Numerals
import ReleaseSelection.Uuid

/-!
# Documents as they are written

Data is written with the blanks of a layout and with whatever numerals are printed for its floats.
What the reader needs to know of a part of a document is that it reads the part as its data whatever
follows it (`Reads`). Every part that is written is such a part (`reads_write`), and so a whole
document is read back as the data that it was written from (`read?_write`).
-/

namespace ReleaseSelection.Json

open Text

/-! ## Strings -/

/-- What stands behind the backslash where a character has an escape of its own. -/
def shortMark? (c : Char) : Option Char :=
  if c = '"' then some '"'
  else if c = '\\' then some '\\'
  else if c = '\x08' then some 'b'
  else if c = '\x0c' then some 'f'
  else if c = '\n' then some 'n'
  else if c = '\r' then some 'r'
  else if c = '\t' then some 't'
  else none

/-- The other control characters are written by their code. -/
def escape (c : Char) : List Char :=
  match shortMark? c with
  | some mark => ['\\', mark]
  | none =>
    if h : c.toNat < 0x20 then
      ['\\', 'u', '0', '0', Uuid.hexDigit ⟨c.toNat / 16, by omega⟩,
        Uuid.hexDigit ⟨c.toNat % 16, by omega⟩]
    else [c]

def quoted (s : String) : List Char := '"' :: (s.toList.flatMap escape ++ ['"'])

/-- What a written character is read as. -/
def piece (c : Char) : Piece :=
  if shortMark? c = none ∧ c.toNat < 0x20 then .unit c.toNat else .char c

theorem shortEscape?_of_mark {c mark : Char} (marked : shortMark? c = some mark) :
    shortEscape? mark = some c ∧ mark ≠ 'u' := by
  unfold shortMark? at marked
  split_ifs at marked <;> subst_vars <;> cases marked <;> decide

theorem readHex?_code : ∀ n : Fin 32, readHex? ['0', '0', Uuid.hexDigit ⟨n.val / 16, by omega⟩,
    Uuid.hexDigit ⟨n.val % 16, by omega⟩] = some n.val := by
  decide

theorem pieces_mark {c mark : Char} (short : shortEscape? mark = some c) (plain : mark ≠ 'u')
    (cs : List Char) :
    pieces ('\\' :: mark :: cs) = (pieces cs).map fun p => (.char c :: p.1, p.2) := by
  rw [pieces]
  · cases pieces cs <;> simp [short]
  · exact fun _ _ _ _ _ unit _ => plain unit

theorem pieces_code {c : Char} (control : c.toNat < 0x20) (cs : List Char) :
    pieces ('\\' :: 'u' :: '0' :: '0' :: Uuid.hexDigit ⟨c.toNat / 16, by omega⟩ ::
      Uuid.hexDigit ⟨c.toNat % 16, by omega⟩ :: cs) =
      (pieces cs).map fun p => (.unit c.toNat :: p.1, p.2) := by
  have code := readHex?_code ⟨c.toNat, control⟩
  rw [pieces]
  cases pieces cs <;> simp [code]

theorem pieces_plain {c : Char} (unmarked : shortMark? c = none) (plain : ¬ c.toNat < 0x20)
    (cs : List Char) :
    pieces (c :: cs) = (pieces cs).map fun p => (.char c :: p.1, p.2) := by
  have other : c ≠ '"' ∧ c ≠ '\\' := by
    constructor <;> rintro rfl <;> cases unmarked
  rw [pieces.eq_def]
  cases read : pieces cs <;> simp [plain, other, read]

theorem pieces_escape (c : Char) (cs : List Char) :
    pieces (escape c ++ cs) = (pieces cs).map fun p => (piece c :: p.1, p.2) := by
  cases marked : shortMark? c with
  | some mark =>
    obtain ⟨short, plain⟩ := shortEscape?_of_mark marked
    simp [escape, piece, marked, pieces_mark short plain]
  | none =>
    by_cases control : c.toNat < 0x20
    · simp [escape, piece, marked, control, pieces_code control]
    · simp [escape, piece, marked, control, pieces_plain marked control]

/-- What is written between the quotes is read as far as the closing one. -/
theorem pieces_quoted (cs rest : List Char) :
    pieces (cs.flatMap escape ++ '"' :: rest) = some (cs.map piece, rest) := by
  induction cs with
  | nil =>
    rw [List.flatMap_nil, List.nil_append, pieces.eq_def]
    rfl
  | cons c cs ih =>
    rw [List.flatMap_cons, List.append_assoc, pieces_escape, ih]
    rfl

theorem join?_pieces (cs : List Char) : join? (cs.map piece) = some cs := by
  induction cs with
  | nil => rfl
  | cons c cs ih =>
    rw [List.map_cons, piece]
    split
    · rename_i control
      have low : isLow c.toNat = false := by simp [isLow]; omega
      have high : isHigh c.toNat = false := by simp [isHigh]; omega
      rw [join?.eq_def]
      simp [low, high, ih]
    · simp [join?, ih]

theorem string?_quoted (s : String) (rest : List Char) :
    string? (s.toList.flatMap escape ++ '"' :: rest) = some (some s, rest) := by
  simp only [string?, pieces_quoted, Option.map_some, join?_pieces, String.ofList_toList]

/-! ## Writing -/

/-- The blanks of a document, before an entry or an end at a depth and after a colon. -/
structure Layout where
  gap : Nat → List Char
  afterColon : List Char
  gap_space : ∀ depth, ∀ c ∈ gap depth, isSpace c
  afterColon_space : ∀ c ∈ afterColon, isSpace c

namespace Layout

def compact : Layout where
  gap _ := []
  afterColon := []
  gap_space _ := List.forall_mem_nil _
  afterColon_space := List.forall_mem_nil _

/-- Every entry on a line of its own, indented by two blanks for each level. -/
def pretty : Layout where
  gap depth := '\n' :: List.replicate (2 * depth) ' '
  afterColon := [' ']
  gap_space depth := by
    refine List.forall_mem_cons.mpr ⟨rfl, fun c mem => ?_⟩
    rw [List.eq_of_mem_replicate mem]
    rfl
  afterColon_space := List.forall_mem_singleton.mpr rfl

end Layout

/-- The entries behind the first one, and the end. -/
def following (layout : Layout) (depth : Nat) (last : Char) (parts : List (List Char)) :
    List Char :=
  parts.flatMap (fun part => ',' :: (layout.gap (depth + 1) ++ part)) ++
    (layout.gap depth ++ [last])

/-- Entries between two marks at a depth, with a comma between each two. -/
def enclosed (layout : Layout) (depth : Nat) (first last : Char) : List (List Char) → List Char
  | [] => [first, last]
  | part :: parts =>
    first :: (layout.gap (depth + 1) ++ (part ++ following layout depth last parts))

section
variable (layout : Layout) (digits : Float → Numeral)

mutual

/-- Writes data at a depth. A float that is not finite has no numeral. -/
def write (depth : Nat) : Data → List Char
  | .null => "null".toList
  | .bool true => "true".toList
  | .bool false => "false".toList
  | .int n => integer n
  | .float x => if x.isFinite then (digits x).text else "null".toList
  | .text s => quoted s
  | .list ds => enclosed layout depth '[' ']' (writeItems (depth + 1) ds)
  | .record ms => enclosed layout depth '{' '}' (writeMembers (depth + 1) ms)
  | .unreadable => []

def writeItems (depth : Nat) : List Data → List (List Char)
  | [] => []
  | d :: ds => write depth d :: writeItems depth ds

def writeMembers (depth : Nat) : List (String × Data) → List (List Char)
  | [] => []
  | (name, d) :: ms =>
    (quoted name ++ ':' :: (layout.afterColon ++ write depth d)) :: writeMembers depth ms

end

end

/-! ## Reading -/

theorem skipSpace_append {gap : List Char} (space : ∀ c ∈ gap, isSpace c) (cs : List Char) :
    skipSpace (gap ++ cs) = skipSpace cs := by
  rw [skipSpace, List.dropWhile_append_of_pos space]
  rfl

theorem skipSpace_cons {c : Char} (other : isSpace c = false) (cs : List Char) :
    skipSpace (c :: cs) = c :: cs := by
  simp [skipSpace, other]

theorem value?_append {gap : List Char} (space : ∀ c ∈ gap, isSpace c) (fuel : Nat)
    (cs : List Char) : value? fuel (gap ++ cs) = value? fuel cs := by
  cases fuel with
  | zero => rfl
  | succ fuel => simp only [value?, skipSpace_append space]

theorem items?_append {gap : List Char} (space : ∀ c ∈ gap, isSpace c) (fuel : Nat)
    (cs : List Char) : items? fuel (gap ++ cs) = items? fuel cs := by
  cases fuel with
  | zero => rfl
  | succ fuel => simp only [items?, value?_append space]

theorem members?_append {gap : List Char} (space : ∀ c ∈ gap, isSpace c) (fuel : Nat)
    (cs : List Char) : members? fuel (gap ++ cs) = members? fuel cs := by
  cases fuel with
  | zero => rfl
  | succ fuel => simp only [members?, skipSpace_append space]

/-- A text that is read as `d`, with whatever follows it, in as many steps as the reader is given
for its length. -/
structure Reads (d : Data) (cs : List Char) : Prop where
  head : ∃ c tail, cs = c :: tail ∧ isSpace c = false ∧ c ≠ ']'
  value : ∀ fuel rest, 2 * cs.length ≤ fuel → Ends rest → value? fuel (cs ++ rest) = some (d, rest)

theorem ends_of_mark {c : Char} (other : isDigit c = false ∧ c ≠ '.' ∧ c ≠ 'e' ∧ c ≠ 'E')
    (rest : List Char) : Ends (c :: rest) := by
  rintro _ ⟨⟩
  exact other

theorem ends_append {gap : List Char} (space : ∀ c ∈ gap, isSpace c) {rest : List Char}
    (ends : Ends rest) : Ends (gap ++ rest) := by
  cases gap with
  | nil => exact ends
  | cons c gap =>
    have blank := space c List.mem_cons_self
    apply ends_of_mark
    simp only [isSpace, Bool.or_eq_true, decide_eq_true_eq] at blank
    rcases blank with ((rfl | rfl) | rfl) | rfl <;> decide

/-! ### Scalars -/

theorem reads_of_scalar {d : Data} {c : Char} {cs : List Char} (space : isSpace c = false)
    (other : c ≠ ']' ∧ c ≠ '"' ∧ c ≠ '[' ∧ c ≠ '{')
    (read : ∀ rest, Ends rest → scalar? (c :: cs ++ rest) = some (d, rest)) :
    Reads d (c :: cs) where
  head := ⟨c, cs, rfl, space, other.1⟩
  value fuel rest enough ends := by
    match fuel, enough with
    | fuel + 1, _ =>
      have scalar := read rest ends
      simp only [List.cons_append] at scalar
      simp [value?, skipSpace_cons space, other, scalar]

theorem reads_null : Reads .null "null".toList :=
  reads_of_scalar rfl (by decide) fun _ _ => rfl

theorem reads_true : Reads (.bool true) "true".toList :=
  reads_of_scalar rfl (by decide) fun _ _ => rfl

theorem reads_false : Reads (.bool false) "false".toList :=
  reads_of_scalar rfl (by decide) fun _ _ => rfl

theorem afterWord?_eq_none (word : String) {c mark : Char} (head : word.toList.head? = some mark)
    (ne : c ≠ mark) (cs : List Char) : afterWord? word (c :: cs) = none := by
  obtain ⟨tail, starts⟩ := List.head?_eq_some_iff.mp head
  have length : word.length = tail.length + 1 := by
    rw [← String.length_toList, starts, List.length_cons]
  simp [afterWord?, starts, length, ne]

/-- A numeral starts with a digit or with the minus sign. -/
theorem exists_head_of_wellFormed {n : Numeral} (wellFormed : n.WellFormed) :
    ∃ c cs, n.text = c :: cs ∧ (isDigit c ∨ c = '-') := by
  cases negative : n.negative with
  | true =>
    exact ⟨'-', n.whole.map digitChar ++ Numeral.fractionText n.fraction ++
      Numeral.exponentText n.exponent, by simp [Numeral.text, negative], .inr rfl⟩
  | false =>
    cases written : n.whole with
    | nil => exact absurd written wellFormed.whole_ne_nil
    | cons d ds =>
      have digit : d < 10 := wellFormed.whole_lt d (by simp [written])
      exact ⟨digitChar d, ds.map digitChar ++ Numeral.fractionText n.fraction ++
        Numeral.exponentText n.exponent, by simp [Numeral.text, negative, written],
        .inl (isDigit_digitChar digit)⟩

theorem reads_numeral {n : Numeral} (wellFormed : n.WellFormed) : Reads n.toData n.text := by
  obtain ⟨c, cs, text, starts⟩ := exists_head_of_wellFormed wellFormed
  have other (mark : Char) (apart : isDigit mark = false ∧ mark ≠ '-') : c ≠ mark := by
    rintro rfl
    rcases starts with starts | starts
    · cases starts.symm.trans apart.1
    · exact apart.2 starts
  rw [text]
  have space : isSpace c = false := by
    simp only [isSpace, Bool.or_eq_false_iff, decide_eq_false_iff_not]
    exact ⟨⟨⟨other ' ' (by decide), other '\n' (by decide)⟩, other '\t' (by decide)⟩,
      other '\r' (by decide)⟩
  have plain : c ≠ ']' ∧ c ≠ '"' ∧ c ≠ '[' ∧ c ≠ '{' :=
    ⟨other ']' (by decide), other '"' (by decide), other '[' (by decide), other '{' (by decide)⟩
  refine reads_of_scalar space plain fun rest ends => ?_
  have read := numeral?_text wellFormed ends
  have notNull := afterWord?_eq_none "null" rfl (other 'n' (by decide)) (cs ++ rest)
  have notTrue := afterWord?_eq_none "true" rfl (other 't' (by decide)) (cs ++ rest)
  have notFalse := afterWord?_eq_none "false" rfl (other 'f' (by decide)) (cs ++ rest)
  rw [text, List.cons_append] at read
  rw [List.cons_append, scalar?, notNull, notTrue, notFalse, read]
  rfl

theorem reads_text (s : String) : Reads (.text s) (quoted s) where
  head := ⟨'"', _, rfl, rfl, by decide⟩
  value fuel rest enough _ := by
    match fuel, enough with
    | fuel + 1, _ =>
      have string := string?_quoted s rest
      simp only [quoted, List.cons_append, value?, List.append_assoc, List.nil_append,
        skipSpace_cons (c := '"') rfl, string]
      rfl

/-! ### Lists and records -/

section
variable {layout : Layout} {depth : Nat}

theorem ends_following {last : Char}
    (other : isDigit last = false ∧ last ≠ '.' ∧ last ≠ 'e' ∧ last ≠ 'E')
    (parts : List (List Char)) (rest : List Char) :
    Ends (following layout depth last parts ++ rest) := by
  cases parts with
  | nil =>
    simp only [following, List.flatMap_nil, List.nil_append, List.append_assoc]
    exact ends_append (layout.gap_space depth) (ends_of_mark other rest)
  | cons part parts => exact ends_of_mark (by decide) _

theorem skipSpace_following_nil {last : Char} (other : isSpace last = false) (rest : List Char) :
    skipSpace (following layout depth last [] ++ rest) = last :: rest := by
  simp only [following, List.flatMap_nil, List.nil_append, List.append_assoc, List.cons_append,
    skipSpace_append (layout.gap_space depth), skipSpace_cons other]

theorem skipSpace_following_cons {last : Char} (part : List Char) (parts : List (List Char))
    (rest : List Char) :
    skipSpace (following layout depth last (part :: parts) ++ rest) =
      ',' :: (layout.gap (depth + 1) ++ (part ++ (following layout depth last parts ++ rest))) := by
  simp only [following, List.flatMap_cons, List.append_assoc, List.cons_append]
  exact skipSpace_cons rfl _

variable {part rest : List Char} {parts : List (List Char)} {fuel : Nat}

theorem items?_of_reads {d : Data} (first : Reads d part) (enough : 2 * part.length ≤ fuel)
    (ends : Ends rest) :
    items? (fuel + 1) (part ++ rest) =
      match skipSpace rest with
      | ']' :: cs => some ([d], cs)
      | ',' :: cs => (items? fuel cs).bind fun p => some (d :: p.1, p.2)
      | _ => none := by
  rewrite [items?, first.value fuel rest enough ends]
  rfl

theorem items?_following {d : Data} {ds : List Data} (first : Reads d part)
    (others : ds.Forall₂ Reads parts)
    (enough : 2 * (part ++ following layout depth ']' parts).length < fuel) :
    items? fuel (part ++ (following layout depth ']' parts ++ rest)) = some (d :: ds, rest) := by
  -- Each entry takes a step of its own, which the comma behind it pays for.
  induction others generalizing d part fuel with
  | nil =>
    match fuel, enough with
    | fuel + 1, enough =>
      have short : 2 * part.length ≤ fuel := by
        simp only [List.length_append] at enough
        omega
      rw [items?_of_reads first short (ends_following (by decide) [] rest),
        skipSpace_following_nil rfl]
      rfl
  | @cons d' part' ds parts next _ ih =>
    match fuel, enough with
    | fuel + 1, enough =>
      simp only [following, List.flatMap_cons, List.length_append, List.length_cons,
        List.length_nil] at enough
      have short : 2 * part.length ≤ fuel := by omega
      have further : 2 * (part' ++ following layout depth ']' parts).length < fuel := by
        simp only [following, List.length_append, List.length_cons, List.length_nil]
        omega
      have items := ih next further
      rw [items?_of_reads first short (ends_following (by decide) _ rest)]
      simp only [skipSpace_following_cons, items?_append (layout.gap_space (depth + 1)), items,
        Option.bind_some]

/-- A member: its name, a colon and its value. -/
def ReadsMember (layout : Layout) (m : String × Data) (part : List Char) : Prop :=
  ∃ cs, part = quoted m.1 ++ ':' :: (layout.afterColon ++ cs) ∧ Reads m.2 cs

theorem members?_of_reads {m : String × Data} (first : ReadsMember layout m part)
    (enough : 2 * part.length ≤ fuel) (ends : Ends rest) :
    members? (fuel + 1) (part ++ rest) =
      match skipSpace rest with
      | '}' :: cs => some ([(some m.1, m.2)], cs)
      | ',' :: cs => (members? fuel cs).bind fun p => some ((some m.1, m.2) :: p.1, p.2)
      | _ => none := by
  obtain ⟨cs, rfl, reads⟩ := first
  have short : 2 * cs.length ≤ fuel := by
    simp only [List.length_append, List.length_cons] at enough
    omega
  have name := string?_quoted m.1 (':' :: (layout.afterColon ++ (cs ++ rest)))
  have value : value? fuel (layout.afterColon ++ (cs ++ rest)) = some (m.2, rest) := by
    rw [value?_append layout.afterColon_space, reads.value fuel rest short ends]
  rewrite [members?]
  simp only [quoted, List.cons_append, List.append_assoc, List.nil_append,
    skipSpace_cons (c := '"') rfl, skipSpace_cons (c := ':') rfl, name, Option.bind_eq_bind,
    Option.bind_some]
  rewrite [value]
  rfl

theorem members?_following {m : String × Data} {ms : List (String × Data)}
    (first : ReadsMember layout m part) (others : ms.Forall₂ (ReadsMember layout) parts)
    (enough : 2 * (part ++ following layout depth '}' parts).length < fuel) :
    members? fuel (part ++ (following layout depth '}' parts ++ rest)) =
      some ((m :: ms).map fun m => (some m.1, m.2), rest) := by
  induction others generalizing m part fuel with
  | nil =>
    match fuel, enough with
    | fuel + 1, enough =>
      have short : 2 * part.length ≤ fuel := by
        simp only [List.length_append] at enough
        omega
      rw [members?_of_reads first short (ends_following (by decide) [] rest),
        skipSpace_following_nil rfl]
      rfl
  | @cons m' part' ms parts next _ ih =>
    match fuel, enough with
    | fuel + 1, enough =>
      simp only [following, List.flatMap_cons, List.length_append, List.length_cons,
        List.length_nil] at enough
      have short : 2 * part.length ≤ fuel := by omega
      have further : 2 * (part' ++ following layout depth '}' parts).length < fuel := by
        simp only [following, List.length_append, List.length_cons, List.length_nil]
        omega
      have members := ih next further
      rw [members?_of_reads first short (ends_following (by decide) _ rest)]
      simp only [skipSpace_following_cons, members?_append (layout.gap_space (depth + 1)), members,
        Option.bind_some]
      rfl

theorem length_enclosed (layout : Layout) (depth : Nat) (first last : Char)
    (part : List Char) (parts : List (List Char)) :
    (part ++ following layout depth last parts).length <
      (enclosed layout depth first last (part :: parts)).length := by
  simp only [enclosed, List.length_cons, List.length_append]
  omega

theorem value?_list {cs tail : List Char} {c : Char} (skip : skipSpace cs = c :: tail)
    (other : c ≠ ']') :
    value? (fuel + 1) ('[' :: cs) = (items? fuel (c :: tail)).map fun p => (.list p.1, p.2) := by
  simp [value?, skipSpace_cons (c := '[') rfl, skip, other]

theorem value?_record {cs tail : List Char} {c : Char} (skip : skipSpace cs = c :: tail)
    (other : c ≠ '}') :
    value? (fuel + 1) ('{' :: cs) = (members? fuel (c :: tail)).map fun p => (record p.1, p.2) := by
  simp [value?, skipSpace_cons (c := '{') rfl, skip, other]

theorem skipSpace_enclosed {c : Char} (space : isSpace c = false) (tail : List Char) :
    skipSpace (layout.gap depth ++ c :: tail) = c :: tail := by
  rw [skipSpace_append (layout.gap_space depth), skipSpace_cons space]

theorem reads_list {ds : List Data} (read : ds.Forall₂ Reads parts) :
    Reads (.list ds) (enclosed layout depth '[' ']' parts) where
  head := by
    cases parts <;> exact ⟨'[', _, rfl, rfl, by decide⟩
  value fuel rest enough _ := by
    cases read with
    | nil =>
      match fuel, enough with
      | fuel + 1, _ =>
        simp [enclosed, value?, skipSpace_cons (c := '[') rfl, skipSpace_cons (c := ']') rfl]
    | @cons d part ds parts first others =>
      have longer := length_enclosed layout depth '[' ']' part parts
      match fuel, enough with
      | 0, enough => omega
      | fuel + 1, enough =>
        have items : items? fuel (part ++ (following layout depth ']' parts ++ rest)) =
            some (d :: ds, rest) := items?_following first others (by omega)
        obtain ⟨c, tail, rfl, space, other⟩ := first.head
        simp only [enclosed, List.cons_append, List.append_assoc] at items ⊢
        rw [value?_list (skipSpace_enclosed space _) other, items]
        rfl

theorem record_of_names (ms : List (String × Data)) :
    record (ms.map fun m => (some m.1, m.2)) = .record ms := by
  have names : (ms.map fun m => (some m.1, m.2)).mapM
      (fun m : Option String × Data => m.1.map (·, m.2)) = some ms := by
    induction ms with
    | nil => rfl
    | cons m ms ih => simp [ih]
  rw [record, names]

theorem reads_record {ms : List (String × Data)} (read : ms.Forall₂ (ReadsMember layout) parts) :
    Reads (.record ms) (enclosed layout depth '{' '}' parts) where
  head := by
    cases parts <;> exact ⟨'{', _, rfl, rfl, by decide⟩
  value fuel rest enough _ := by
    cases read with
    | nil =>
      match fuel, enough with
      | fuel + 1, _ =>
        simp [enclosed, value?, skipSpace_cons (c := '{') rfl, skipSpace_cons (c := '}') rfl]
    | @cons m part ms parts first others =>
      have longer := length_enclosed layout depth '{' '}' part parts
      match fuel, enough with
      | 0, enough => omega
      | fuel + 1, enough =>
        have members : members? fuel (part ++ (following layout depth '}' parts ++ rest)) =
            some ((m :: ms).map fun m => (some m.1, m.2), rest) :=
          members?_following first others (by omega)
        obtain ⟨cs, rfl, _⟩ := first
        simp only [enclosed, quoted, List.cons_append, List.append_assoc] at members ⊢
        rw [value?_record (skipSpace_enclosed rfl _) (by decide), members, Option.map_some,
          record_of_names]

end

/-! ## What can be written -/

/-- What is printed for a float is a numeral, and is read as the float. -/
structure ReadsBack (digits : Float → Numeral) (x : Float) : Prop where
  wellFormed : (digits x).WellFormed
  read : (digits x).toData = .float x

/-- Data that a document can hold: every part has a value, integers have 64 bits, and the numerals
of floats are read back. -/
inductive Writable (digits : Float → Numeral) : Data → Prop where
  | null : Writable digits .null
  | bool (b : Bool) : Writable digits (.bool b)
  | int {n : Int} (lo : -9223372036854775808 ≤ n) (hi : n ≤ 18446744073709551615) :
      Writable digits (.int n)
  | float {x : Float} (finite : x.isFinite) (back : ReadsBack digits x) :
      Writable digits (.float x)
  | text (s : String) : Writable digits (.text s)
  | list {ds : List Data} (items : ∀ d ∈ ds, Writable digits d) : Writable digits (.list ds)
  | record {ms : List (String × Data)} (members : ∀ m ∈ ms, Writable digits m.2) :
      Writable digits (.record ms)

variable {digits : Float → Numeral} {d : Data}

theorem forall₂_writeItems {layout : Layout} {depth : Nat} {ds : List Data}
    (reads : ∀ d ∈ ds, Reads d (write layout digits depth d)) :
    ds.Forall₂ Reads (writeItems layout digits depth ds) := by
  induction ds with
  | nil => exact .nil
  | cons d ds ih =>
    obtain ⟨first, rest⟩ := List.forall_mem_cons.mp reads
    exact .cons first (ih rest)

theorem forall₂_writeMembers {layout : Layout} {depth : Nat} {ms : List (String × Data)}
    (reads : ∀ m ∈ ms, Reads m.2 (write layout digits depth m.2)) :
    ms.Forall₂ (ReadsMember layout) (writeMembers layout digits depth ms) := by
  induction ms with
  | nil => exact .nil
  | cons m ms ih =>
    obtain ⟨first, rest⟩ := List.forall_mem_cons.mp reads
    exact .cons ⟨_, rfl, first⟩ (ih rest)

theorem reads_write (layout : Layout) (writable : Writable digits d) (depth : Nat) :
    Reads d (write layout digits depth d) := by
  induction writable generalizing depth with
  | null => exact reads_null
  | bool b =>
    cases b with
    | true => exact reads_true
    | false => exact reads_false
  | @int n lo hi =>
    have read := reads_numeral (Numeral.wellFormed_ofInt n)
    rw [Numeral.toData_ofInt lo hi, ← Numeral.integer_eq_text] at read
    exact read
  | @float x finite back =>
    have read := reads_numeral back.wellFormed
    rw [back.read] at read
    simpa [write, finite] using read
  | text s => exact reads_text s
  | list _ ih => exact reads_list (forall₂_writeItems fun d mem => ih d mem (depth + 1))
  | record _ ih => exact reads_record (forall₂_writeMembers fun m mem => ih m mem (depth + 1))

/-- What is written is read back, in either layout and in any other. -/
theorem read?_write (layout : Layout) (writable : Writable digits d) :
    read? (String.ofList (write layout digits 0 d)) = some d := by
  have read := (reads_write layout writable 0).value
    (2 * (write layout digits 0 d).length + 2) [] (Nat.le_add_right _ _) nofun
  rw [List.append_nil] at read
  simp only [read?, String.toList_ofList, read, Option.bind_eq_bind, Option.bind_some]
  rfl

example : write .pretty (fun _ => .ofInt 0) 0
    (.record [("tags", .list [.bool true, .null]), ("title", .text "\"a\"")]) =
    "\x7b\n  \"tags\": [\n    true,\n    null\n  ],\n  \"title\": \"\\\"a\\\"\"\n\x7d".toList := by
  decide

end ReleaseSelection.Json
