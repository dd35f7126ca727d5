import ReleaseSelection.Configuration

/-!
# Settings without null

Neither a document nor a variable has a way to write null. So no setting that is read from them is
missing in the middle of a record (`Toml.nullFree_read?`, `Configuration.nullFree_environment`).
-/

namespace ReleaseSelection

namespace Data

/-- Nothing in it is null. -/
inductive NullFree : Data → Prop
  | bool (b : Bool) : NullFree (.bool b)
  | int (n : Int) : NullFree (.int n)
  | float (x : Float) : NullFree (.float x)
  | text (s : String) : NullFree (.text s)
  | list {items : List Data} (all : ∀ d ∈ items, NullFree d) : NullFree (.list items)
  | record {members : List (String × Data)} (all : ∀ m ∈ members, NullFree m.2) :
      NullFree (.record members)
  | unreadable : NullFree .unreadable

def IsRecord (d : Data) : Prop := ∃ members, d = .record members

structure NullFreeRecord (d : Data) : Prop where
  isRecord : d.IsRecord
  nullFree : d.NullFree

theorem NullFree.members {members : List (String × Data)} (free : NullFree (.record members)) :
    ∀ m ∈ members, NullFree m.2 := by
  cases free with
  | record all => exact all

theorem NullFree.items {items : List Data} (free : NullFree (.list items)) :
    ∀ d ∈ items, NullFree d := by
  cases free with
  | list all => exact all

/-! ## Layers -/

theorem mergeMembers_eq (lower upper : List (String × Data)) :
    mergeMembers lower upper = lower.map fun m => (m.1, match upper.lookup m.1 with
      | some e => merge m.2 e
      | none => m.2) := by
  induction lower with
  | nil => rfl
  | cons m lower ih =>
    rw [mergeMembers, ih]
    rfl

theorem NullFree.of_lookup {members : List (String × Data)} {name : String} {d : Data}
    (free : ∀ m ∈ members, NullFree m.2) (found : members.lookup name = some d) : d.NullFree := by
  obtain ⟨before, after, rfl, _⟩ := List.lookup_eq_some_iff.mp found
  exact free (name, d) (List.mem_append_right before List.mem_cons_self)

/-- Only a record over a record leaves anything of the lower layer. -/
theorem merge_eq_upper (lower upper : Data) :
    merge lower upper = upper ∨ ∃ ls us, lower = .record ls ∧ upper = .record us := by
  unfold merge
  split
  · rename_i ls us
    exact .inr ⟨ls, us, rfl, rfl⟩
  · exact .inl rfl

theorem NullFree.merge {lower upper : Data} (low : lower.NullFree) (up : upper.NullFree) :
    (merge lower upper).NullFree := by
  induction low generalizing upper with
  | @record members all ih =>
    rcases merge_eq_upper (.record members) upper with same | ⟨_, above, _, rfl⟩
    · rw [same]
      exact up
    · rw [Data.merge]
      apply NullFree.record
      rw [List.forall_mem_append, mergeMembers_eq, List.forall_mem_map]
      constructor
      · intro m mem
        cases found : above.lookup m.1 with
        | none => exact all m mem
        | some e => exact ih m mem (.of_lookup up.members found)
      · intro m mem
        exact up.members m (List.mem_filter.mp mem).1
  | bool | int | float | text | list | unreadable =>
    rcases merge_eq_upper _ upper with same | ⟨_, _, form, _⟩
    · rw [same]
      exact up
    · cases form

theorem IsRecord.merge {lower upper : Data} (low : lower.IsRecord) (up : upper.IsRecord) :
    (merge lower upper).IsRecord := by
  obtain ⟨ls, rfl⟩ := low
  obtain ⟨us, rfl⟩ := up
  exact ⟨_, by rw [Data.merge]⟩

theorem NullFreeRecord.merge {lower upper : Data} (low : lower.NullFreeRecord)
    (up : upper.NullFreeRecord) : (merge lower upper).NullFreeRecord :=
  ⟨low.isRecord.merge up.isRecord, low.nullFree.merge up.nullFree⟩

theorem nullFreeRecord_overlay {layers : List Data} (free : ∀ d ∈ layers, d.NullFreeRecord) :
    (overlay layers).NullFreeRecord := by
  have onto (base : Data) (first : base.NullFreeRecord) :
      (layers.foldl Data.merge base).NullFreeRecord := by
    induction layers generalizing base with
    | nil => exact first
    | cons layer layers ih =>
      obtain ⟨next, rest⟩ := List.forall_mem_cons.mp free
      exact ih rest _ (first.merge next)
  exact onto (.record []) ⟨⟨[], rfl⟩, .record (List.forall_mem_nil _)⟩

end Data

/-! ## Documents -/

namespace Toml

open Data

theorem membersToData_eq (items : List (String × Item)) :
    membersToData items = items.map fun m => (m.1, m.2.toData) := by
  induction items with
  | nil => rfl
  | cons m items ih => rw [membersToData, ih, List.map_cons]

theorem elementsToData_eq (elements : List (List (String × Item))) :
    elementsToData elements = elements.map fun items => .record (membersToData items) := by
  induction elements with
  | nil => rfl
  | cons items elements ih => rw [elementsToData, ih, List.map_cons]

/-- No value below any key of a table is null. -/
def NullFreeItems (items : List (String × Item)) : Prop := ∀ m ∈ items, m.2.toData.NullFree

theorem nullFree_record_iff {items : List (String × Item)} :
    (Data.record (membersToData items)).NullFree ↔ NullFreeItems items := by
  rw [membersToData_eq]
  constructor
  · intro free m mem
    exact free.members _ (List.mem_map_of_mem mem)
  · intro free
    exact .record (List.forall_mem_map.mpr free)

theorem nullFree_table_iff {origin : Origin} {items : List (String × Item)} :
    (Item.table origin items).toData.NullFree ↔ NullFreeItems items := by
  rw [Item.toData, nullFree_record_iff]

theorem nullFree_tables_iff {elements : List (List (String × Item))} :
    (Item.tables elements).toData.NullFree ↔ ∀ items ∈ elements, NullFreeItems items := by
  rw [Item.toData, elementsToData_eq]
  constructor
  · intro free items mem
    exact nullFree_record_iff.mp (free.items _ (List.mem_map_of_mem mem))
  · intro free
    apply NullFree.list
    rw [List.forall_mem_map]
    intro items mem
    exact nullFree_record_iff.mpr (free items mem)

theorem NullFreeItems.of_lookup {items : List (String × Item)} (free : NullFreeItems items)
    {key : String} {item : Item} (found : items.lookup key = some item) : item.toData.NullFree := by
  obtain ⟨before, after, rfl, _⟩ := List.lookup_eq_some_iff.mp found
  exact free (key, item) (List.mem_append_right before List.mem_cons_self)

namespace Table

variable {t t' : Table} {key : String} {path : List String} {d : Data}

def IsNullFree (t : Table) : Prop := NullFreeItems t.items

theorem IsNullFree.put (free : t.IsNullFree) {item : Item} (put : item.toData.NullFree) :
    (t.put key item).IsNullFree := by
  unfold Table.put
  split
  · intro m mem
    obtain ⟨old, was, rfl⟩ := List.mem_map.mp mem
    split
    · exact put
    · exact free old was
  · intro m mem
    rcases List.mem_append.mp mem with was | new
    · exact free m was
    · rw [List.mem_singleton.mp new]
      exact put

/-- A change at a path puts the changed tables back on the way. -/
theorem IsNullFree.modify {dotted : Bool} {change : Table → Option Table}
    (keeps : ∀ s s' : Table, s.IsNullFree → change s = some s' → s'.IsNullFree)
    (free : t.IsNullFree) (modified : modify dotted change path t = some t') : t'.IsNullFree := by
  induction path generalizing t t' with
  | nil => exact keeps t t' free modified
  | cons key path ih =>
    rw [Table.modify] at modified
    split at modified
    · obtain ⟨s, below, put⟩ := Option.bind_eq_some_iff.mp modified
      obtain rfl := Option.some.inj put
      exact free.put (nullFree_table_iff.mpr (ih (t := ⟨_, []⟩) (List.forall_mem_nil _) below))
    · rename_i origin items found
      split at modified
      · cases modified
      · obtain ⟨s, below, put⟩ := Option.bind_eq_some_iff.mp modified
        obtain rfl := Option.some.inj put
        have inner := nullFree_table_iff.mp (free.of_lookup found)
        exact free.put (nullFree_table_iff.mpr (ih (t := ⟨origin, items⟩) inner below))
    · rename_i elements found
      have inner := nullFree_tables_iff.mp (free.of_lookup found)
      split at modified
      · rename_i last others reversed
        have each : ∀ items ∈ last :: others, NullFreeItems items := by
          rw [← reversed]
          exact fun items mem => inner items (List.mem_reverse.mp mem)
        obtain ⟨latest, earlier⟩ := List.forall_mem_cons.mp each
        obtain ⟨s, below, put⟩ := Option.bind_eq_some_iff.mp modified
        obtain rfl := Option.some.inj put
        refine free.put (nullFree_tables_iff.mpr (List.forall_mem_append.mpr ⟨?_, ?_⟩))
        · exact fun items mem => earlier items (List.mem_reverse.mp mem)
        · exact List.forall_mem_singleton.mpr (ih (t := ⟨_, last⟩) latest below)
      · cases modified
    · cases modified

theorem IsNullFree.assign (value : d.NullFree) (free : t.IsNullFree)
    (assigned : t.assign path key d = some t') : t'.IsNullFree := by
  refine free.modify (fun s s' free changed => ?_) assigned
  split at changed
  · cases changed
  · obtain rfl := Option.some.inj changed
    exact free.put value

theorem IsNullFree.define (free : t.IsNullFree) (defined : t.define path key = some t') :
    t'.IsNullFree := by
  refine free.modify (fun s s' free changed => ?_) defined
  split at changed
  · obtain rfl := Option.some.inj changed
    exact free.put (nullFree_table_iff.mpr (List.forall_mem_nil _))
  · rename_i items found
    obtain rfl := Option.some.inj changed
    exact free.put (nullFree_table_iff.mpr (nullFree_table_iff.mp (free.of_lookup found)))
  · cases changed

theorem IsNullFree.extend (free : t.IsNullFree) (extended : t.extend path key = some t') :
    t'.IsNullFree := by
  refine free.modify (fun s s' free changed => ?_) extended
  have fresh : NullFreeItems [] := List.forall_mem_nil _
  split at changed
  · obtain rfl := Option.some.inj changed
    exact free.put (nullFree_tables_iff.mpr (List.forall_mem_singleton.mpr fresh))
  · rename_i elements found
    obtain rfl := Option.some.inj changed
    have inner := nullFree_tables_iff.mp (free.of_lookup found)
    refine free.put (nullFree_tables_iff.mpr (List.forall_mem_append.mpr ⟨inner, ?_⟩))
    exact List.forall_mem_singleton.mpr fresh
  · cases changed

end Table

/-! ### Values -/

theorem nullFree_inRange? {n : Int} {d : Data} (read : inRange? n = some d) : d.NullFree := by
  unfold inRange? at read
  split at read
  · obtain rfl := Option.some.inj read
    exact .int n
  · cases read

theorem nullFree_integer? {cs : List Char} {d : Data} (read : integer? cs = some d) :
    d.NullFree := by
  unfold integer? at read
  split at read
  all_goals
    obtain ⟨ds, _, inRange⟩ := Option.bind_eq_some_iff.mp read
    exact nullFree_inRange? inRange

theorem nullFree_float? {cs : List Char} {d : Data} (read : float? cs = some d) : d.NullFree := by
  unfold float? at read
  dsimp only at read
  split at read
  · obtain rfl := Option.some.inj read
    exact .float _
  split at read
  · obtain rfl := Option.some.inj read
    exact .float _
  obtain ⟨whole, _, read⟩ := Option.bind_eq_some_iff.mp read
  split at read
  all_goals
    obtain ⟨fraction, _, read⟩ := Option.bind_eq_some_iff.mp read
    split at read
    all_goals
      obtain ⟨exponent, _, read⟩ := Option.bind_eq_some_iff.mp read
      split at read
      · cases read
      split at read
      · cases read
      · obtain rfl := Option.some.inj read
        exact .float _

theorem nullFree_word? {cs : List Char} {d : Data} (read : word? cs = some d) : d.NullFree := by
  unfold word? at read
  split at read
  · obtain rfl := Option.some.inj read
    exact .bool true
  split at read
  · obtain rfl := Option.some.inj read
    exact .bool false
  split at read
  · obtain rfl := Option.some.inj read
    exact .record (List.forall_mem_nil _)
  rcases Option.or_eq_some_iff.mp read with integer | ⟨_, float⟩
  · exact nullFree_integer? integer
  · exact nullFree_float? float

/-- What is read of values with fuel enough for so many steps is free of null. -/
structure ReadsNullFree (fuel : Nat) : Prop where
  value {room : Nat} {cs rest : List Char} {d : Data} :
    value? fuel room cs = some (d, rest) → d.NullFree
  array {room : Nat} {cs rest : List Char} {ds : List Data} :
    array? fuel room cs = some (ds, rest) → ∀ d ∈ ds, d.NullFree
  inline {room : Nat} {cs rest : List Char} {t t' : Table} :
    inline? fuel room t cs = some (t', rest) → t.IsNullFree → t'.IsNullFree

theorem readsNullFree (fuel : Nat) : ReadsNullFree fuel := by
  -- the readers call each other with less fuel, so that the three hold together
  induction fuel with
  | zero => exact ⟨nofun, nofun, nofun⟩
  | succ fuel ih =>
    constructor
    · intro room cs rest d read
      unfold value? at read
      split at read
      · obtain ⟨p, _, same⟩ := Option.map_eq_some_iff.mp read
        obtain ⟨rfl, _⟩ := Prod.mk.inj same
        exact .text p.1
      · obtain ⟨p, _, same⟩ := Option.map_eq_some_iff.mp read
        obtain ⟨rfl, _⟩ := Prod.mk.inj same
        exact .text p.1
      · obtain ⟨p, inner, same⟩ := Option.map_eq_some_iff.mp read
        obtain ⟨rfl, _⟩ := Prod.mk.inj same
        exact .list (ih.array inner)
      · split at read
        · obtain ⟨rfl, _⟩ := Prod.mk.inj (Option.some.inj read)
          exact .record (List.forall_mem_nil _)
        · obtain ⟨p, inner, same⟩ := Option.map_eq_some_iff.mp read
          obtain ⟨rfl, _⟩ := Prod.mk.inj same
          exact nullFree_record_iff.mpr (ih.inline inner (List.forall_mem_nil _))
      · obtain ⟨e, word, same⟩ := Option.map_eq_some_iff.mp read
        obtain ⟨rfl, _⟩ := Prod.mk.inj same
        exact nullFree_word? word
    · intro room cs rest ds read
      unfold array? at read
      split at read
      · obtain ⟨rfl, _⟩ := Prod.mk.inj (Option.some.inj read)
        exact List.forall_mem_nil _
      · obtain ⟨⟨d, cs⟩, first, read⟩ := Option.bind_eq_some_iff.mp read
        have free := ih.value first
        dsimp only at read
        split at read
        · obtain ⟨rfl, _⟩ := Prod.mk.inj (Option.some.inj read)
          exact List.forall_mem_singleton.mpr free
        · obtain ⟨⟨ds, cs⟩, others, read⟩ := Option.bind_eq_some_iff.mp read
          obtain ⟨rfl, _⟩ := Prod.mk.inj (Option.some.inj read)
          exact List.forall_mem_cons.mpr ⟨free, ih.array others⟩
        · cases read
    · intro room cs rest t t' read free
      unfold inline? at read
      obtain ⟨⟨⟨path, key⟩, cs⟩, _, read⟩ := Option.bind_eq_some_iff.mp read
      dsimp only at read
      split at read
      · obtain ⟨⟨d, cs⟩, value, read⟩ := Option.bind_eq_some_iff.mp read
        obtain ⟨s, assigned, read⟩ := Option.bind_eq_some_iff.mp read
        have kept := free.assign (ih.value value) assigned
        split at read
        · obtain ⟨rfl, _⟩ := Prod.mk.inj (Option.some.inj read)
          exact kept
        · exact ih.inline read kept
        · cases read
      · cases read

/-! ### Lines -/

theorem nullFree_document? {fuel : Nat} {header : List String} {root t : Table} {cs : List Char}
    (free : root.IsNullFree) (read : document? fuel header root cs = some t) : t.IsNullFree := by
  induction fuel generalizing header root cs with
  | zero => cases read
  | succ fuel ih =>
    unfold document? at read
    split at read
    · obtain rfl := Option.some.inj read
      exact free
    · obtain ⟨⟨⟨path, key⟩, cs⟩, _, read⟩ := Option.bind_eq_some_iff.mp read
      dsimp only at read
      split at read
      · obtain ⟨s, extended, read⟩ := Option.bind_eq_some_iff.mp read
        obtain ⟨cs, _, read⟩ := Option.bind_eq_some_iff.mp read
        exact ih (free.extend extended) read
      · cases read
    · obtain ⟨⟨⟨path, key⟩, cs⟩, _, read⟩ := Option.bind_eq_some_iff.mp read
      dsimp only at read
      split at read
      · obtain ⟨s, defined, read⟩ := Option.bind_eq_some_iff.mp read
        obtain ⟨cs, _, read⟩ := Option.bind_eq_some_iff.mp read
        exact ih (free.define defined) read
      · cases read
    · split at read
      · exact ih free read
      · obtain ⟨⟨⟨path, key⟩, cs⟩, _, read⟩ := Option.bind_eq_some_iff.mp read
        dsimp only at read
        split at read
        · obtain ⟨⟨d, cs⟩, value, read⟩ := Option.bind_eq_some_iff.mp read
          obtain ⟨s, assigned, read⟩ := Option.bind_eq_some_iff.mp read
          obtain ⟨cs, _, read⟩ := Option.bind_eq_some_iff.mp read
          have kept (t t' : Table) (free : t.IsNullFree) :
              t.assign path key d = some t' → t'.IsNullFree :=
            free.assign ((readsNullFree _).value value)
          exact ih (free.modify kept assigned) read
        · cases read

/-- **No document stands for settings with null in them.** -/
theorem nullFree_read? {s : String} {d : Data} (read : read? s = some d) : d.NullFreeRecord := by
  obtain ⟨t, document, rfl⟩ := Option.map_eq_some_iff.mp read
  have empty : Table.IsNullFree .empty := List.forall_mem_nil _
  exact ⟨⟨_, rfl⟩, nullFree_record_iff.mpr (nullFree_document? empty document)⟩

end Toml

/-! ## Variables -/

namespace Variable

open Data

theorem nullFree_integer? {cs : List Char} {d : Data} (read : integer? cs = some d) :
    d.NullFree := by
  unfold integer? at read
  split at read
  all_goals
    obtain ⟨n, _, read⟩ := Option.bind_eq_some_iff.mp read
    split at read
    · obtain rfl := Option.some.inj read
      exact .int _
    · cases read

theorem nullFree_word (cs : List Char) : (word cs).NullFree := by
  unfold word
  split
  · exact .float 0
  · cases read : integer? cs with
    | none => exact .text _
    | some d => exact nullFree_integer? read

structure ReadsNullFree (fuel : Nat) : Prop where
  value {cs rest : List Char} {d : Data} : value fuel cs = .ok (d, rest) → d.NullFree
  list {cs rest : List Char} {ds : List Data} :
    list fuel cs = .ok (ds, rest) → ∀ d ∈ ds, d.NullFree
  record {cs rest : List Char} {ms : List (String × Data)} :
    record fuel cs = .ok (ms, rest) → ∀ m ∈ ms, m.2.NullFree

theorem readsNullFree (fuel : Nat) : ReadsNullFree fuel := by
  induction fuel with
  | zero => exact ⟨nofun, nofun, nofun⟩
  | succ fuel ih =>
    constructor
    · intro cs rest d read
      unfold Variable.value at read
      dsimp only at read
      split at read
      · obtain ⟨⟨e, cs⟩, inner, read⟩ := Fault.bind_eq_ok_iff.mp read
        obtain ⟨rfl, _⟩ := Prod.mk.inj (Except.ok.inj read)
        obtain ⟨rfl, _⟩ := Prod.mk.inj (Except.ok.inj inner)
        exact .bool true
      · obtain ⟨⟨e, cs⟩, inner, read⟩ := Fault.bind_eq_ok_iff.mp read
        obtain ⟨rfl, _⟩ := Prod.mk.inj (Except.ok.inj read)
        obtain ⟨rfl, _⟩ := Prod.mk.inj (Except.ok.inj inner)
        exact .bool false
      · split at read
        all_goals
          obtain ⟨⟨e, cs⟩, inner, read⟩ := Fault.bind_eq_ok_iff.mp read
          obtain ⟨rfl, _⟩ := Prod.mk.inj (Except.ok.inj read)
        · obtain ⟨p, members, same⟩ := Fault.map_eq_ok_iff.mp inner
          obtain ⟨rfl, _⟩ := Prod.mk.inj same
          exact .record (ih.record members)
        · obtain ⟨p, items, same⟩ := Fault.map_eq_ok_iff.mp inner
          obtain ⟨rfl, _⟩ := Prod.mk.inj same
          exact .list (ih.list items)
        · obtain ⟨p, _, same⟩ := Fault.map_eq_ok_iff.mp inner
          obtain ⟨rfl, _⟩ := Prod.mk.inj same
          exact .text p.1
        · obtain ⟨rfl, _⟩ := Prod.mk.inj (Except.ok.inj inner)
          exact .text _
        · cases inner
        · obtain ⟨rfl, _⟩ := Prod.mk.inj (Except.ok.inj inner)
          exact nullFree_word _
    · intro cs rest ds read
      unfold Variable.list at read
      split at read
      · obtain ⟨rfl, _⟩ := Prod.mk.inj (Except.ok.inj read)
        exact List.forall_mem_nil _
      · obtain ⟨⟨d, cs⟩, first, read⟩ := Fault.bind_eq_ok_iff.mp read
        have free := ih.value first
        dsimp only at read
        split at read
        · obtain ⟨p, others, same⟩ := Fault.map_eq_ok_iff.mp read
          obtain ⟨rfl, _⟩ := Prod.mk.inj same
          exact List.forall_mem_cons.mpr ⟨free, ih.list others⟩
        · obtain ⟨rfl, _⟩ := Prod.mk.inj (Except.ok.inj read)
          exact List.forall_mem_singleton.mpr free
        · cases read
    · intro cs rest ms read
      unfold Variable.record at read
      split at read
      · obtain ⟨rfl, _⟩ := Prod.mk.inj (Except.ok.inj read)
        exact List.forall_mem_nil _
      · obtain ⟨⟨name, cs⟩, _, read⟩ := Fault.bind_eq_ok_iff.mp read
        dsimp only at read
        split at read
        · obtain ⟨⟨d, cs⟩, value, read⟩ := Fault.bind_eq_ok_iff.mp read
          have free := ih.value value
          dsimp only at read
          split at read
          · obtain ⟨⟨ms, cs⟩, others, read⟩ := Fault.bind_eq_ok_iff.mp read
            obtain ⟨rfl, _⟩ := Prod.mk.inj (Except.ok.inj read)
            split
            · exact ih.record others
            · exact List.forall_mem_cons.mpr ⟨free, ih.record others⟩
          · obtain ⟨rfl, _⟩ := Prod.mk.inj (Except.ok.inj read)
            exact List.forall_mem_singleton.mpr free
          · cases read
        · cases read

theorem nullFree_read {s : String} {d : Data} (read : read s = .ok d) : d.NullFree := by
  unfold Variable.read at read
  dsimp only at read
  split at read
  · rename_i value
    obtain rfl := Except.ok.inj read
    exact (readsNullFree _).value value
  · cases read
  · obtain rfl := Except.ok.inj read
    exact .text s

theorem path_ne_nil (cs : List Char) : path cs ≠ [] := by
  fun_induction path cs <;> simp

theorem nullFreeRecord_nested {d : Data} (free : d.NullFree) {names : List String}
    (ne_nil : names ≠ []) : (nested d names).NullFreeRecord := by
  have below (names : List String) : (nested d names).NullFree := by
    induction names with
    | nil => exact free
    | cons name names ih => exact .record (List.forall_mem_singleton.mpr ih)
  cases names with
  | nil => exact absurd rfl ne_nil
  | cons name names => exact ⟨⟨_, rfl⟩, below (name :: names)⟩

theorem names_ne_nil {mark name : String} {names : List String}
    (read : names? mark name = some names) : names ≠ [] := by
  unfold names? at read
  dsimp only at read
  split at read
  · split at read
    · cases read
    · obtain rfl := Option.some.inj read
      simpa using path_ne_nil _
  · cases read

end Variable

theorem exists_of_mem_mapM {ε α β : Type} {f : α → Except ε β} {xs : List α} {ys : List β}
    (made : xs.mapM f = .ok ys) : ∀ y ∈ ys, ∃ x ∈ xs, f x = .ok y := by
  induction xs generalizing ys with
  | nil =>
    obtain rfl := Except.ok.inj made
    exact List.forall_mem_nil _
  | cons x xs ih =>
    rw [List.mapM_cons] at made
    obtain ⟨y, first, made⟩ := Fault.bind_eq_ok_iff.mp made
    obtain ⟨others, rest, made⟩ := Fault.bind_eq_ok_iff.mp made
    obtain rfl := Except.ok.inj made
    intro z mem
    rcases List.mem_cons.mp mem with rfl | later
    · exact ⟨x, List.mem_cons_self, first⟩
    · obtain ⟨own, among, made⟩ := ih rest z later
      exact ⟨own, List.mem_cons_of_mem x among, made⟩

namespace Configuration

/-- The names and the text of a variable, if it is one of the program. -/
def named? (assignment : String × String) : Option (List String × String) :=
  (Variable.names? variableMark assignment.1).map (·, assignment.2)

def layer (setting : List String × String) : Except Fault Data := do
  return Variable.nested (← Variable.read setting.2) setting.1

variable {assignments : List (String × String)} {env : Data} {layers : List Data}

theorem exists_layers (gathered : environment assignments = .ok env) :
    ∃ layers, (assignments.filterMap named?).mapM layer = .ok layers ∧ env = .overlay layers := by
  obtain ⟨layers, made, same⟩ := Fault.bind_eq_ok_iff.mp gathered
  exact ⟨layers, made, (Except.ok.inj same).symm⟩

/-- Each layer is that of a variable. -/
theorem exists_assignment (made : (assignments.filterMap named?).mapM layer = .ok layers) :
    ∀ layer ∈ layers, ∃ a ∈ assignments, ∃ names d, Variable.names? variableMark a.1 = some names ∧
      Variable.read a.2 = .ok d ∧ layer = Variable.nested d names := by
  intro layer mem
  obtain ⟨_, own, made⟩ := exists_of_mem_mapM made layer mem
  obtain ⟨a, among, own⟩ := List.mem_filterMap.mp own
  obtain ⟨names, named, rfl⟩ := Option.map_eq_some_iff.mp own
  obtain ⟨d, read, made⟩ := Fault.bind_eq_ok_iff.mp made
  exact ⟨a, among, names, d, named, read, (Except.ok.inj made).symm⟩

theorem nullFreeRecord_layers (made : (assignments.filterMap named?).mapM layer = .ok layers) :
    ∀ layer ∈ layers, layer.NullFreeRecord := by
  intro layer mem
  obtain ⟨a, _, names, d, named, read, rfl⟩ := exists_assignment made layer mem
  exact Variable.nullFreeRecord_nested (Variable.nullFree_read read) (Variable.names_ne_nil named)

/-- **No environment stands for settings with null in them.** -/
theorem nullFree_environment (gathered : environment assignments = .ok env) :
    env.NullFreeRecord := by
  obtain ⟨layers, made, rfl⟩ := exists_layers gathered
  exact Data.nullFreeRecord_overlay (nullFreeRecord_layers made)

end Configuration

end ReleaseSelection
