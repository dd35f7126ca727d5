import ReleaseSelection.Bounded
import ReleaseSelection.Data
import ReleaseSelection.Instant.Text
import ReleaseSelection.Uuid

/-!
# Forms of values as data

`DataForm` gives a type its form as data, with a writer `toData` and a reader `ofData?`.
`Members` reads the members of a record, which may be given by name or as a row. A value is
`Faithful` when its form reads back as the value; the lemmas say so for the basic types.
-/

namespace ReleaseSelection

class DataForm (α : Type) where
  toData : α → Data
  ofData? : Data → Option α

export DataForm (toData ofData?)

def Faithful {α : Type} [DataForm α] (a : α) : Prop := ofData? (toData a) = some a

/-- A type with finitely many values, each known by a name of its own. -/
class Named (α : Type) where
  all : List α
  name : α → String

def Named.ofName? {α : Type} [Named α] (s : String) : Option α :=
  (Named.all : List α).find? (Named.name · == s)

/-- A value is written by name; a record of one such name with nothing in it is read as well. -/
instance {α : Type} [Named α] : DataForm α where
  toData a := .text (Named.name a)
  ofData?
    | .text s => Named.ofName? s
    | .record [(s, .null)] => Named.ofName? s
    | _ => none

instance : DataForm Bool where
  toData := .bool
  ofData?
    | .bool b => some b
    | _ => none

instance : DataForm String where
  toData := .text
  ofData?
    | .text s => some s
    | _ => none

/-- An integer is a float as well. -/
instance : DataForm Float where
  toData := .float
  ofData?
    | .float x => some x
    | .int n => some (Float.ofInt n)
    | _ => none

instance {lo hi : Int} : DataForm (Bounded lo hi) where
  toData a := .int a.val
  ofData?
    | .int n => Bounded.ofInt? n
    | _ => none

instance : DataForm Uuid where
  toData u := .text u.text
  ofData?
    | .text s => Uuid.ofText? s
    | _ => none

instance : DataForm Instant where
  toData t := .text t.text
  ofData?
    | .text s => Instant.ofText? s
    | _ => none

instance {α : Type} [DataForm α] : DataForm (List α) where
  toData as := .list (as.map toData)
  ofData?
    | .list ds => ds.mapM ofData?
    | _ => none

instance {α : Type} [DataForm α] : DataForm (Option α) where
  toData
    | some a => toData a
    | none => .null
  ofData?
    | .null => some none
    | d => (ofData? d).map some

/-- The members of a record that was given by name, or as a row in the order of its names. -/
structure Members where
  pairs : List (String × Data)
  named : Bool

namespace Members

/-- No member of the record may be given twice; others may be there and do not count. -/
def of? (names : List String) : Data → Option Members
  | .record ms =>
    if names.all fun name => (ms.filter (·.1 == name)).length ≤ 1 then some ⟨ms, true⟩ else none
  | .list items => if items.length ≤ names.length then some ⟨names.zip items, false⟩ else none
  | _ => none

variable {α : Type} [DataForm α]

def required (m : Members) (name : String) : Option α := (m.pairs.lookup name).bind ofData?

/-- Without the member there is no value. A row has to reach the member nonetheless. -/
def optional (m : Members) (name : String) : Option (Option α) :=
  match m.pairs.lookup name with
  | some d => ofData? d
  | none => if m.named then some none else none

def defaulted (m : Members) (name : String) (default : α) : Option α :=
  match m.pairs.lookup name with
  | some d => ofData? d
  | none => some default

end Members

theorem faithful_bool (b : Bool) : Faithful b := rfl

theorem faithful_string (s : String) : Faithful s := rfl

theorem faithful_float (x : Float) : Faithful x := rfl

theorem faithful_bounded {lo hi : Int} (a : Bounded lo hi) : Faithful a := Bounded.ofInt?_val a

theorem faithful_uuid (u : Uuid) : Faithful u := Uuid.ofText?_text u

theorem faithful_list {α : Type} [DataForm α] {as : List α} (h : ∀ a ∈ as, Faithful a) :
    Faithful as := by
  simp only [Faithful, toData, ofData?]
  induction as with
  | nil => rfl
  | cons a as ih =>
    have ha : ofData? (toData a) = some a := h a List.mem_cons_self
    simp [ha, ih fun b hb => h b (List.mem_cons_of_mem a hb)]

end ReleaseSelection
