import ReleaseSelection.Data

/-!
# Layers of data

A layer is put over another by `Data.merge`: records are merged member by member, and anything else
is replaced as a whole. `lookup_mergeMembers` says which members of the lower layer change.
-/

namespace ReleaseSelection.Data

mutual

def merge : Data → Data → Data
  | .record lower, .record upper =>
    .record (mergeMembers lower upper ++ upper.filter fun m => (lower.lookup m.1).isNone)
  | _, upper => upper

/-- The members of the lower record, changed as far as the upper one has them. -/
def mergeMembers : List (String × Data) → List (String × Data) → List (String × Data)
  | [], _ => []
  | (name, d) :: ms, upper =>
    (name, match upper.lookup name with
      | some e => merge d e
      | none => d) :: mergeMembers ms upper

end

/-- Layers over an empty record, the first of them lowest. -/
def overlay (layers : List Data) : Data := layers.foldl merge (.record [])

theorem lookup_mergeMembers (lower upper : List (String × Data)) (name : String) :
    (mergeMembers lower upper).lookup name =
      (lower.lookup name).map fun d =>
        match upper.lookup name with
        | some e => merge d e
        | none => d := by
  induction lower with
  | nil => simp [mergeMembers]
  | cons m ms ih =>
    obtain ⟨key, d⟩ := m
    by_cases h : name = key
    · subst h
      simp [mergeMembers]
    · have other : (name == key) = false := by simp [h]
      simp [mergeMembers, List.lookup_cons, other, ih]

end ReleaseSelection.Data
