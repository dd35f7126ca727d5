/-!
# Totals

The sum of a list of integers.
-/

namespace ReleaseSelection

def total : List Int → Int
  | [] => 0
  | n :: ns => n + total ns

@[simp] theorem total_nil : total [] = 0 := rfl

@[simp] theorem total_cons (n : Int) (ns : List Int) : total (n :: ns) = n + total ns := rfl

theorem total_perm {ms ns : List Int} (perm : ms.Perm ns) : total ms = total ns := by
  induction perm with
  | nil => rfl
  | cons n _ ih => rw [total_cons, total_cons, ih]
  | swap m n ns =>
    simp only [total_cons]
    omega
  | trans _ _ first second => exact first.trans second

end ReleaseSelection
