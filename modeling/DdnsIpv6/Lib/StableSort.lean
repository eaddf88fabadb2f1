import Mathlib.Data.List.Sort

/-!
# The head of a stable sort

A stable sort puts first the first of the least elements of its input (`firstLeast_head`).
-/

namespace Lib

variable {α : Type*} {r : α → α → Prop}

/-- `b` is the first of the least elements of the list. -/
def FirstLeast (r : α → α → Prop) (l : List α) (b : α) : Prop :=
  ∃ before after, l = before ++ b :: after ∧ (∀ c ∈ before, ¬r c b) ∧ ∀ c ∈ after, r b c

/-- A smaller element in front takes the place. -/
theorem FirstLeast.cons_of_rel [IsTrans α r] {l : List α} {a b : α} (h : FirstLeast r l b) (hab : r a b)
    (htotal : ∀ c ∈ l, ¬r c b → r b c) : FirstLeast r (a :: l) a := by
  obtain ⟨before, after, rfl, hbefore, hafter⟩ := h
  refine ⟨[], _, rfl, fun c hc => absurd hc List.not_mem_nil, fun c hc => ?_⟩
  rcases List.mem_append.1 hc with hc' | hc'
  · exact trans_of r hab (htotal c hc (hbefore c hc'))
  · rcases List.mem_cons.1 hc' with rfl | hc'
    · exact hab
    · exact trans_of r hab (hafter c hc')

/-- Any other element in front leaves it. -/
theorem FirstLeast.cons_of_not_rel {l : List α} {a b : α} (h : FirstLeast r l b) (hab : ¬r a b) :
    FirstLeast r (a :: l) b := by
  obtain ⟨before, after, rfl, hbefore, hafter⟩ := h
  exact ⟨a :: before, after, rfl, List.forall_mem_cons.2 ⟨hab, hbefore⟩, hafter⟩

/-- **The head of the sorted list.** -/
theorem firstLeast_head [DecidableRel r] [Std.Total r] [IsTrans α r] {l : List α} {b : α} {bs : List α}
    (h : l.insertionSort r = b :: bs) : FirstLeast r l b := by
  induction l generalizing b bs with
  | nil => cases h
  | cons a l ih =>
    rw [List.insertionSort_cons] at h
    cases hs : l.insertionSort r with
    | nil =>
      have hl : l = [] := List.length_eq_zero_iff.1 (by rw [← List.length_insertionSort r l, hs]; rfl)
      rw [hs, List.orderedInsert] at h
      cases h
      subst hl
      exact ⟨[], [], rfl, fun c hc => absurd hc List.not_mem_nil, fun c hc => absurd hc List.not_mem_nil⟩
    | cons b' bs' =>
      have hfirst := ih hs
      rw [hs, List.orderedInsert_cons] at h
      split at h
      · rename_i hab
        cases h
        exact hfirst.cons_of_rel hab fun c _ hc => (total_of r b' c).resolve_right hc
      · rename_i hab
        cases h
        exact hfirst.cons_of_not_rel hab

end Lib
