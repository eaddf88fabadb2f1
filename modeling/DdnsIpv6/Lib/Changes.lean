import Mathlib.Data.List.Destutter

/-!
# Changes of an observed value

`l.destutter (· ≠ ·)` is what somebody hears of the observations `l` who is told about changes only. `destutter_concat`
says what one more observation adds.
-/

namespace Lib

variable {α : Type*} [DecidableEq α]

theorem destutter'_concat (a b : α) : ∀ l : List α, (l ++ [b]).destutter' (· ≠ ·) a =
    if (a :: l).getLast? = some b then l.destutter' (· ≠ ·) a else l.destutter' (· ≠ ·) a ++ [b]
  | [] => by
    by_cases h : a = b <;> simp [h]
  | c :: l => by
    rw [List.cons_append, List.destutter'_cons, List.destutter'_cons, destutter'_concat a b l, destutter'_concat c b l,
      List.getLast?_cons_cons]
    by_cases h : a = c
    · subst h
      simp
    · by_cases hl : (c :: l).getLast? = some b <;> simp [h, hl]

/-- One more observation is heard of unless it repeats the one before. -/
theorem destutter_concat (l : List α) (b : α) : (l ++ [b]).destutter (· ≠ ·) =
    if l.getLast? = some b then l.destutter (· ≠ ·) else l.destutter (· ≠ ·) ++ [b] := by
  cases l with
  | nil => rfl
  | cons a l => exact destutter'_concat a b l

end Lib
