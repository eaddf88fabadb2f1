import DdnsIpv6.Lib.Register

/-!
# Clients with a log

`LoggedBy` says that a client over a world with a log (`Logged`) is another one over the world alone: its calls have the
same results and do the same to the world, and each of them appends to the log what may be logged of it.
-/

namespace Lib.WriteThrough

variable {K V σ ε η : Type*}

/-- A world, and a log of what was done there. -/
structure Logged (σ η : Type*) where
  world : σ
  log : List η

/-- With its log `c` is `c'`, and `P` says what is logged of a call. -/
structure Client.LoggedBy (c : Client K V σ ε) (c' : Client K V (Logged σ η) ε) (P : Call K V → List η → Prop) :
    Prop where
  read : ∀ k w, ∃ es, P (.read k) es ∧
    ∀ log, c'.read k ⟨w, log⟩ = ((c.read k w).1, ⟨(c.read k w).2, log ++ es⟩)
  write : ∀ k v w, ∃ es, P (.write k v) es ∧
    ∀ log, c'.write k v ⟨w, log⟩ = ((c.write k v w).1, ⟨(c.write k v w).2, log ++ es⟩)

/-- Each of the logs is that of one of the calls. -/
theorem exists_of_forall₂ {α β : Type*} {R : α → β → Prop} {as : List α} {bs : List β} (h : List.Forall₂ R as bs)
    {b : β} (hb : b ∈ bs) : ∃ a ∈ as, R a b := by
  induction h with
  | nil => cases hb
  | cons hr _ ih =>
    rcases List.mem_cons.1 hb with rfl | hb
    · exact ⟨_, List.mem_cons_self, hr⟩
    · obtain ⟨a, ha, hr⟩ := ih hb
      exact ⟨a, List.mem_cons_of_mem _ ha, hr⟩

end Lib.WriteThrough
