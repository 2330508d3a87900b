import Mathlib.Data.List.Infix

/-!
# Operations that overwrite cells

Each operation sets some cells to values of its own and leaves the others alone. What a cell holds
after a log of operations is then what the last one that set it has written, and carrying out a whole
log again where a part of it has already been carried out changes nothing
(`foldl_update_of_isPrefix`).
-/

namespace Overwrite

variable {α κ β : Type} (effect : α → κ → Option β) (cells : κ → β) (l l' : List α) (k : κ)

/-- The cells after an operation. -/
def update (a : α) : κ → β := fun k => (effect a k).getD (cells k)

/-- What the last operation that sets the cell writes to it. -/
def last : Option β := (l.filterMap (effect · k)).getLast?

theorem last_append : last effect (l ++ l') k = (last effect l' k).or (last effect l k) := by
  rw [last, List.filterMap_append, List.getLast?_append]
  rfl

theorem last_singleton (a : α) : last effect [a] k = effect a k := by
  rw [last, List.filterMap_cons]
  cases effect a k <;> rfl

theorem foldl_update : l.foldl (update effect) cells k = (last effect l k).getD (cells k) := by
  induction l using List.reverseRecOn with
  | nil => rfl
  | append_singleton l a ih =>
    rw [List.foldl_append, List.foldl_cons, List.foldl_nil, update, ih, last_append, last_singleton]
    cases effect a k <;> rfl

variable {effect l l' k}

/-- The last operation that sets the cell in a part of a log is one of the log. -/
theorem last_append_of_isPrefix (h : l' <+: l) : last effect (l' ++ l) k = last effect l k := by
  obtain ⟨rest, rfl⟩ := h
  rw [last_append, last_append]
  cases last effect rest k <;> cases last effect l' k <;> rfl

theorem foldl_update_of_isPrefix (h : l' <+: l) :
    l.foldl (update effect) (l'.foldl (update effect) cells) = l.foldl (update effect) cells := by
  funext k
  rw [← List.foldl_append, foldl_update, foldl_update, last_append_of_isPrefix h]

end Overwrite
