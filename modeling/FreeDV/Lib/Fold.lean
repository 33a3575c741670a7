import Mathlib.Data.List.FinRange

/-!
# Loops as folds

A `for` loop over a fixed range is a left fold. The rule below carries an
invariant that may speak about the part of the range already visited.
-/

set_option autoImplicit false

namespace FreeDV.Lib

/-- Loop rule: an invariant indexed by the visited prefix holds at loop exit. -/
theorem foldl_invariant {α β : Type*} (step : β → α → β) (invariant : List α → β → Prop)
    (range : List α) (initial : β) (start : invariant [] initial)
    (next : ∀ visited item rest state, range = visited ++ item :: rest →
      invariant visited state → invariant (visited ++ [item]) (step state item)) :
    invariant range (range.foldl step initial) := by
  have loop : ∀ rest visited state, range = visited ++ rest → invariant visited state →
      invariant range (rest.foldl step state) := by
    intro rest
    induction rest with
    | nil =>
        intro visited state split valid
        have whole : visited = range := by simpa using split.symm
        simpa only [List.foldl_nil, whole] using valid
    | cons item rest ih =>
        intro visited state split valid
        exact ih (visited ++ [item]) (step state item) (by simpa using split)
          (next visited item rest state split valid)
  exact loop range [] initial rfl start

theorem mem_visited_finRange_iff {n : Nat} {visited rest : List (Fin n)} {item : Fin n}
    (split : List.finRange n = visited ++ item :: rest) (index : Fin n) :
    index ∈ visited ↔ index < item := by
  have sorted : (visited ++ item :: rest).Pairwise (· < ·) := split ▸ List.pairwise_lt_finRange n
  obtain ⟨_, tailSorted, cross⟩ := List.pairwise_append.mp sorted
  constructor
  · intro member
    exact cross index member item List.mem_cons_self
  · intro below
    have member : index ∈ visited ++ item :: rest := split ▸ List.mem_finRange index
    rcases List.mem_append.mp member with visitedMember | restMember
    · exact visitedMember
    · rcases List.mem_cons.mp restMember with same | later
      · exact absurd below (same ▸ lt_irrefl item)
      · exact absurd below (not_lt_of_gt ((List.pairwise_cons.mp tailSorted).1 index later))

/-- A loop that rewrites one slot per item: the final content of a slot only depends on the
items that belong to it. -/
theorem foldl_update_apply {α κ β : Type*} [DecidableEq κ] (slot : α → κ) (write : β → α → β)
    (items : List α) (initial : κ → β) (key : κ) :
    items.foldl
        (fun state item => Function.update state (slot item) (write (state (slot item)) item))
        initial key =
      (items.filter fun item => slot item = key).foldl write (initial key) := by
  induction items generalizing initial with
  | nil => rfl
  | cons item rest ih =>
      rw [List.foldl_cons, ih]
      by_cases same : slot item = key
      · subst key
        simp
      · simp [same, Function.update_of_ne (Ne.symm same)]

end FreeDV.Lib
