import Mathlib.Data.List.Basic

/-!
# Calls of bounded depth

A program that calls itself through a table of functions is a family of partial
functions, one for each depth of calls it may use. It ends with a result if all
large depths give that result. Effects are the list of what was done, in order.
-/

set_option autoImplicit false

namespace FreeDV.Lib

variable {α β : Type*}

def Ends (run : Nat → Option β) (result : β) : Prop :=
  ∃ depth, ∀ deeper, depth ≤ deeper → run deeper = some result

/-- Everything is done for each item in turn. -/
def inOrder (items : List α) (effects : α → Option (List β)) : Option (List β) :=
  match items with
  | [] => some []
  | item :: rest =>
      match effects item with
      | none => none
      | some first => (inOrder rest effects).map (first ++ ·)

variable {run : Nat → Option β} {result : β}

theorem ends_of_eq (ended : ∀ depth, run depth = some result) : Ends run result :=
  ⟨0, fun depth _ => ended depth⟩

theorem Ends.map {γ : Type*} (f : β → γ) (ended : Ends run result) :
    Ends (fun depth => (run depth).map f) (f result) := by
  obtain ⟨depth, stable⟩ := ended
  refine ⟨depth, fun deeper bound => ?_⟩
  exact congrArg (Option.map f) (stable deeper bound)

/-- What needs one more level of calls. -/
theorem Ends.deeper {outer : Nat → Option β} (ended : Ends run result)
    (call : ∀ depth, outer (depth + 1) = run depth) : Ends outer result := by
  obtain ⟨depth, stable⟩ := ended
  refine ⟨depth + 1, fun deeper bound => ?_⟩
  obtain ⟨smaller, rfl⟩ : ∃ smaller, deeper = smaller + 1 := ⟨deeper - 1, by omega⟩
  rw [call]
  exact stable smaller (by omega)

theorem Ends.inOrder {items : List α} {effects : Nat → α → Option (List β)}
    {results : α → List β}
    (ended : ∀ item ∈ items, Ends (fun depth => effects depth item) (results item)) :
    Ends (fun depth => inOrder items (effects depth)) (items.flatMap results) := by
  induction items with
  | nil => exact ends_of_eq fun _ => rfl
  | cons item rest ih =>
      obtain ⟨first, others⟩ := List.forall_mem_cons.mp ended
      obtain ⟨depth, stable⟩ := first
      obtain ⟨depths, stables⟩ := ih others
      refine ⟨max depth depths, fun deeper bound => ?_⟩
      have now : effects deeper item = some (results item) :=
        stable deeper (Nat.le_trans (Nat.le_max_left depth depths) bound)
      have later : Lib.inOrder rest (effects deeper) = some (rest.flatMap results) :=
        stables deeper (Nat.le_trans (Nat.le_max_right depth depths) bound)
      simp only [Lib.inOrder, now, later, Option.map_some, List.flatMap_cons]

end FreeDV.Lib
