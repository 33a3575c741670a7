import Mathlib.Data.List.Sort

/-!
# Heaps in a range

The heap operations of the C++ standard library, as far as the standard
determines them: what they leave in the range is a permutation of what was
there, and a heap if the precondition was met. The arrangement is left to the
implementation.
-/

set_option autoImplicit false

namespace FreeDV.Lib.Heap

variable {α : Type*} {comp comp' : α → α → Bool} {range : List α}

/-- No element compares below one of its children. -/
def IsHeap (comp : α → α → Bool) (range : List α) : Prop :=
  ∀ i parent child, 0 < i → range[(i - 1) / 2]? = some parent → range[i]? = some child →
    comp parent child = false

/-- What the operations require of a comparator. -/
structure StrictWeakOrder (comp : α → α → Bool) : Prop where
  asymm : ∀ a b, comp a b = true → comp b a = false
  negTrans : ∀ a b c, comp a b = false → comp b c = false → comp a c = false

theorem StrictWeakOrder.irrefl (order : StrictWeakOrder comp) (a : α) : comp a a = false := by
  by_contra reflexive
  rw [Bool.not_eq_false] at reflexive
  exact Bool.false_ne_true ((order.asymm a a reflexive).symm.trans reflexive)

theorem IsHeap.nil : IsHeap comp [] := by
  intro i parent child _ found
  cases found

/-- The front of a heap compares below no element. -/
theorem IsHeap.front {front : α} {rest : List α} (heap : IsHeap comp (front :: rest))
    (order : StrictWeakOrder comp) {item : α} (member : item ∈ front :: rest) :
    comp front item = false := by
  obtain ⟨i, found⟩ := List.getElem?_of_mem member
  induction i using Nat.strong_induction_on generalizing item with
  | _ i ih =>
      by_cases root : i = 0
      · subst root
        cases found
        exact order.irrefl front
      · have above : (i - 1) / 2 < i := by omega
        have inside : i < (front :: rest).length := (List.getElem?_eq_some_iff.mp found).1
        have parent := List.getElem?_eq_getElem (Nat.lt_trans above inside)
        have upper := ih _ above (List.getElem_mem _) parent
        exact order.negTrans _ _ _ upper (heap i _ _ (Nat.pos_of_ne_zero root) parent found)

theorem IsHeap.congr (heap : IsHeap comp range)
    (same : ∀ a ∈ range, ∀ b ∈ range, comp a b = comp' a b) : IsHeap comp' range := by
  intro i parent child positive above below
  rw [← same parent (List.mem_of_getElem? above) child (List.mem_of_getElem? below)]
  exact heap i parent child positive above below

/-- `make_heap`, `push_heap` and `pop_heap` of an implementation. -/
structure HeapOps (α : Type*) where
  makeHeap : (α → α → Bool) → List α → List α
  pushHeap : (α → α → Bool) → List α → List α
  popHeap : (α → α → Bool) → List α → List α
  makeHeap_perm : ∀ comp range, (makeHeap comp range).Perm range
  makeHeap_isHeap : ∀ comp range, StrictWeakOrder comp → IsHeap comp (makeHeap comp range)
  pushHeap_perm : ∀ comp range, (pushHeap comp range).Perm range
  pushHeap_isHeap : ∀ comp range item, StrictWeakOrder comp → IsHeap comp range →
    IsHeap comp (pushHeap comp (range ++ [item]))
  popHeap_spec : ∀ comp front rest, StrictWeakOrder comp → IsHeap comp (front :: rest) →
    ∃ others, popHeap comp (front :: rest) = others ++ [front] ∧ others.Perm rest ∧
      IsHeap comp others

/-! ## Sorted ranges -/

theorem IsHeap.of_sorted (sorted : range.Pairwise fun a b => comp a b = false) :
    IsHeap comp range := by
  intro i parent child positive above below
  obtain ⟨inside, rfl⟩ := List.getElem?_eq_some_iff.mp below
  obtain ⟨insideAbove, rfl⟩ := List.getElem?_eq_some_iff.mp above
  exact List.pairwise_iff_getElem.mp sorted _ _ insideAbove inside (by omega)

/-- Sorts so that no element compares below a later one. -/
def sort (comp : α → α → Bool) (range : List α) : List α :=
  range.insertionSort fun a b => comp a b = false

theorem sort_perm (comp : α → α → Bool) (range : List α) : (sort comp range).Perm range :=
  List.perm_insertionSort _ range

theorem sort_isHeap (order : StrictWeakOrder comp) (range : List α) :
    IsHeap comp (sort comp range) := by
  have transitive : IsTrans α fun a b => comp a b = false := ⟨order.negTrans⟩
  have total : Std.Total fun a b => comp a b = false := by
    refine ⟨fun a b => ?_⟩
    cases forward : comp a b with
    | false => exact .inl rfl
    | true => exact .inr (order.asymm a b forward)
  exact .of_sorted (List.pairwise_insertionSort _ range)

/-- An implementation that keeps ranges sorted. -/
def HeapOps.sorted : HeapOps α where
  makeHeap := sort
  pushHeap := sort
  popHeap comp range :=
    match range with
    | [] => []
    | front :: rest => sort comp rest ++ [front]
  makeHeap_perm _ range := sort_perm _ range
  makeHeap_isHeap _ range order := sort_isHeap order range
  pushHeap_perm _ range := sort_perm _ range
  pushHeap_isHeap _ _ _ order _ := sort_isHeap order _
  popHeap_spec _ _ rest order _ :=
    ⟨_, rfl, sort_perm _ rest, sort_isHeap order rest⟩

end FreeDV.Lib.Heap
