import Mathlib.Data.List.Basic
import Mathlib.Logic.Function.Basic

/-!
# Positions on a ring

A stream position `i` lives in slot `i % n`. Positions less than `n` apart never
share a slot, so writing outside a window of positions leaves the window alone.
-/

set_option autoImplicit false

namespace FreeDV.Lib.Ring

theorem slot_ne {n low high : Nat} (order : low < high) (near : high < low + n) :
    low % n ≠ high % n := by
  intro same
  have multiple : n ∣ high - low :=
    Nat.dvd_of_mod_eq_zero (Nat.sub_mod_eq_zero_of_mod_eq same.symm)
  have bound := Nat.le_of_dvd (by omega) multiple
  omega

theorem slot_add {n position count : Nat} (positive : 0 < n) (small : count < n) :
    (position + count) % n =
      if position % n + count < n then position % n + count else position % n + count - n := by
  have below := Nat.mod_lt position positive
  rw [Nat.add_mod, Nat.mod_eq_of_lt small]
  split
  · rename_i fits
    exact Nat.mod_eq_of_lt fits
  · rename_i wraps
    rw [Nat.mod_eq_sub_mod (by omega), Nat.mod_eq_of_lt (by omega)]

/-- The slots of positions `low, …` hold `items`. -/
def Stores {α : Type*} (n : Nat) (memory : Nat → α) (low : Nat) (items : List α) : Prop :=
  ∀ k item, items[k]? = some item → memory ((low + k) % n) = item

variable {α : Type*} {n low : Nat} {memory : Nat → α} {items : List α}

theorem Stores.nil : Stores n memory low [] := by
  intro k item found
  simp at found

/-- Writing a position that lies outside the window, but less than `n` away, keeps it. -/
theorem Stores.update_outside (stored : Stores n memory low items) {position : Nat} (value : α)
    (behind : low + items.length ≤ position) (near : position < low + n) :
    Stores n (Function.update memory (position % n) value) low items := by
  intro k item found
  have inside : k < items.length := by
    by_contra outside
    simp [List.getElem?_eq_none (Nat.le_of_not_lt outside)] at found
  have apart : (low + k) % n ≠ position % n := slot_ne (by omega) (by omega)
  rw [Function.update_of_ne apart]
  exact stored k item found

theorem Stores.update_behind (stored : Stores n memory low items) (value : α)
    (near : items.length < n) :
    Stores n (Function.update memory ((low + items.length) % n) value) low (items ++ [value]) := by
  intro k item found
  by_cases inside : k < items.length
  · rw [List.getElem?_append_left inside] at found
    exact stored.update_outside value (Nat.le_refl _) (by omega) k item found
  · have last : k = items.length := by
      have bound := (List.getElem?_eq_some_iff.mp found).1
      rw [List.length_append, List.length_singleton] at bound
      omega
    subst last
    rw [List.getElem?_append_right (Nat.le_refl _)] at found
    simpa using found

theorem Stores.append {behind : List α} (front : Stores n memory low items)
    (back : Stores n memory (low + items.length) behind) :
    Stores n memory low (items ++ behind) := by
  intro k item found
  by_cases inside : k < items.length
  · rw [List.getElem?_append_left inside] at found
    exact front k item found
  · rw [List.getElem?_append_right (by omega)] at found
    have position : low + items.length + (k - items.length) = low + k := by omega
    rw [← position]
    exact back (k - items.length) item found

theorem Stores.drop (stored : Stores n memory low items) (count : Nat) :
    Stores n memory (low + count) (items.drop count) := by
  intro k item found
  rw [List.getElem?_drop] at found
  rw [Nat.add_assoc]
  exact stored (count + k) item found

/-! ## Transfers -/

/-- Writes items to successive positions. -/
def writeFrom (n : Nat) (memory : Nat → α) (position : Nat) : List α → Nat → α
  | [] => memory
  | item :: rest => writeFrom n (Function.update memory (position % n) item) (position + 1) rest

/-- Reads from successive positions. -/
def readFrom (n : Nat) (memory : Nat → α) (position count : Nat) : List α :=
  (List.range count).map fun k => memory ((position + k) % n)

theorem writeFrom_append (position : Nat) (first second : List α) :
    writeFrom n memory position (first ++ second) =
      writeFrom n (writeFrom n memory position first) (position + first.length) second := by
  induction first generalizing memory position with
  | nil => rfl
  | cons item rest ih =>
      rw [List.cons_append, writeFrom, writeFrom, ih, List.length_cons]
      congr 1
      omega

theorem readFrom_add (position first second : Nat) :
    readFrom n memory position (first + second) =
      readFrom n memory position first ++ readFrom n memory (position + first) second := by
  simp only [readFrom, List.range_add, List.map_append, List.map_map]
  congr 1
  apply List.map_congr_left
  intro k _
  rw [Function.comp_apply, Nat.add_assoc]

theorem Stores.writeFrom_behind (stored : Stores n memory low items) (data : List α)
    (near : items.length + data.length ≤ n) :
    Stores n (writeFrom n memory (low + items.length) data) low (items ++ data) := by
  induction data generalizing memory items with
  | nil => simpa only [writeFrom, List.append_nil] using stored
  | cons item rest ih =>
      rw [List.length_cons] at near
      have extended := stored.update_behind item (by omega)
      have further := ih extended (by rw [List.length_append, List.length_singleton]; omega)
      rw [List.append_assoc, List.length_append, List.length_singleton, ← Nat.add_assoc] at further
      exact further

theorem Stores.readFrom_eq (stored : Stores n memory low items) {count : Nat}
    (inside : count ≤ items.length) : readFrom n memory low count = items.take count := by
  apply List.ext_getElem?
  intro k
  rw [readFrom, List.getElem?_map, List.getElem?_take]
  by_cases below : k < count
  · have found := List.getElem?_eq_getElem (Nat.lt_of_lt_of_le below inside)
    rw [if_pos below, found, List.getElem?_range below, Option.map_some, stored k _ found]
  · rw [if_neg below, List.getElem?_eq_none (by rw [List.length_range]; omega)]
    rfl

end FreeDV.Lib.Ring
