import FreeDV.Lib.SumProduct
import FreeDV.Pipeline.LdpcExact
import Mathlib.Data.List.GetD

/-!
# The Tanner graph of HRA_56_56

The edge lists of `LDPCGraph` as a graph of checks and bits. Every check has four
or five bits, and no two bits meet in two checks, except for bits 33 and 110.
-/

set_option autoImplicit false

namespace FreeDV.Pipeline

open Lib

/-- The ones of `HRA_56_56`. -/
def tannerGraph : TannerGraph (Fin 56) (Fin 112) where
  members i := Finset.univ.filter fun j => hra5656 i j ≠ 0
  checks j := Finset.univ.filter fun i => hra5656 i j ≠ 0
  mem_checks := by simp

theorem mem_members_iff {i : Fin 56} {j : Fin 112} :
    j ∈ tannerGraph.members i ↔ j.val ∈ hraColumns.getD i.val [] := by
  simp [tannerGraph, hra5656]

theorem hraColumns_shape :
    ∀ row ∈ hraColumns, row.Nodup ∧ (∀ j ∈ row, j < 112) ∧ 4 ≤ row.length ∧ row.length ≤ 5 := by
  decide +kernel

theorem card_members (i : Fin 56) :
    4 ≤ (tannerGraph.members i).card ∧ (tannerGraph.members i).card ≤ 5 := by
  have present : hraColumns.getD i.val [] ∈ hraColumns := by
    rw [List.getD_eq_getElem _ _ i.isLt]
    exact List.getElem_mem i.isLt
  obtain ⟨unique, bounded, shape⟩ := hraColumns_shape _ present
  have columns : (tannerGraph.members i).image Fin.val = (hraColumns.getD i.val []).toFinset := by
    ext j
    rw [Finset.mem_image, List.mem_toFinset]
    constructor
    · rintro ⟨k, one, rfl⟩
      exact mem_members_iff.mp one
    · intro member
      exact ⟨⟨j, bounded j member⟩, mem_members_iff.mpr member, rfl⟩
  rw [← Finset.card_image_of_injective _ Fin.val_injective, columns,
    List.toFinset_card_of_nodup unique]
  exact shape

theorem card_others {i : Fin 56} {j : Fin 112} (member : j ∈ tannerGraph.members i) :
    2 ≤ (tannerGraph.others i j).card ∧ (tannerGraph.others i j).card ≤ 4 := by
  have row := card_members i
  rw [TannerGraph.others, Finset.card_erase_of_mem member]
  omega

theorem mem_graphEdges {e : Edge} : e ∈ graphEdges ↔ e.var ∈ tannerGraph.members e.check := by
  rw [graphEdges, List.mem_flatMap]
  constructor
  · rintro ⟨i, -, present⟩
    obtain ⟨j, member, rfl⟩ := List.mem_map.mp present
    simpa [tannerGraph] using (List.mem_filter.mp member).2
  · intro member
    refine ⟨e.check, List.mem_finRange _, List.mem_map.mpr ⟨e.var, ?_, rfl⟩⟩
    simpa [tannerGraph] using member

theorem nodup_graphEdges : graphEdges.Nodup := by
  rw [graphEdges, List.nodup_flatMap]
  constructor
  · intro i _
    exact ((List.nodup_finRange 112).filter _).map fun j k same => congrArg Edge.var same
  · apply (List.nodup_finRange 56).imp
    intro i k different e left right
    obtain ⟨j, -, rfl⟩ := List.mem_map.mp left
    obtain ⟨l, -, same⟩ := List.mem_map.mp right
    exact different (congrArg Edge.check same).symm

theorem toFinset_checkEdges (i : Fin 56) :
    (checkEdges i).toFinset = (tannerGraph.members i).image (Edge.mk i) := by
  ext ⟨check, j⟩
  simp only [checkEdges, List.mem_toFinset, List.mem_filter, mem_graphEdges, decide_eq_true_eq,
    Finset.mem_image]
  constructor
  · rintro ⟨member, rfl⟩
    exact ⟨j, member, rfl⟩
  · rintro ⟨k, member, same⟩
    cases same
    exact ⟨member, rfl⟩

theorem toFinset_varEdges (j : Fin 112) :
    (varEdges j).toFinset = (tannerGraph.checks j).image fun i => ⟨i, j⟩ := by
  ext ⟨i, var⟩
  simp only [varEdges, List.mem_toFinset, List.mem_filter, mem_graphEdges, decide_eq_true_eq,
    Finset.mem_image, ← tannerGraph.mem_checks]
  constructor
  · rintro ⟨member, rfl⟩
    exact ⟨i, member, rfl⟩
  · rintro ⟨k, member, same⟩
    cases same
    exact ⟨member, rfl⟩

theorem nodup_checkEdges (i : Fin 56) : (checkEdges i).Nodup := nodup_graphEdges.filter _

theorem nodup_varEdges (j : Fin 112) : (varEdges j).Nodup := nodup_graphEdges.filter _

theorem sum_checkEdges {M : Type} [AddCommMonoid M] (value : Edge → M) (i : Fin 56) :
    ((checkEdges i).map value).sum = ∑ j ∈ tannerGraph.members i, value ⟨i, j⟩ := by
  rw [← List.sum_toFinset value (nodup_checkEdges i), toFinset_checkEdges,
    Finset.sum_image fun j _ k _ same => congrArg Edge.var same]

theorem prod_checkEdges {M : Type} [CommMonoid M] (value : Edge → M) (i : Fin 56) :
    ((checkEdges i).map value).prod = ∏ j ∈ tannerGraph.members i, value ⟨i, j⟩ := by
  rw [← List.prod_toFinset value (nodup_checkEdges i), toFinset_checkEdges,
    Finset.prod_image fun j _ k _ same => congrArg Edge.var same]

theorem sum_varEdges {M : Type} [AddCommMonoid M] (value : Edge → M) (j : Fin 112) :
    ((varEdges j).map value).sum = ∑ i ∈ tannerGraph.checks j, value ⟨i, j⟩ := by
  rw [← List.sum_toFinset value (nodup_varEdges j), toFinset_varEdges,
    Finset.sum_image fun i _ k _ same => congrArg Edge.check same]

theorem card_checks_infoColumn (j : Fin 56) :
    (tannerGraph.checks (infoColumn j)).card = 3 := by
  revert j
  decide +kernel

theorem mem_checks_parityColumn {i j : Fin 56} :
    i ∈ tannerGraph.checks (parityColumn j) ↔ j = i ∨ j.val + 1 = i.val := by
  simp [tannerGraph, hra5656_parityColumn, or_iff_not_imp_left]

/-- Every bit is in two checks, except for the last one. -/
theorem two_le_card_checks {v : Fin 112} (last : v ≠ 111) :
    2 ≤ (tannerGraph.checks v).card := by
  rcases infoColumn_or_parityColumn v with ⟨j, rfl⟩ | ⟨j, rfl⟩
  · rw [card_checks_infoColumn]
    decide
  · have below : j.val + 1 < 56 := by
      have value : (parityColumn j).val = 56 + j.val := rfl
      omega
    exact Finset.one_lt_card.mpr ⟨j, mem_checks_parityColumn.mpr (.inl rfl), ⟨j.val + 1, below⟩,
      mem_checks_parityColumn.mpr (.inr rfl), by simp [Fin.ext_iff]⟩

/-! ## Bits that meet -/

/-- The columns two rows have in common. -/
def commonColumns (first second : List Nat) : List Nat := first.filter second.contains

theorem commonColumns_short :
    ((List.range 56).all fun k => (List.range k).all fun i =>
      (commonColumns (hraColumns.getD i []) (hraColumns.getD k [])).length.ble 1 ||
        k.beq 55 && i.beq 54) = true := by
  decide +kernel

theorem mem_commonColumns {i k : Fin 56} {j : Fin 112} (first : i ∈ tannerGraph.checks j)
    (second : k ∈ tannerGraph.checks j) :
    j.val ∈ commonColumns (hraColumns.getD i.val []) (hraColumns.getD k.val []) :=
  List.mem_filter.mpr
    ⟨mem_members_iff.mp (tannerGraph.mem_checks.mp first),
      List.contains_iff_mem.mpr (mem_members_iff.mp (tannerGraph.mem_checks.mp second))⟩

/-- Two bits meet in at most one check, except for bits 33 and 110. -/
theorem card_common_checks {u v : Fin 112} (different : u ≠ v) :
    (tannerGraph.checks u ∩ tannerGraph.checks v).card ≤ 1 ∨
      u = 33 ∧ v = 110 ∨ u = 110 ∧ v = 33 := by
  by_cases few : (tannerGraph.checks u ∩ tannerGraph.checks v).card ≤ 1
  · exact .inl few
  · obtain ⟨i, both, k, both', unequal⟩ := Finset.one_lt_card.mp (Nat.lt_of_not_le few)
    wlog less : i < k generalizing i k
    · exact this k both' i both unequal.symm (lt_of_le_of_ne (not_lt.mp less) unequal.symm)
    obtain ⟨first, first'⟩ := Finset.mem_inter.mp both
    obtain ⟨second, second'⟩ := Finset.mem_inter.mp both'
    have uMeets := mem_commonColumns first second
    have vMeets := mem_commonColumns first' second'
    have table := List.all_eq_true.mp (List.all_eq_true.mp commonColumns_short k
      (List.mem_range.mpr k.isLt)) i (List.mem_range.mpr less)
    rcases Bool.or_eq_true _ _ |>.mp table with short | last
    · obtain ⟨only, single⟩ : ∃ only, commonColumns (hraColumns.getD i.val [])
          (hraColumns.getD k.val []) = [only] :=
        List.length_eq_one_iff.mp
          (le_antisymm (Nat.le_of_ble_eq_true short) (List.length_pos_of_mem uMeets))
      rw [single, List.mem_singleton] at uMeets vMeets
      exact absurd (Fin.ext (uMeets.trans vMeets.symm)) different
    · obtain ⟨kLast, iLast⟩ := Bool.and_eq_true _ _ |>.mp last
      rw [Nat.eq_of_beq_eq_true kLast, Nat.eq_of_beq_eq_true iLast] at uMeets vMeets
      have pair : commonColumns (hraColumns.getD 54 []) (hraColumns.getD 55 []) = [33, 110] := by
        decide
      rw [pair, List.mem_pair] at uMeets vMeets
      right
      omega

/-- A single bit can be outvoted, unless it is one of the two that meet twice, or the last. -/
theorem outvoted_singleton {v : Fin 112} (last : v ≠ 111) (first : v ≠ 33) (second : v ≠ 110) :
    tannerGraph.Outvoted {v} where
  alone := by
    intro u member w member' different
    rw [Finset.mem_singleton.mp member, Finset.mem_singleton.mp member'] at different
    exact absurd rfl different
  apart := by
    intro u other
    rw [Finset.singleton_biUnion]
    rcases card_common_checks fun same => other (Finset.mem_singleton.mpr same) with
      few | ⟨-, same⟩ | ⟨-, same⟩
    · exact few
    · exact absurd same second
    · exact absurd same first
  twoChecks := by
    intro u member
    rw [Finset.mem_singleton.mp member]
    exact two_le_card_checks last

end FreeDV.Pipeline
