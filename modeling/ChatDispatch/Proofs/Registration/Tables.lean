import ChatDispatch.Table

/-!
Tables whose keys are distinct. Insertion keeps the keys distinct, and then a table is known by what
is found in it: two tables in which the same is found have the same keys, in whatever order these
have come in, and the same list of names once the names are sorted.
-/

namespace ChatDispatch

namespace Table

variable {κ υ : Type} [DecidableEq κ]

theorem mem_map_fst_iff {key : κ} {entries : List (κ × υ)} :
    key ∈ entries.map Prod.fst ↔ find key entries ≠ none := by
  induction entries with
  | nil => simp [find]
  | cons entry rest ih =>
    obtain ⟨other, value⟩ := entry
    by_cases hkey : other = key
    · simp [find, hkey]
    · simp [find, hkey, Ne.symm hkey, ← ih]

theorem mem_keys_iff {table : Table κ υ} {key : κ} : key ∈ table.keys ↔ table.get? key ≠ none :=
  mem_map_fst_iff

theorem mem_map_fst_put {key other : κ} {value : υ} {entries : List (κ × υ)} :
    other ∈ (put key value entries).map Prod.fst ↔ other = key ∨ other ∈ entries.map Prod.fst := by
  rw [mem_map_fst_iff, mem_map_fst_iff, find_put]
  by_cases hkey : key = other
  · simp [hkey]
  · simp [hkey, Ne.symm hkey]

theorem nodup_put {key : κ} {value : υ} {entries : List (κ × υ)}
    (h : (entries.map Prod.fst).Nodup) : ((put key value entries).map Prod.fst).Nodup := by
  induction entries with
  | nil => simp [put]
  | cons entry rest ih =>
    obtain ⟨other, old⟩ := entry
    obtain ⟨hother, hrest⟩ := List.nodup_cons.mp h
    by_cases hkey : other = key
    · subst hkey
      rw [put, if_pos rfl]
      exact h
    · rw [put, if_neg hkey]
      apply List.nodup_cons.mpr
      constructor
      · intro hmem
        rcases mem_map_fst_put.mp hmem with heq | hmem
        · exact hkey heq
        · exact hother hmem
      · exact ih hrest

theorem nodup_keys_insert {table : Table κ υ} (h : table.keys.Nodup) (key : κ) (value : υ) :
    (table.insert key value).keys.Nodup :=
  nodup_put h

/-- Tables in which the same is found have the same keys. -/
theorem keys_perm {first second : Table κ υ} (hfirst : first.keys.Nodup)
    (hsecond : second.keys.Nodup) (h : ∀ key, first.get? key = second.get? key) :
    first.keys.Perm second.keys := by
  apply (List.perm_ext_iff_of_nodup hfirst hsecond).mpr
  intro key
  rw [mem_keys_iff, mem_keys_iff, h key]

end Table

def inOrder (names : List String) : List String :=
  names.mergeSort fun a b => !decide (b < a)

theorem inOrder_perm (names : List String) : (inOrder names).Perm names :=
  List.mergeSort_perm names _

theorem pairwise_inOrder (names : List String) : (inOrder names).Pairwise (· ≤ ·) := by
  have hle : ∀ a b : String, (!decide (b < a)) = true ↔ a ≤ b := by
    intro a b
    rw [Bool.not_eq_true', decide_eq_false_iff_not, String.not_lt]
  have hsorted : (inOrder names).Pairwise fun a b => (!decide (b < a)) = true := by
    apply List.pairwise_mergeSort
    · intro a b c hab hbc
      exact (hle a c).mpr (String.le_trans ((hle a b).mp hab) ((hle b c).mp hbc))
    · intro a b
      rcases String.le_total a b with hab | hba
      · rw [(hle a b).mpr hab, Bool.true_or]
      · rw [(hle b a).mpr hba, Bool.or_true]
  apply hsorted.imp
  intro a b hab
  exact (hle a b).mp hab

/-- The order in which names come in does not matter once they are sorted. -/
theorem inOrder_congr {first second : List String} (h : first.Perm second) :
    inOrder first = inOrder second := by
  have hperm : (inOrder first).Perm (inOrder second) :=
    (inOrder_perm first).trans (h.trans (inOrder_perm second).symm)
  exact hperm.eq_of_pairwise (fun _ _ _ _ => String.le_antisymm) (pairwise_inOrder first)
    (pairwise_inOrder second)

/-- Distinct names are strictly increasing once they are sorted. -/
theorem pairwise_lt_inOrder {names : List String} (h : names.Nodup) :
    (inOrder names).Pairwise (· < ·) := by
  have hnodup : (inOrder names).Nodup := (inOrder_perm names).nodup_iff.mpr h
  apply ((pairwise_inOrder names).and hnodup).imp
  intro a b hab
  apply Classical.byContradiction
  intro hlt
  exact hab.2 (String.le_antisymm hab.1 (String.not_lt.mp hlt))

end ChatDispatch
