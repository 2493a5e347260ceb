import Mathlib.Data.List.Nodup
import TheCargo.Foundation.Versions

/-! A table that holds every version of a row until a merge drops the older ones, read with the older ones left out. -/

namespace TheCargo.Foundation.Replacing

open Versions

variable {α κ : Type*} [DecidableEq κ] (key : α → κ) (version : α → ℕ)

/-- Of the rows with equal keys the one with the largest version, the last of them if there are more. -/
def final : List α → List α
  | [] => []
  | x :: xs =>
    if (final xs).any (fun y => key y = key x ∧ version x ≤ version y) then final xs
    else x :: (final xs).filter (fun y => key y ≠ key x)

variable {key version} {xs : List α} {x y : α}

lemma final_cons_drop (hy : y ∈ final key version xs) (hkey : key y = key x) (hle : version x ≤ version y) :
    final key version (x :: xs) = final key version xs := by
  rw [final, if_pos]
  exact List.any_eq_true.mpr ⟨y, hy, decide_eq_true ⟨hkey, hle⟩⟩

lemma final_cons_keep (h : ∀ y ∈ final key version xs, key y = key x → version y < version x) :
    final key version (x :: xs) = x :: (final key version xs).filter (fun y => key y ≠ key x) := by
  rw [final, if_neg]
  intro hany
  obtain ⟨y, hy, hboth⟩ := List.any_eq_true.mp hany
  obtain ⟨hkey, hle⟩ := of_decide_eq_true hboth
  exact absurd (h y hy hkey) (Nat.not_lt.mpr hle)

lemma final_cases (key : α → κ) (version : α → ℕ) (x : α) (xs : List α) :
    (∃ y ∈ final key version xs, key y = key x ∧ version x ≤ version y) ∨
      ∀ y ∈ final key version xs, key y = key x → version y < version x := by
  by_cases h : ∃ y ∈ final key version xs, key y = key x ∧ version x ≤ version y
  · exact .inl h
  · refine .inr (fun y hy hkey => ?_)
    by_contra hlt
    exact h ⟨y, hy, hkey, Nat.not_lt.mp hlt⟩

lemma final_subset : final key version xs ⊆ xs := by
  induction xs with
  | nil => exact List.Subset.refl _
  | cons x xs ih =>
    rcases final_cases key version x xs with ⟨y, hy, hkey, hle⟩ | hlt
    · rw [final_cons_drop hy hkey hle]
      exact List.subset_cons_of_subset x ih
    · rw [final_cons_keep hlt]
      intro z hz
      rcases List.mem_cons.mp hz with rfl | hz
      · exact List.mem_cons_self
      · exact List.mem_cons_of_mem _ (ih (List.mem_of_mem_filter hz))

lemma final_keys_nodup : ((final key version xs).map key).Nodup := by
  induction xs with
  | nil => exact List.nodup_nil
  | cons x xs ih =>
    rcases final_cases key version x xs with ⟨y, hy, hkey, hle⟩ | hlt
    · rw [final_cons_drop hy hkey hle]
      exact ih
    · rw [final_cons_keep hlt, List.map_cons, List.nodup_cons]
      refine ⟨?_, ih.sublist (List.filter_sublist.map key)⟩
      intro hmem
      obtain ⟨z, hz, hkey⟩ := List.mem_map.mp hmem
      exact of_decide_eq_true (List.mem_filter.mp hz).2 hkey

variable (key version) in
lemma exists_final (hx : x ∈ xs) : ∃ y ∈ final key version xs, key y = key x ∧ version x ≤ version y := by
  induction xs with
  | nil => cases hx
  | cons z xs ih =>
    rcases final_cases key version z xs with ⟨y, hy, hkey, hle⟩ | hlt
    · rw [final_cons_drop hy hkey hle]
      rcases List.mem_cons.mp hx with rfl | hx
      · exact ⟨y, hy, hkey, hle⟩
      · exact ih hx
    · rw [final_cons_keep hlt]
      rcases List.mem_cons.mp hx with rfl | hx
      · exact ⟨x, List.mem_cons_self, rfl, Nat.le_refl _⟩
      · obtain ⟨y, hy, hkey, hle⟩ := ih hx
        by_cases hz : key y = key z
        · exact ⟨z, List.mem_cons_self, hz.symm.trans hkey, hle.trans (hlt y hy hz).le⟩
        · exact ⟨y, List.mem_cons_of_mem z (List.mem_filter.mpr ⟨hy, decide_eq_true hz⟩), hkey, hle⟩

lemma final_unique (hx : x ∈ final key version xs) (hy : y ∈ final key version xs) (hkey : key x = key y) : x = y :=
  List.inj_on_of_nodup_map final_keys_nodup hx hy hkey

lemma mem_final (hone : ∀ z, Highest version (fun y => key y = key x) xs x →
    Highest version (fun y => key y = key x) xs z → x = z) :
    x ∈ final key version xs ↔ Highest version (fun y => key y = key x) xs x := by
  constructor
  · intro hx
    refine ⟨final_subset hx, rfl, ?_⟩
    intro y hy hkey
    obtain ⟨z, hz, hkeyz, hle⟩ := exists_final key version hy
    obtain rfl := final_unique hx hz (hkeyz.trans hkey).symm
    exact hle
  · intro hx
    obtain ⟨z, hz, hkey, hle⟩ := exists_final key version hx.mem
    obtain rfl := hone z hx ⟨final_subset hz, hkey, fun y hy hy' => (hx.le y hy hy').trans hle⟩
    exact hz

end TheCargo.Foundation.Replacing
