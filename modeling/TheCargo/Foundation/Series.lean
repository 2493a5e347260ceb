import Mathlib.Algebra.Order.BigOperators.Group.List
import Mathlib.Algebra.Ring.Int.Defs
import Mathlib.Data.List.Count
import TheCargo.Foundation.Leader

namespace TheCargo.Foundation

lemma sum_at_keys {α κ : Type*} [DecidableEq κ] (key : α → κ) (weight : α → ℤ) {keys : List κ} (h : keys.Nodup)
    (xs : List α) :
    (keys.map (fun k => ((xs.filter (fun x => key x = k)).map weight).sum)).sum =
      ((xs.filter (fun x => key x ∈ keys)).map weight).sum := by
  induction xs with
  | nil => simp
  | cons x xs ih =>
    have hsplit (k : κ) : (((x :: xs).filter (fun x => key x = k)).map weight).sum =
        (if key x = k then weight x else 0) + ((xs.filter (fun x => key x = k)).map weight).sum := by
      rw [List.filter_cons]
      by_cases hk : key x = k <;> simp [hk]
    have hpick : (keys.map (fun k => if key x = k then weight x else 0)).sum =
        if key x ∈ keys then weight x else 0 := by
      simp only [@eq_comm κ (key x)]
      rw [List.sum_map_ite_eq, h.count]
      split <;> simp
    simp only [hsplit]
    rw [List.sum_map_add, hpick, ih, List.filter_cons]
    by_cases hx : key x ∈ keys <;> simp [hx]

variable {α κ τ : Type*} [LinearOrder κ] [LinearOrder τ] (key : α → κ) (time : α → τ)

structure LastGreatest (xs : List α) (a : α) : Prop where
  mem : a ∈ xs
  le : ∀ b ∈ xs, key b ≤ key a
  last : ∀ b ∈ xs, key b = key a → time b ≤ time a

structure FirstLeast (xs : List α) (a : α) : Prop where
  mem : a ∈ xs
  le : ∀ b ∈ xs, key a ≤ key b
  first : ∀ b ∈ xs, key b = key a → time a ≤ time b

variable {key time} {xs : List α} {a : α}

variable (key) in
lemma sortedBy_perm (xs : List α) : (sortedBy key xs).Perm xs := List.perm_insertionSort _ xs

lemma mem_tied (h : a ∈ xs) {k : κ} (hk : key a = k) : a ∈ xs.filter (fun b => key b = k) :=
  List.mem_filter.mpr ⟨h, by simpa using hk⟩

lemma sortedBy_last (hxs : xs.Pairwise (fun a b => time a ≤ time b)) (h : (sortedBy key xs).getLast? = some a) :
    LastGreatest key time xs a := by
  obtain ⟨init, hinit⟩ := List.getLast?_eq_some_iff.mp h
  have hsorted := sortedBy_pairwise (f := key) xs
  have hperm := sortedBy_perm key xs
  rw [hinit] at hsorted hperm
  have hle : ∀ b ∈ xs, key b ≤ key a := by
    intro b hb
    rcases List.mem_append.mp (hperm.mem_iff.mpr hb) with hb | hb
    · exact (List.pairwise_append.mp hsorted).2.2 b hb a (List.mem_singleton_self a)
    · rw [List.mem_singleton.mp hb]
  refine ⟨hperm.mem_iff.mp (by simp), hle, ?_⟩
  intro b hb hkey
  -- The sort keeps the order of the tied entries, and `a` is the last of them.
  have htied : (sortedBy key xs).filter (fun b => key b = key a) = _ := sortedBy_filter_key xs (key a)
  rw [hinit, List.filter_append, List.filter_cons_of_pos (by simp), List.filter_nil] at htied
  have hpairwise := hxs.filter (fun b => key b = key a)
  rw [← htied] at hpairwise
  have hmem := mem_tied hb hkey
  rw [← htied] at hmem
  rcases List.mem_append.mp hmem with hmem | hmem
  · exact (List.pairwise_append.mp hpairwise).2.2 b hmem a (List.mem_singleton_self a)
  · rw [List.mem_singleton.mp hmem]

lemma sortedBy_head (hxs : xs.Pairwise (fun a b => time a ≤ time b)) (h : (sortedBy key xs).head? = some a) :
    FirstLeast key time xs a := by
  obtain ⟨rest, hrest⟩ := List.head?_eq_some_iff.mp h
  have hsorted := sortedBy_pairwise (f := key) xs
  have hperm := sortedBy_perm key xs
  rw [hrest] at hsorted hperm
  have hle : ∀ b ∈ xs, key a ≤ key b := by
    intro b hb
    rcases List.mem_cons.mp (hperm.mem_iff.mpr hb) with rfl | hb
    · exact le_rfl
    · exact List.rel_of_pairwise_cons hsorted hb
  refine ⟨hperm.mem_iff.mp List.mem_cons_self, hle, ?_⟩
  intro b hb hkey
  have htied : (sortedBy key xs).filter (fun b => key b = key a) = _ := sortedBy_filter_key xs (key a)
  rw [hrest, List.filter_cons_of_pos (by simp)] at htied
  have hpairwise := hxs.filter (fun b => key b = key a)
  rw [← htied] at hpairwise
  have hmem := mem_tied hb hkey
  rw [← htied] at hmem
  rcases List.mem_cons.mp hmem with rfl | hmem
  · exact le_rfl
  · exact List.rel_of_pairwise_cons hpairwise hmem

lemma exists_ends (key : α → κ) (h : xs ≠ []) :
    ∃ low high, (sortedBy key xs).head? = some low ∧ (sortedBy key xs).getLast? = some high := by
  have hne : sortedBy key xs ≠ [] := by
    intro hnil
    have hperm := sortedBy_perm key xs
    rw [hnil] at hperm
    exact h hperm.nil_eq.symm
  exact ⟨_, _, List.head?_eq_some_head hne, List.getLast?_eq_some_getLast hne⟩

lemma tdiv_between (amounts : List ℤ) (h : amounts ≠ []) {low high : ℤ} (hlow : ∀ x ∈ amounts, low ≤ x)
    (hhigh : ∀ x ∈ amounts, x ≤ high) :
    (low * amounts.length ≤ amounts.sum ∧ amounts.sum ≤ high * amounts.length) ∧
      low ≤ amounts.sum.tdiv amounts.length ∧ amounts.sum.tdiv amounts.length ≤ high := by
  have hpos : (0 : ℤ) < amounts.length := by exact_mod_cast List.length_pos_of_ne_nil h
  have hge : low * amounts.length ≤ amounts.sum := by
    have hsum := List.card_nsmul_le_sum amounts low hlow
    rwa [Int.nsmul_eq_mul, Int.mul_comm] at hsum
  have hle : amounts.sum ≤ high * amounts.length := by
    have hsum := List.sum_le_card_nsmul amounts high hhigh
    rwa [Int.nsmul_eq_mul, Int.mul_comm] at hsum
  refine ⟨⟨hge, hle⟩, ?_⟩
  generalize amounts.sum = total at hge hle
  generalize (amounts.length : ℤ) = n at hpos hge hle
  rcases le_total 0 total with htotal | htotal
  · rw [Int.tdiv_eq_ediv_of_nonneg htotal]
    exact ⟨Int.le_ediv_of_mul_le hpos hge, Int.ediv_le_of_le_mul hpos hle⟩
  · obtain ⟨t, rfl⟩ : ∃ t, total = -t := ⟨-total, (neg_neg total).symm⟩
    rw [Int.neg_tdiv, Int.tdiv_eq_ediv_of_nonneg (by omega)]
    have hup : t / n ≤ -low := Int.ediv_le_of_le_mul hpos (by rw [Int.neg_mul]; omega)
    have hdown : -high ≤ t / n := Int.le_ediv_of_mul_le hpos (by rw [Int.neg_mul]; omega)
    omega

end TheCargo.Foundation
