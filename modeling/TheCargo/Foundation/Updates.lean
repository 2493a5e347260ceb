import Mathlib.Algebra.GroupWithZero.Nat
import Mathlib.Algebra.Order.Group.Multiset
import Mathlib.Data.List.Perm.Basic
import Mathlib.Tactic.Common

namespace TheCargo.Foundation.Updates

variable {α : Type*} {xs : List α} {i : ℕ} {a : α}

lemma sum_eraseIdx (h : xs[i]? = some a) (f : α → ℕ) :
    (xs.map f).sum = f a + ((xs.eraseIdx i).map f).sum := by
  obtain ⟨hi, rfl⟩ := List.getElem?_eq_some_iff.mp h
  rw [← ((List.getElem_cons_eraseIdx_perm hi).map f).sum_nat, List.map_cons, List.sum_cons]

lemma sum_set (h : xs[i]? = some a) (b : α) (f : α → ℕ) :
    ((xs.set i b).map f).sum = f b + ((xs.eraseIdx i).map f).sum := by
  obtain ⟨hi, _⟩ := List.getElem?_eq_some_iff.mp h
  rw [((List.set_perm_cons_eraseIdx hi b).map f).sum_nat, List.map_cons, List.sum_cons]

lemma sum_set_add (h : xs[i]? = some a) (b : α) (f : α → ℕ) :
    ((xs.set i b).map f).sum + f a = (xs.map f).sum + f b := by
  have hset := sum_set h b f
  have herase := sum_eraseIdx h f
  omega

lemma sum_concat (f : α → ℕ) (xs : List α) (x : α) : ((xs ++ [x]).map f).sum = (xs.map f).sum + f x := by
  rw [List.map_append, List.sum_append, List.map_singleton, List.sum_singleton]

lemma flatMap_set_add {β : Type*} (h : xs[i]? = some a) (b : α) (f : α → List β) :
    ((xs.set i b).flatMap f : Multiset β) + f a = xs.flatMap f + f b := by
  obtain ⟨hi, rfl⟩ := List.getElem?_eq_some_iff.mp h
  have hset := (List.set_perm_cons_eraseIdx hi b).flatMap_right f
  have herase := (List.getElem_cons_eraseIdx_perm hi).flatMap_right f
  rw [Multiset.coe_eq_coe.mpr hset, ← Multiset.coe_eq_coe.mpr herase, List.flatMap_cons, List.flatMap_cons,
    ← Multiset.coe_add, ← Multiset.coe_add]
  ac_rfl

lemma countP_set_le {p : α → Bool} {b : α} (h : xs[i]? = some a) (hp : p b = true → p a = true) :
    (xs.set i b).countP p ≤ xs.countP p := by
  obtain ⟨hi, rfl⟩ := List.getElem?_eq_some_iff.mp h
  rw [(List.set_perm_cons_eraseIdx hi b).countP_eq, ← (List.getElem_cons_eraseIdx_perm hi).countP_eq, List.countP_cons,
    List.countP_cons]
  apply Nat.add_le_add_left
  split
  · rename_i hb
    exact Nat.le_of_eq (if_pos (hp hb)).symm
  · exact Nat.zero_le _

lemma update_eq {β : Type*} [DecidableEq α] {f : α → β} {b : α} {x y : β} (h : Function.update f a x b = y) :
    (b = a ∧ x = y) ∨ f b = y := by
  by_cases hb : b = a
  · subst hb
    rw [Function.update_self] at h
    exact Or.inl ⟨rfl, h⟩
  · rw [Function.update_of_ne hb] at h
    exact Or.inr h

end TheCargo.Foundation.Updates
