import Mathlib.Data.List.Basic
import Mathlib.Order.Basic
import Mathlib.Tactic.Common

/-! Pages of a sorted list, each asked for by the last key of the one before. -/

namespace TheCargo.Foundation.Paging

variable {α κ : Type*} [Preorder κ] [DecidableLT κ] (key : α → κ)

def after (k : κ) (xs : List α) : List α := xs.filter (fun x => k < key x)

def page (k : κ) (limit : ℕ) (xs : List α) : List α := (after key k xs).take limit

variable {key} {k : κ} {limit : ℕ} {xs : List α} {x last : α}

lemma mem_after : x ∈ after key k xs ↔ x ∈ xs ∧ k < key x := by
  rw [after, List.mem_filter, decide_eq_true_eq]

lemma mem_page (h : x ∈ page key k limit xs) : x ∈ xs ∧ k < key x :=
  mem_after.mp (List.mem_of_mem_take h)

lemma page_short (h : (page key k limit xs).length < limit) : page key k limit xs = after key k xs := by
  rw [page, List.length_take] at h
  exact List.take_of_length_le (by omega)

lemma after_page (hs : xs.Pairwise (fun x y => key x < key y)) (hl : (page key k limit xs).getLast? = some last)
    (hx : x ∈ after key k xs) : x ∈ page key k limit xs ∨ x ∈ after key (key last) xs := by
  have hsorted : (after key k xs).Pairwise (fun x y => key x < key y) := hs.filter _
  rw [← List.take_append_drop limit (after key k xs)] at hx hsorted
  rcases List.mem_append.mp hx with hx | hx
  · exact Or.inl hx
  · have hlt := (List.pairwise_append.mp hsorted).2.2 last (List.mem_of_getLast? hl) x hx
    have hmem : x ∈ after key k xs := List.mem_of_mem_drop hx
    exact Or.inr (mem_after.mpr ⟨(mem_after.mp hmem).1, hlt⟩)

lemma after_last_shorter (hl : (page key k limit xs).getLast? = some last) :
    (after key (key last) xs).length < (after key k xs).length := by
  obtain ⟨hmem, hlt⟩ := mem_page (List.mem_of_getLast? hl)
  have heq : after key (key last) xs = after key (key last) (after key k xs) := by
    rw [after, after, after, List.filter_filter]
    apply List.filter_congr
    intro x _
    by_cases hx : key last < key x
    · simp [hx, hlt.trans hx]
    · simp [hx]
  rw [heq]
  apply List.length_filter_lt_length_iff_exists.mpr
  exact ⟨last, mem_after.mpr ⟨hmem, hlt⟩, by simp⟩

end TheCargo.Foundation.Paging
