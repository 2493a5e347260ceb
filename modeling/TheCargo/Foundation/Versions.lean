import Mathlib.Data.List.MinMax
import Mathlib.Data.List.Perm.Basic
import Mathlib.Tactic.Common

/-! The entries of a group with the highest version, in a list that is appended to and thinned out. -/

namespace TheCargo.Foundation.Versions

variable {α : Type*} (version : α → ℕ) (p : α → Prop)

structure Highest (xs : List α) (x : α) : Prop where
  mem : x ∈ xs
  holds : p x
  le : ∀ y ∈ xs, p y → version y ≤ version x

variable {version p} {xs : List α} {x y z : α}

lemma exists_highest [DecidablePred p] (hx : x ∈ xs) (hp : p x) : ∃ z, Highest version p xs z := by
  have hne : (xs.filter p).argmax version ≠ none := by
    rw [Ne, List.argmax_eq_none, List.filter_eq_nil_iff]
    intro hall
    exact hall x hx (decide_eq_true hp)
  obtain ⟨z, hz⟩ := Option.ne_none_iff_exists'.mp hne
  obtain ⟨hmem, hpz⟩ := List.mem_filter.mp (List.argmax_mem hz)
  refine ⟨z, hmem, of_decide_eq_true hpz, ?_⟩
  intro y hy hpy
  exact List.le_of_mem_argmax (List.mem_filter.mpr ⟨hy, decide_eq_true hpy⟩) hz

lemma highest_concat (hp : p y) (hlt : ∀ x ∈ xs, p x → version x < version y) :
    Highest version p (xs ++ [y]) z ↔ z = y := by
  constructor
  · intro hz
    rcases List.mem_append.mp hz.mem with hmem | hmem
    · have hle := hz.le y (by simp) hp
      exact absurd (hlt z hmem hz.holds) (not_lt_of_ge hle)
    · exact List.mem_singleton.mp hmem
  · rintro rfl
    refine ⟨by simp, hp, ?_⟩
    intro x hx hpx
    rcases List.mem_append.mp hx with hx | hx
    · exact (hlt x hx hpx).le
    · exact (congrArg version (List.mem_singleton.mp hx)).le

lemma mem_eraseIdx_or {j : ℕ} {a : α} (hj : xs[j]? = some a) (hy : y ∈ xs) : y = a ∨ y ∈ xs.eraseIdx j := by
  obtain ⟨hlt, rfl⟩ := List.getElem?_eq_some_iff.mp hj
  exact List.mem_cons.mp ((List.getElem_cons_eraseIdx_perm hlt).mem_iff.mpr hy)

lemma Highest.of_eraseIdx {j k : ℕ} {a b : α} (hj : xs[j]? = some a) (hk : xs[k]? = some b) (hne : j ≠ k)
    (hp : p a → p b) (hle : version a ≤ version b) (hz : Highest version p (xs.eraseIdx j) z) :
    Highest version p xs z := by
  refine ⟨List.mem_of_mem_eraseIdx hz.mem, hz.holds, ?_⟩
  intro y hy hpy
  have hb : b ∈ xs.eraseIdx j := List.mem_eraseIdx_iff_getElem?.mpr ⟨k, hne.symm, hk⟩
  rcases mem_eraseIdx_or hj hy with rfl | hy
  · exact hle.trans (hz.le b hb (hp hpy))
  · exact hz.le y hy hpy

end TheCargo.Foundation.Versions
