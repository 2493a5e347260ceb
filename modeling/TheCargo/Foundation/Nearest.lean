import Mathlib.Data.List.Induction
import Mathlib.Order.Lattice
import Mathlib.Tactic.Common

namespace TheCargo.Foundation

variable {α κ : Type*} [LinearOrder κ] (f : α → κ) (bound : κ)

def nearer (best : Option (κ × α)) (x : α) : Option (κ × α) :=
  if f x ≤ bound ∧ best.all (fun b => f x < b.1) then some (f x, x) else best

def nearest (xs : List α) : Option (κ × α) := xs.foldl (nearer f bound) none

def IsNearest (xs : List α) (p : α) : Prop :=
  ∃ l r, xs = l ++ p :: r ∧ (∀ q ∈ l, f p < f q) ∧ ∀ q ∈ r, f p ≤ f q

variable {f bound} {xs : List α} {p q : α}

lemma isNearest_singleton (q : α) : IsNearest f [q] q :=
  ⟨[], [], rfl, fun _ h => absurd h List.not_mem_nil, fun _ h => absurd h List.not_mem_nil⟩

lemma isNearest_stays (h : IsNearest f xs p) (hq : f p ≤ f q) : IsNearest f (xs ++ [q]) p := by
  obtain ⟨l, r, rfl, hl, hr⟩ := h
  refine ⟨l, r ++ [q], by rw [List.append_assoc, List.cons_append], hl, fun z hz => ?_⟩
  rcases List.mem_append.mp hz with hz | hz
  · exact hr z hz
  · rw [List.mem_singleton.mp hz]
    exact hq

lemma isNearest_moves (h : IsNearest f xs p) (hq : f q < f p) : IsNearest f (xs ++ [q]) q := by
  obtain ⟨l, r, rfl, hl, hr⟩ := h
  refine ⟨l ++ p :: r, [], rfl, fun z hz => ?_, fun _ h => absurd h List.not_mem_nil⟩
  rcases List.mem_append.mp hz with hz | hz
  · exact hq.trans (hl z hz)
  · rcases List.mem_cons.mp hz with rfl | hz
    · exact hq
    · exact hq.trans_le (hr z hz)

lemma nearer_stays (hq : f p ≤ f q) :
    nearer f bound (if f p ≤ bound then some (f p, p) else none) q =
      if f p ≤ bound then some (f p, p) else none := by
  rw [nearer, if_neg]
  rintro ⟨hbound, hall⟩
  rw [if_pos (hq.trans hbound), Option.all_some, decide_eq_true_eq] at hall
  exact absurd hall hq.not_gt

lemma nearer_moves (hq : f q < f p) :
    nearer f bound (if f p ≤ bound then some (f p, p) else none) q =
      if f q ≤ bound then some (f q, q) else none := by
  rw [nearer]
  by_cases hbound : f q ≤ bound
  · have hall : (if f p ≤ bound then some (f p, p) else none).all (fun b => f q < b.1) = true := by
      split
      · exact decide_eq_true hq
      · rfl
    rw [if_pos ⟨hbound, hall⟩, if_pos hbound]
  · rw [if_neg (fun h => hbound h.1), if_neg hbound, if_neg (fun h => hbound (hq.le.trans h))]

variable (f bound) in
lemma nearest_spec (h : xs ≠ []) :
    ∃ p, IsNearest f xs p ∧ nearest f bound xs = if f p ≤ bound then some (f p, p) else none := by
  induction xs using List.reverseRecOn with
  | nil => exact absurd rfl h
  | append_singleton xs q ih =>
    rw [nearest, List.foldl_append, List.foldl_cons, List.foldl_nil, ← nearest]
    by_cases hxs : xs = []
    · rw [hxs]
      exact ⟨q, isNearest_singleton q, by simp [nearest, nearer]⟩
    · obtain ⟨p, hp, hbest⟩ := ih hxs
      rw [hbest]
      rcases le_or_gt (f p) (f q) with hq | hq
      · exact ⟨p, isNearest_stays hp hq, nearer_stays hq⟩
      · exact ⟨q, isNearest_moves hp hq, nearer_moves hq⟩

end TheCargo.Foundation
