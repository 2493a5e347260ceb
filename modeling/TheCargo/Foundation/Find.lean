import Mathlib.Data.List.Basic
import Mathlib.Tactic.Common

/-! All matches in a text from left to right, each beginning where the one before has ended or later. -/

namespace TheCargo.Foundation

variable {α β : Type*}

/-- `m` gives the length of a match at the head of a text and what it captures. What is left of the match before is
skipped. -/
def findAll (m : List α → Option (β × ℕ)) : ℕ → ℕ → List α → List (ℕ × ℕ × β)
  | _, _, [] => []
  | 0, pos, c :: s =>
    match m (c :: s) with
    | some (x, n) => (pos, pos + n, x) :: findAll m (n - 1) (pos + 1) s
    | none => findAll m 0 (pos + 1) s
  | skip + 1, pos, _ :: s => findAll m skip (pos + 1) s

variable {m : List α → Option (β × ℕ)} {s : List α} {skip pos i j : ℕ} {x : β}

lemma findAll_sound (h : (i, j, x) ∈ findAll m skip pos s) :
    ∃ a b n, s = a ++ b ∧ i = pos + a.length ∧ m b = some (x, n) ∧ j = i + n := by
  induction s generalizing skip pos with
  | nil => cases skip <;> exact absurd h List.not_mem_nil
  | cons c s ih =>
    have hlater {skip : ℕ} (h : (i, j, x) ∈ findAll m skip (pos + 1) s) :
        ∃ a b n, c :: s = a ++ b ∧ i = pos + a.length ∧ m b = some (x, n) ∧ j = i + n := by
      obtain ⟨a, b, n, rfl, hi, hm, hj⟩ := ih h
      exact ⟨c :: a, b, n, rfl, by rw [List.length_cons]; omega, hm, hj⟩
    cases skip with
    | succ skip => exact hlater h
    | zero =>
      rw [findAll] at h
      cases hm : m (c :: s) with
      | none =>
        rw [hm] at h
        exact hlater h
      | some e =>
        obtain ⟨y, n⟩ := e
        rw [hm] at h
        rcases List.mem_cons.mp h with heq | h
        · obtain ⟨rfl, rfl, rfl⟩ := Prod.mk.inj heq |>.imp id Prod.mk.inj
          exact ⟨[], c :: s, n, rfl, rfl, hm, rfl⟩
        · exact hlater h

lemma findAll_complete {a b : List α} {n : ℕ} (hm : m b = some (x, n)) (hb : b ≠ []) (hskip : skip ≤ a.length)
    (hfree : ∀ u v, a = u ++ v → v ≠ [] → ∀ y k, m (v ++ b) = some (y, k) → k ≤ v.length) :
    (pos + a.length, pos + a.length + n, x) ∈ findAll m skip pos (a ++ b) := by
  induction a generalizing skip pos with
  | nil =>
    obtain rfl := Nat.le_zero.mp hskip
    cases b with
    | nil => exact absurd rfl hb
    | cons c b =>
      rw [List.nil_append, findAll, hm]
      exact List.mem_cons_self
  | cons c a ih =>
    have hlater {skip : ℕ} (hskip : skip ≤ a.length) :
        (pos + (c :: a).length, pos + (c :: a).length + n, x) ∈ findAll m skip (pos + 1) (a ++ b) := by
      have hin : (pos + 1 + a.length, pos + 1 + a.length + n, x) ∈ findAll m skip (pos + 1) (a ++ b) :=
        ih hskip (fun u v hu => hfree (c :: u) v (congrArg (c :: ·) hu))
      rwa [Nat.add_assoc pos, Nat.add_comm 1] at hin
    rw [List.length_cons] at hskip
    rw [List.cons_append]
    cases skip with
    | succ skip => exact hlater (by omega)
    | zero =>
      rw [findAll]
      cases hc : m (c :: (a ++ b)) with
      | none => exact hlater (Nat.zero_le _)
      | some e =>
        obtain ⟨y, k⟩ := e
        have hk := hfree [] (c :: a) rfl (List.cons_ne_nil c a) y k hc
        rw [List.length_cons] at hk
        exact List.mem_cons_of_mem _ (hlater (by omega))

end TheCargo.Foundation
