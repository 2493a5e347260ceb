import Mathlib.Data.Nat.Notation
import Mathlib.Tactic.Common

namespace TheCargo.Foundation

variable {ε α : Type*} (again : ε → Bool) (func : ℕ → Except ε α)

/-- The attempts from the one numbered `made` on, of which `left` are left; `last` is the last error, and `never` what
would come of no attempt at all. -/
def attempts (never : ε) : ℕ → ℕ → Option ε → Except ε α × ℕ
  | 0, made, last => (.error (last.getD never), made)
  | left + 1, made, _ =>
    match func made with
    | .ok a => (.ok a, made + 1)
    | .error e => if again e then attempts never left (made + 1) (some e) else (.error e, made + 1)

structure Attempted (limit : ℕ) (r : Except ε α × ℕ) : Prop where
  made : 0 < r.2 ∧ r.2 ≤ limit
  result : func (r.2 - 1) = r.1
  before : ∀ k, k + 1 < r.2 → ∃ e, func k = .error e ∧ again e = true
  exhausted : ∀ e, r.1 = .error e → again e = true → r.2 = limit

variable {again func} {never : ε} {limit : ℕ} {r : Except ε α × ℕ}

lemma attempts_spec {left made : ℕ} {last : Option ε} (hleft : made + left = limit)
    (hbefore : ∀ k < made, ∃ e, func k = .error e ∧ again e = true)
    (hlast : left = 0 → 0 < made ∧ func (made - 1) = .error (last.getD never)) :
    Attempted again func limit (attempts again func never left made last) := by
  induction left generalizing made last with
  | zero =>
    obtain ⟨hpos, hfunc⟩ := hlast rfl
    exact ⟨⟨hpos, Nat.le_of_eq hleft⟩, hfunc, fun k hk => hbefore k (Nat.lt_of_succ_lt hk), fun _ _ _ => hleft⟩
  | succ left ih =>
    have hmade : ∀ k, k + 1 < made + 1 → ∃ e, func k = .error e ∧ again e = true :=
      fun k hk => hbefore k (Nat.lt_of_succ_lt_succ hk)
    rw [attempts]
    cases hfunc : func made with
    | ok a => exact ⟨⟨Nat.succ_pos _, by dsimp only; omega⟩, hfunc, hmade, fun e he => nomatch he⟩
    | error e =>
      dsimp only
      split
      · next hagain =>
        refine ih (by omega) ?_ (fun _ => ⟨Nat.succ_pos _, hfunc⟩)
        intro k hk
        rcases Nat.lt_succ_iff_lt_or_eq.mp hk with hk | rfl
        · exact hbefore k hk
        · exact ⟨e, hfunc, hagain⟩
      · next hstop =>
        refine ⟨⟨Nat.succ_pos _, by dsimp only; omega⟩, hfunc, hmade, ?_⟩
        rintro _ ⟨⟩ hagain
        exact absurd hagain hstop

lemma Attempted.not_lt {q : Except ε α × ℕ} (hq : Attempted again func limit q) (hr : Attempted again func limit r) :
    ¬ q.2 < r.2 := by
  intro hlt
  obtain ⟨e, he, hagain⟩ := hr.before (q.2 - 1) (by have hpos := hq.made.1; omega)
  have hlimit := hq.exhausted e (hq.result.symm.trans he) hagain
  have hle := hr.made.2
  omega

lemma Attempted.unique {q : Except ε α × ℕ} (hq : Attempted again func limit q) (hr : Attempted again func limit r) :
    q = r := by
  have hcalls : q.2 = r.2 := Nat.le_antisymm (Nat.le_of_not_lt (hr.not_lt hq)) (Nat.le_of_not_lt (hq.not_lt hr))
  exact Prod.ext (hq.result.symm.trans (hcalls ▸ hr.result)) hcalls

end TheCargo.Foundation
