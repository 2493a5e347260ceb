import Mathlib.Data.List.Infix
import Mathlib.Tactic.Common

/-! `LIKE` patterns: `%` stands for any text, `_` for any character, and a backslash takes the next one literally. -/

namespace TheCargo.Foundation

def like : List Char → List Char → Bool
  | [], s => s.isEmpty
  | c :: p, s =>
    if c = '%' then s.tails.any (like p)
    else if c = '\\' then
      match p, s with
      | d :: p, e :: s => d = e && like p s
      | _, _ => false
    else
      match s with
      | [] => false
      | e :: s => (c = '_' || c = e) && like p s

def NoWildcard (w : List Char) : Prop := ∀ c ∈ w, c ≠ '%' ∧ c ≠ '_' ∧ c ≠ '\\'

@[simp] lemma like_any (p s : List Char) : like ('%' :: p) s = s.tails.any (like p) := by
  rw [like.eq_def]
  exact if_pos rfl

@[simp] lemma like_end (c : Char) (p : List Char) (hany : c ≠ '%') : like (c :: p) [] = false := by
  rw [like.eq_def]
  cases p <;> simp [hany]

lemma like_same {c : Char} (hany : c ≠ '%') (hone : c ≠ '_') (hescape : c ≠ '\\') (p : List Char) (e : Char)
    (s : List Char) : like (c :: p) (e :: s) = (c = e && like p s) := by
  rw [like.eq_def]
  simp [hany, hone, hescape]

lemma like_isPrefix {w : List Char} (h : NoWildcard w) (s : List Char) : like (w ++ ['%']) s = true ↔ w <+: s := by
  induction w generalizing s with
  | nil =>
    have hself : s.tails.any (like []) = true :=
      List.any_eq_true.mpr ⟨[], (List.mem_tails [] s).mpr (List.nil_suffix), rfl⟩
    rw [List.nil_append, like_any, hself]
    exact iff_of_true rfl (List.nil_prefix)
  | cons c w ih =>
    obtain ⟨⟨hany, hone, hescape⟩, hw⟩ := List.forall_mem_cons.mp h
    rw [List.cons_append]
    cases s with
    | nil => simp [hany]
    | cons e s =>
      rw [like_same hany hone hescape, Bool.and_eq_true, decide_eq_true_iff, ih hw, List.cons_prefix_cons]

lemma like_isInfix {w : List Char} (h : NoWildcard w) (s : List Char) :
    like ('%' :: (w ++ ['%'])) s = true ↔ w <:+: s := by
  rw [like_any, List.any_eq_true]
  constructor
  · rintro ⟨t, ht, hlike⟩
    exact ((like_isPrefix h t).mp hlike).isInfix.trans ((List.mem_tails t s).mp ht).isInfix
  · intro hpart
    obtain ⟨t, hprefix, hsuffix⟩ := List.infix_iff_prefix_suffix.mp hpart
    exact ⟨t, (List.mem_tails t s).mpr hsuffix, (like_isPrefix h t).mpr hprefix⟩

end TheCargo.Foundation
