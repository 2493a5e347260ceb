import Mathlib.Data.List.Basic
import Mathlib.Order.Bounds.Defs
import Mathlib.Order.MinMax
import Mathlib.Tactic.Common

namespace TheCargo.Foundation

variable {α : Type*}

inductive Edit : List α → List α → Prop where
  | insert (u v : List α) (c : α) : Edit (u ++ v) (u ++ c :: v)
  | delete (u v : List α) (c : α) : Edit (u ++ c :: v) (u ++ v)
  | substitute (u v : List α) (c d : α) : Edit (u ++ c :: v) (u ++ d :: v)

inductive Edits : ℕ → List α → List α → Prop where
  | done (s : List α) : Edits 0 s s
  | step {n : ℕ} {s t w : List α} : Edit s t → Edits n t w → Edits (n + 1) s w

variable {s t w : List α} {c d : α} {n m : ℕ}

lemma edit_cons (h : Edit s t) (c : α) : Edit (c :: s) (c :: t) := by
  cases h with
  | insert u v d => exact .insert (c :: u) v d
  | delete u v d => exact .delete (c :: u) v d
  | substitute u v d e => exact .substitute (c :: u) v d e

lemma edit_reverse (h : Edit s t) : Edit s.reverse t.reverse := by
  cases h with
  | insert u v c => simpa using Edit.insert v.reverse u.reverse c
  | delete u v c => simpa using Edit.delete v.reverse u.reverse c
  | substitute u v c d => simpa using Edit.substitute v.reverse u.reverse c d

lemma edits_cons (h : Edits n s t) (c : α) : Edits n (c :: s) (c :: t) := by
  induction h with
  | done s => exact .done (c :: s)
  | step hedit _ ih => exact .step (edit_cons hedit c) ih

lemma edits_reverse (h : Edits n s t) : Edits n s.reverse t.reverse := by
  induction h with
  | done s => exact .done s.reverse
  | step hedit _ ih => exact .step (edit_reverse hedit) ih

lemma edits_reverse_iff : Edits n s.reverse t.reverse ↔ Edits n s t := by
  refine ⟨fun h => ?_, edits_reverse⟩
  have hback := edits_reverse h
  rwa [List.reverse_reverse, List.reverse_reverse] at hback

lemma edits_insert (t : List α) : Edits t.length [] t := by
  induction t with
  | nil => exact .done []
  | cons c t ih => exact .step (.insert [] [] c) (edits_cons ih c)

lemma edits_delete (s : List α) : Edits s.length s [] := by
  induction s with
  | nil => exact .done []
  | cons c s ih => exact .step (.delete [] s c) ih

lemma edits_trans (h : Edits n s t) (hrest : Edits m t w) : Edits (n + m) s w := by
  induction h with
  | done s => rwa [Nat.zero_add]
  | step hedit _ ih =>
    rw [Nat.add_right_comm]
    exact .step hedit (ih hrest)

variable [DecidableEq α]

def editDistance : List α → List α → ℕ
  | [], t => t.length
  | s, [] => s.length
  | c :: s, d :: t =>
    min (min (editDistance s (d :: t) + 1) (editDistance (c :: s) t + 1)) (editDistance s t + if c = d then 0 else 1)

@[simp] lemma editDistance_nil_left (t : List α) : editDistance [] t = t.length := by
  rw [editDistance]

@[simp] lemma editDistance_nil_right (s : List α) : editDistance s [] = s.length := by
  cases s with
  | nil => exact editDistance_nil_left []
  | cons c s => rw [editDistance]; exact List.cons_ne_nil c s

lemma editDistance_cons (c d : α) (s t : List α) : editDistance (c :: s) (d :: t) =
    min (min (editDistance s (d :: t) + 1) (editDistance (c :: s) t + 1))
      (editDistance s t + if c = d then 0 else 1) := by
  rw [editDistance]

lemma editDistance_self (s : List α) : editDistance s s = 0 := by
  induction s with
  | nil => exact editDistance_nil_left []
  | cons c s ih => rw [editDistance_cons, if_pos rfl, ih, Nat.add_zero, Nat.min_zero]

lemma edits_editDistance (s t : List α) : Edits (editDistance s t) s t := by
  induction s generalizing t with
  | nil =>
    rw [editDistance_nil_left]
    exact edits_insert t
  | cons c s ihs =>
    induction t with
    | nil =>
      rw [editDistance_nil_right]
      exact edits_delete (c :: s)
    | cons d t iht =>
      have hdelete : Edits (editDistance s (d :: t) + 1) (c :: s) (d :: t) := .step (.delete [] s c) (ihs (d :: t))
      have hinsert : Edits (editDistance (c :: s) t + 1) (c :: s) (d :: t) :=
        edits_trans iht (.step (.insert [] t d) (.done (d :: t)))
      have hkeep : Edits (editDistance s t + if c = d then 0 else 1) (c :: s) (d :: t) := by
        by_cases h : c = d
        · rw [if_pos h, h]
          exact edits_cons (ihs t) d
        · rw [if_neg h]
          exact edits_trans (edits_cons (ihs t) c) (.step (.substitute [] t c d) (.done (d :: t)))
      rw [editDistance_cons]
      rcases min_choice (min (editDistance s (d :: t) + 1) (editDistance (c :: s) t + 1))
        (editDistance s t + if c = d then 0 else 1) with h | h
      · rw [h]
        rcases min_choice (editDistance s (d :: t) + 1) (editDistance (c :: s) t + 1) with h | h
        · rwa [h]
        · rwa [h]
      · rwa [h]

lemma editDistance_cons_le (c : α) (s t : List α) : editDistance (c :: s) t ≤ editDistance s t + 1 := by
  cases t with
  | nil => simp
  | cons d t =>
    rw [editDistance_cons]
    omega

lemma editDistance_le_cons (s : List α) (d : α) (t : List α) : editDistance s (d :: t) ≤ editDistance s t + 1 := by
  cases s with
  | nil => simp
  | cons c s =>
    rw [editDistance_cons]
    omega

lemma editDistance_le_of_delete (c : α) (s t : List α) : editDistance s t ≤ editDistance (c :: s) t + 1 := by
  induction t with
  | nil =>
    simp only [editDistance_nil_right, List.length_cons]
    omega
  | cons d t ih =>
    have hgrow := editDistance_le_cons s d t
    rw [editDistance_cons]
    omega

lemma editDistance_le_of_substitute (c d : α) (s t : List α) :
    editDistance (c :: s) t ≤ editDistance (d :: s) t + 1 := by
  induction t with
  | nil => simp
  | cons e t ih =>
    rw [editDistance_cons, editDistance_cons]
    split <;> omega

lemma editDistance_cons_mono (h : ∀ w, editDistance s w ≤ editDistance t w + 1) (c : α) (w : List α) :
    editDistance (c :: s) w ≤ editDistance (c :: t) w + 1 := by
  induction w with
  | nil =>
    have hnil := h []
    simp only [editDistance_nil_right, List.length_cons] at hnil ⊢
    omega
  | cons d w ih =>
    have hhead := h (d :: w)
    have htail := h w
    rw [editDistance_cons, editDistance_cons]
    omega

lemma editDistance_append_mono (h : ∀ w, editDistance s w ≤ editDistance t w + 1) (u w : List α) :
    editDistance (u ++ s) w ≤ editDistance (u ++ t) w + 1 := by
  induction u generalizing w with
  | nil => exact h w
  | cons c u ih => exact editDistance_cons_mono ih c w

lemma editDistance_edit (h : Edit s t) (w : List α) : editDistance s w ≤ editDistance t w + 1 := by
  cases h with
  | insert u v c => exact editDistance_append_mono (editDistance_le_of_delete c v) u w
  | delete u v c => exact editDistance_append_mono (editDistance_cons_le c v) u w
  | substitute u v c d => exact editDistance_append_mono (editDistance_le_of_substitute c d v) u w

lemma editDistance_le (h : Edits n s t) : editDistance s t ≤ n := by
  induction h with
  | done s => exact (editDistance_self s).le
  | step hedit _ ih => exact (editDistance_edit hedit _).trans (Nat.succ_le_succ ih)

lemma isLeast_editDistance (s t : List α) : IsLeast {n | Edits n s t} (editDistance s t) :=
  ⟨edits_editDistance s t, fun _ h => editDistance_le h⟩

end TheCargo.Foundation
