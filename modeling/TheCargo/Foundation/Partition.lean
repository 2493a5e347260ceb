import Mathlib.Data.List.TakeWhile
import Mathlib.Data.List.Infix
import Mathlib.Tactic.Common

namespace TheCargo.Foundation

variable {α : Type*} {sep s t : List α} {c : α}

def Unbordered (sep : List α) : Prop := ∀ w ∈ sep.tails, w <+: sep → w = [] ∨ w = sep

lemma prefix_of_prefix_append (hsep : Unbordered sep) (hs : s ≠ []) (h : sep <+: s ++ (sep ++ t)) : sep <+: s := by
  obtain ⟨r, hr⟩ := h
  rcases List.append_eq_append_iff.mp hr with ⟨w, hw, -⟩ | ⟨w, hw, hrest⟩
  · exact ⟨w, hw.symm⟩
  · have hsuffix : w <:+ sep := ⟨s, hw.symm⟩
    have hpre : w <+: sep :=
      List.prefix_of_prefix_length_le ⟨r, hrest.symm⟩ (List.prefix_append sep t) hsuffix.length_le
    rcases hsep w ((List.mem_tails w sep).mpr hsuffix) hpre with rfl | rfl
    · exact ⟨[], by rw [hw, List.append_nil, List.append_nil]⟩
    · exact absurd (List.append_left_eq_self.mp hw.symm) hs

variable [DecidableEq α]

instance (sep : List α) : Decidable (Unbordered sep) :=
  inferInstanceAs (Decidable (∀ w ∈ sep.tails, w <+: sep → w = [] ∨ w = sep))

def partition (sep : List α) : List α → List α × List α
  | [] => ([], [])
  | c :: s =>
    if sep.isPrefixOf (c :: s) then ([], (c :: s).drop sep.length)
    else (c :: (partition sep s).1, (partition sep s).2)

lemma partition_of_prefix (hsep : sep ≠ []) (t : List α) : partition sep (sep ++ t) = ([], t) := by
  cases sep with
  | nil => exact absurd rfl hsep
  | cons c sep =>
    have hpre : (c :: sep).isPrefixOf (c :: (sep ++ t)) = true :=
      List.isPrefixOf_iff_prefix.mpr (List.prefix_append (c :: sep) t)
    rw [List.cons_append, partition, if_pos hpre, ← List.cons_append, List.drop_left]

lemma partition_cons (h : ¬ sep <+: c :: s) :
    partition sep (c :: s) = (c :: (partition sep s).1, (partition sep s).2) := by
  rw [partition, if_neg (fun hpre => h (List.isPrefixOf_iff_prefix.mp hpre))]

lemma partition_none (h : ¬ sep <:+: s) : partition sep s = (s, []) := by
  induction s with
  | nil => rfl
  | cons c s ih =>
    rw [List.infix_cons_iff, not_or] at h
    rw [partition_cons h.1, ih h.2]

lemma partition_append (hne : sep ≠ []) (hsep : Unbordered sep) (s t : List α) :
    partition sep (s ++ (sep ++ t)) =
      if sep <:+: s then ((partition sep s).1, (partition sep s).2 ++ (sep ++ t)) else (s, t) := by
  induction s with
  | nil => rw [List.nil_append, partition_of_prefix hne, if_neg (fun h => hne (List.infix_nil.mp h))]
  | cons c s ih =>
    by_cases hpre : sep <+: c :: s
    · obtain ⟨r, hr⟩ := hpre
      rw [← hr, List.append_assoc, partition_of_prefix hne, partition_of_prefix hne,
        if_pos (List.prefix_append sep r).isInfix]
    · have hlong : ¬ sep <+: c :: (s ++ (sep ++ t)) :=
        fun h => hpre (prefix_of_prefix_append hsep (List.cons_ne_nil c s) h)
      rw [List.cons_append, partition_cons hlong, ih, partition_cons hpre]
      by_cases hin : sep <:+: s
      · rw [if_pos hin, if_pos (List.infix_cons_iff.mpr (.inr hin))]
      · rw [if_neg hin, if_neg (fun h => (List.infix_cons_iff.mp h).elim hpre hin)]

lemma partition_singleton (c : α) (s : List α) :
    partition [c] s = (s.takeWhile (fun x => x ≠ c), (s.dropWhile (fun x => x ≠ c)).drop 1) := by
  induction s with
  | nil => rfl
  | cons d s ih =>
    by_cases h : d = c
    · subst h
      have hsplit : partition [d] (d :: s) = ([], s) := partition_of_prefix (List.cons_ne_nil d []) s
      rw [hsplit, List.takeWhile_cons_of_neg (by simp), List.dropWhile_cons_of_neg (by simp), List.drop_one,
        List.tail_cons]
    · have hpre : ¬ [c] <+: d :: s := fun hpre => h (List.cons_prefix_cons.mp hpre).1.symm
      rw [partition_cons hpre, ih, List.takeWhile_cons_of_pos (by simpa using h),
        List.dropWhile_cons_of_pos (by simpa using h)]

end TheCargo.Foundation
