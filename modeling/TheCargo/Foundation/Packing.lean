import Mathlib.Algebra.BigOperators.Group.List.Basic
import Mathlib.Algebra.GroupWithZero.Nat
import Mathlib.Order.Bounds.Defs
import Mathlib.Tactic.Common

namespace TheCargo.Foundation.Packing

variable {α : Type} (weight : α → ℕ) (cap : ℕ)

def total (l : List α) : ℕ := (l.map weight).sum

def Packs (l : List α) (parts : List (List α)) : Prop := parts.flatten = l ∧ ∀ part ∈ parts, total weight part ≤ cap

/-- The parts opened after the one at hand, of which `used` is taken, where a part is closed only when the next item
does not fit. -/
def opened : ℕ → List α → ℕ
  | _, [] => 0
  | used, a :: l => if used + weight a ≤ cap then opened (used + weight a) l else opened (weight a) l + 1

def lost : ℕ → List α → ℕ
  | _, [] => 0
  | used, a :: l => if used + weight a ≤ cap then lost (used + weight a) l else cap - used + lost (weight a) l

variable {weight cap} {l : List α} {used : ℕ}

lemma opened_bounds (used used' : ℕ) (l : List α) :
    (used ≤ used' → opened weight cap used l ≤ opened weight cap used' l) ∧
      opened weight cap used l ≤ opened weight cap used' l + 1 := by
  induction l generalizing used used' with
  | nil => exact ⟨fun _ => Nat.zero_le _, Nat.zero_le _⟩
  | cons a l ih =>
    rw [opened, opened]
    refine ⟨fun hle => ?_, ?_⟩
    · split
      · split
        · exact (ih _ _).1 (Nat.add_le_add_right hle _)
        · exact (ih _ _).2
      · rename_i hfull
        exact Nat.le_of_eq (if_neg (by omega)).symm
    · split
      · split
        · exact (ih _ _).2
        · exact Nat.le_succ_of_le (ih _ _).2
      · split
        · exact Nat.add_le_add_right ((ih _ _).1 (Nat.le_add_left _ _)) 1
        · exact Nat.le_succ _

lemma total_cons (a : α) (l : List α) : total weight (a :: l) = weight a + total weight l := by
  rw [total, List.map_cons, List.sum_cons]
  rfl

lemma opened_le {part : List α} {parts : List (List α)} (hpart : used + total weight part ≤ cap)
    (hparts : ∀ p ∈ parts, total weight p ≤ cap) :
    opened weight cap used (part ++ parts.flatten) ≤ parts.length := by
  induction parts generalizing used part with
  | nil =>
    rw [List.flatten_nil, List.append_nil]
    induction part generalizing used with
    | nil => exact Nat.le_refl _
    | cons a part ih =>
      rw [total_cons] at hpart
      rw [opened, if_pos (by omega)]
      exact ih (by omega)
  | cons p parts ih =>
    rw [List.forall_mem_cons] at hparts
    induction part generalizing used with
    | nil =>
      have hnext : opened weight cap 0 (p ++ parts.flatten) ≤ parts.length := ih (by omega) hparts.2
      have hopen : opened weight cap used (p ++ parts.flatten) ≤ opened weight cap 0 (p ++ parts.flatten) + 1 :=
        (opened_bounds used 0 _).2
      rw [List.nil_append, List.flatten_cons, List.length_cons]
      omega
    | cons a part ih' =>
      rw [total_cons] at hpart
      rw [List.cons_append, opened, if_pos (by omega)]
      exact ih' (by omega)

lemma exists_opened (hcap : ∀ a, weight a ≤ cap) (hused : used ≤ cap) (l : List α) :
    ∃ (part : List α) (parts : List (List α)), part ++ parts.flatten = l ∧ used + total weight part ≤ cap ∧
      (∀ p ∈ parts, total weight p ≤ cap) ∧ parts.length = opened weight cap used l := by
  induction l generalizing used with
  | nil => exact ⟨[], [], rfl, hused, List.forall_mem_nil _, rfl⟩
  | cons a l ih =>
    rw [opened]
    split
    · rename_i hfits
      obtain ⟨part, parts, hflat, hpart, hparts, hlen⟩ := ih hfits
      refine ⟨a :: part, parts, by rw [List.cons_append, hflat], ?_, hparts, hlen⟩
      rw [total_cons, ← Nat.add_assoc]
      exact hpart
    · obtain ⟨part, parts, hflat, hpart, hparts, hlen⟩ := ih (hcap a)
      refine ⟨[], (a :: part) :: parts, ?_, hused, List.forall_mem_cons.mpr ⟨?_, hparts⟩, ?_⟩
      · rw [List.nil_append, List.flatten_cons, List.cons_append, hflat]
      · rw [total_cons]
        exact hpart
      · rw [List.length_cons, hlen]

lemma isLeast_opened (hcap : ∀ a, weight a ≤ cap) (hl : l ≠ []) :
    IsLeast {n | ∃ parts, Packs weight cap l parts ∧ parts.length = n} (opened weight cap 0 l + 1) := by
  constructor
  · obtain ⟨part, parts, hflat, hpart, hparts, hlen⟩ := exists_opened hcap (Nat.zero_le cap) l
    rw [Nat.zero_add] at hpart
    exact ⟨part :: parts, ⟨hflat, List.forall_mem_cons.mpr ⟨hpart, hparts⟩⟩, congrArg (· + 1) hlen⟩
  · rintro n ⟨parts, ⟨hflat, hparts⟩, rfl⟩
    cases parts with
    | nil => exact absurd hflat.symm hl
    | cons part parts =>
      rw [List.forall_mem_cons] at hparts
      rw [← hflat]
      exact Nat.succ_le_succ (opened_le ((Nat.zero_add _).trans_le hparts.1) hparts.2)

lemma opened_fill (hpos : ∀ a, 0 < weight a) (hcap : ∀ a, weight a ≤ cap) (hused : used ≤ cap) (l : List α) :
    ∃ last, used + total weight l + lost weight cap used l = cap * opened weight cap used l + last ∧ last ≤ cap ∧
      (0 < used ∨ l ≠ [] → 0 < last) := by
  induction l generalizing used with
  | nil =>
    refine ⟨used, ?_, hused, fun h => h.resolve_right (fun hne => hne rfl)⟩
    change used + 0 + 0 = cap * 0 + used
    omega
  | cons a l ih =>
    rw [opened, lost, total_cons]
    split
    · rename_i hfits
      obtain ⟨last, hsum, hlast, hpos'⟩ := ih hfits
      refine ⟨last, ?_, hlast, fun _ => hpos' (.inl (Nat.add_pos_right _ (hpos a)))⟩
      rw [← hsum]
      omega
    · obtain ⟨last, hsum, hlast, hpos'⟩ := ih (hcap a)
      refine ⟨last, ?_, hlast, fun _ => hpos' (.inl (hpos a))⟩
      rw [Nat.mul_succ]
      omega

lemma opened_lt_iff (hpos : ∀ a, 0 < weight a) (hcap : ∀ a, weight a ≤ cap) (hl : l ≠ []) (k : ℕ) :
    opened weight cap 0 l + 1 ≤ k ↔ total weight l + lost weight cap 0 l ≤ cap * k := by
  obtain ⟨last, hsum, hlast, hpos'⟩ := opened_fill hpos hcap (Nat.zero_le cap) l
  have hlast' := hpos' (.inr hl)
  rw [Nat.zero_add] at hsum
  rw [hsum]
  constructor
  · intro hk
    calc cap * opened weight cap 0 l + last ≤ cap * (opened weight cap 0 l + 1) := by
          rw [Nat.mul_succ]
          omega
      _ ≤ cap * k := Nat.mul_le_mul_left cap hk
  · intro hk
    by_contra hlt
    have hmul := Nat.mul_le_mul_left cap (Nat.le_of_lt_succ (Nat.lt_of_not_le hlt))
    omega

end TheCargo.Foundation.Packing
