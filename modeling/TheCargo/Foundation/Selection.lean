import Mathlib.Order.Lattice
import Mathlib.Tactic.Common

namespace TheCargo.Foundation

variable {α κ : Type*} (start stop : α → ℕ)

def keep (last : ℕ) : List α → List α
  | [] => []
  | a :: rest => if last ≤ start a then a :: keep (stop a) rest else keep last rest

def skipped (last : ℕ) : List α → List α
  | [] => []
  | a :: rest => if last ≤ start a then skipped (stop a) rest else a :: skipped last rest

variable {start stop} {xs owners : List α} {last : ℕ}

lemma keep_sublist (last : ℕ) (xs : List α) : (keep start stop last xs).Sublist xs := by
  induction xs generalizing last with
  | nil => exact List.Sublist.refl _
  | cons a rest ih =>
    rw [keep]
    split
    · exact (ih (stop a)).cons_cons a
    · exact (ih last).cons a

lemma le_start_of_keep (hproper : ∀ a ∈ xs, start a ≤ stop a) : ∀ a ∈ keep start stop last xs, last ≤ start a := by
  induction xs generalizing last with
  | nil => exact fun a ha => nomatch ha
  | cons b rest ih =>
    obtain ⟨hb, hrest⟩ := List.forall_mem_cons.mp hproper
    intro a ha
    rw [keep] at ha
    split at ha
    · next hle =>
      rcases List.mem_cons.mp ha with rfl | ha
      · exact hle
      · exact Nat.le_trans (Nat.le_trans hle hb) (ih hrest a ha)
    · exact ih hrest a ha

lemma keep_apart (hproper : ∀ a ∈ xs, start a ≤ stop a) :
    (keep start stop last xs).Pairwise (fun a b => stop a ≤ start b) := by
  induction xs generalizing last with
  | nil => exact List.Pairwise.nil
  | cons a rest ih =>
    obtain ⟨-, hrest⟩ := List.forall_mem_cons.mp hproper
    rw [keep]
    split
    · exact List.pairwise_cons.mpr ⟨le_start_of_keep hrest, ih hrest⟩
    · exact ih hrest

variable (start stop) in
lemma keep_append_skipped_perm (last : ℕ) (xs : List α) :
    (keep start stop last xs ++ skipped start stop last xs).Perm xs := by
  induction xs generalizing last with
  | nil => exact List.Perm.nil
  | cons a rest ih =>
    rw [keep, skipped]
    split
    · exact (ih (stop a)).cons a
    · exact List.perm_middle.trans ((ih last).cons a)

lemma skipped_covered {before : α → α → Prop} (hxs : xs.Pairwise before) :
    ∀ a ∈ skipped start stop last xs,
      start a < last ∨ ∃ b ∈ keep start stop last xs, start a < stop b ∧ before b a := by
  induction xs generalizing last with
  | nil => exact fun a ha => absurd ha List.not_mem_nil
  | cons b rest ih =>
    obtain ⟨hb, hrest⟩ := List.pairwise_cons.mp hxs
    intro a ha
    rw [skipped] at ha
    rw [keep]
    split at ha
    · next hle =>
      rw [if_pos hle]
      have hmem : a ∈ rest := (keep_append_skipped_perm start stop (stop b) rest).subset (List.mem_append_right _ ha)
      rcases ih hrest a ha with hlt | ⟨k, hk, hlt, hbefore⟩
      · exact .inr ⟨b, List.mem_cons_self, hlt, hb a hmem⟩
      · exact .inr ⟨k, List.mem_cons_of_mem _ hk, hlt, hbefore⟩
    · next hnot =>
      rw [if_neg hnot]
      rcases List.mem_cons.mp ha with rfl | ha
      · exact .inl (Nat.lt_of_not_le hnot)
      · exact ih hrest a ha

lemma keep_eq_owners [LinearOrder κ] {key : α → κ} (hxs : xs.Pairwise (fun a b => key a ≤ key b))
    (howners : owners.Pairwise (fun a b => key a < key b ∧ stop a ≤ start b)) (hmem : ∀ o ∈ owners, o ∈ xs)
    (hlast : ∀ o ∈ owners, last ≤ start o) (hproper : ∀ o ∈ owners, start o < stop o)
    (hcover : ∀ a ∈ xs, start a < last ∨ ∃ o ∈ owners, start a < stop o ∧ (a = o ∨ key o < key a)) :
    keep start stop last xs = owners := by
  induction xs generalizing owners last with
  | nil =>
    cases owners with
    | nil => rfl
    | cons o os => exact absurd (hmem o List.mem_cons_self) List.not_mem_nil
  | cons a rest ih =>
    obtain ⟨ha, hrest⟩ := List.pairwise_cons.mp hxs
    have hfirst : ∀ o ∈ owners, ¬ key o < key a := by
      intro o ho hlt
      rcases List.mem_cons.mp (hmem o ho) with rfl | hmem
      · exact lt_irrefl _ hlt
      · exact absurd (ha o hmem) (not_le.mpr hlt)
    rw [keep]
    split
    · next hle =>
      have hown : a ∈ owners := by
        rcases hcover a List.mem_cons_self with hlt | ⟨o, ho, -, rfl | hlt⟩
        · omega
        · exact ho
        · exact absurd hlt (hfirst o ho)
      cases owners with
      | nil => exact absurd hown List.not_mem_nil
      | cons o os =>
        obtain ⟨ho, hos⟩ := List.pairwise_cons.mp howners
        obtain rfl : a = o := by
          rcases List.mem_cons.mp hown with heq | hin
          · exact heq
          · exact absurd (ho a hin).1 (hfirst o List.mem_cons_self)
        have hstop := hproper a List.mem_cons_self
        congr 1
        refine ih hrest hos ?_ (fun b hb => (ho b hb).2) (fun b hb => hproper b (List.mem_cons_of_mem _ hb)) ?_
        · intro b hb
          rcases List.mem_cons.mp (hmem b (List.mem_cons_of_mem _ hb)) with rfl | hin
          · exact absurd (ho b hb).1 (lt_irrefl _)
          · exact hin
        · intro b hb
          rcases hcover b (List.mem_cons_of_mem _ hb) with hlt | ⟨o, ho, hlt, horder⟩
          · exact .inl (by omega)
          · rcases List.mem_cons.mp ho with rfl | ho
            · exact .inl hlt
            · exact .inr ⟨o, ho, hlt, horder⟩
    · next hnot =>
      refine ih hrest howners ?_ hlast hproper (fun b hb => hcover b (List.mem_cons_of_mem _ hb))
      intro o ho
      rcases List.mem_cons.mp (hmem o ho) with rfl | hin
      · exact absurd (hlast o ho) hnot
      · exact hin

end TheCargo.Foundation
