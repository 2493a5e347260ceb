import Mathlib.Data.List.TakeWhile
import TheCargo.Foundation.Dict

namespace TheCargo.Foundation

lemma takeWhile_ne_of_nodup {κ : Type*} [DecidableEq κ] {k : κ} {l r : List κ} (h : (l ++ k :: r).Nodup) :
    (l ++ k :: r).takeWhile (fun j => j ≠ k) = l := by
  have hk : ∀ j ∈ l, decide (j ≠ k) = true := by
    intro j hj
    refine decide_eq_true fun heq => ?_
    exact (List.nodup_append.mp h).2.2 j hj k List.mem_cons_self heq
  rw [List.takeWhile_append_of_pos hk, List.takeWhile_cons_of_neg (by simp), List.append_nil]

namespace Dict

variable {α κ ν : Type*} [DecidableEq κ] (key : α → κ) (values : α → List ν)

/-- `d.setdefault(key, []).extend(values)` -/
def gather (d : Dict κ (List ν)) (x : α) : Dict κ (List ν) := d.set (key x) ((d.get? (key x)).getD [] ++ values x)

variable {key values} {k j : κ} {x : α} {xs : List α}

lemma get?_gather (d : Dict κ (List ν)) (x : α) (k : κ) :
    (d.gather key values x).get? k = if key x = k then some ((d.get? k).getD [] ++ values x) else d.get? k := by
  rw [gather, get?_set]
  split
  · rename_i h
    rw [h]
  · rfl

lemma keys_gather (d : Dict κ (List ν)) (x : α) :
    (d.gather key values x).items.map Prod.fst =
      if key x ∈ d.items.map Prod.fst then d.items.map Prod.fst else d.items.map Prod.fst ++ [key x] :=
  put_keys _ _ _

variable (key values) in
lemma keys_prefix (xs : List α) (d : Dict κ (List ν)) :
    d.items.map Prod.fst <+: (xs.foldl (gather key values) d).items.map Prod.fst := by
  induction xs generalizing d with
  | nil => exact List.prefix_rfl
  | cons x xs ih =>
    refine List.IsPrefix.trans ?_ (ih (d.gather key values x))
    rw [keys_gather]
    split
    · exact List.prefix_rfl
    · exact List.prefix_append _ _

lemma mem_keys_gathered (xs : List α) (d : Dict κ (List ν)) :
    k ∈ (xs.foldl (gather key values) d).items.map Prod.fst ↔ k ∈ d.items.map Prod.fst ∨ k ∈ xs.map key := by
  induction xs generalizing d with
  | nil => simp
  | cons x xs ih =>
    rw [List.foldl_cons, ih, keys_gather, List.map_cons, List.mem_cons]
    by_cases hx : key x ∈ d.items.map Prod.fst
    · rw [if_pos hx]
      constructor
      · exact fun h => h.imp_right .inr
      · rintro (h | rfl | h)
        · exact .inl h
        · exact .inl hx
        · exact .inr h
    · rw [if_neg hx, List.mem_append, List.mem_singleton, or_assoc]

variable (key values) in
lemma getD_gathered (xs : List α) (d : Dict κ (List ν)) (k : κ) :
    ((xs.foldl (gather key values) d).get? k).getD [] =
      (d.get? k).getD [] ++ (xs.filter (fun x => key x = k)).flatMap values := by
  induction xs generalizing d with
  | nil => exact (List.append_nil _).symm
  | cons x xs ih =>
    rw [List.foldl_cons, ih, get?_gather]
    by_cases hx : key x = k
    · rw [if_pos hx, Option.getD_some, List.filter_cons_of_pos (by simpa using hx), List.flatMap_cons,
        List.append_assoc]
    · rw [if_neg hx, List.filter_cons_of_neg (by simpa using hx)]

variable (key values) in
def gathered (xs : List α) : Dict κ (List ν) := xs.foldl (gather key values) empty

lemma mem_gathered {vs : List ν} (h : (k, vs) ∈ (gathered key values xs).items) :
    vs = (xs.filter (fun x => key x = k)).flatMap values := by
  have hget := getD_gathered key values xs empty k
  rw [← gathered, mem_items.mp h] at hget
  exact hget

lemma mem_keys : k ∈ (gathered key values xs).items.map Prod.fst ↔ k ∈ xs.map key := by
  rw [gathered, mem_keys_gathered, empty, List.map_nil, or_iff_right List.not_mem_nil]

variable (key values) in
lemma keys_before (xs : List α) (k : κ) :
    ((gathered key values xs).items.map Prod.fst).takeWhile (fun j => j ≠ k) =
      (gathered key values (xs.takeWhile (fun x => key x ≠ k))).items.map Prod.fst := by
  have hkeys : ∀ j ∈ (gathered key values (xs.takeWhile (fun x => key x ≠ k))).items.map Prod.fst,
      decide (j ≠ k) = true := by
    intro j hj
    obtain ⟨x, hx, rfl⟩ := List.mem_map.mp (mem_keys.mp hj)
    exact List.mem_takeWhile_imp (p := fun x => decide (key x ≠ k)) hx
  have hsplit : xs.takeWhile (fun x => key x ≠ k) ++ xs.dropWhile (fun x => key x ≠ k) = xs :=
    List.takeWhile_append_dropWhile
  have hfirst := List.head?_dropWhile_not (fun x => decide (key x ≠ k)) xs
  cases hrest : xs.dropWhile (fun x => key x ≠ k) with
  | nil =>
    rw [hrest, List.append_nil] at hsplit
    rw [hsplit] at hkeys ⊢
    exact List.takeWhile_eq_self_iff.mpr hkeys
  | cons x rest =>
    rw [hrest] at hsplit hfirst
    obtain rfl : key x = k := by simpa using hfirst
    have hfresh : key x ∉ (gathered key values (xs.takeWhile (fun y => key y ≠ key x))).items.map Prod.fst :=
      fun hmem => absurd (hkeys _ hmem) (by simp)
    obtain ⟨later, hlater⟩ := keys_prefix key values rest
      ((gathered key values (xs.takeWhile (fun y => key y ≠ key x))).gather key values x)
    have hall : gathered key values xs = rest.foldl (gather key values)
        ((gathered key values (xs.takeWhile (fun y => key y ≠ key x))).gather key values x) := by
      conv_lhs => rw [← hsplit]
      rw [gathered, List.foldl_append, List.foldl_cons, ← gathered]
    rw [hall, ← hlater, keys_gather, if_neg hfresh, List.append_assoc, List.takeWhile_append_of_pos hkeys,
      List.singleton_append, List.takeWhile_cons_of_neg (by simp), List.append_nil]

variable (values) in
lemma gathered_split (h : k ∈ xs.map key) :
    ∃ l r, (gathered key values xs).items = l ++ (k, (xs.filter (fun x => key x = k)).flatMap values) :: r ∧
      ∀ j, j ∈ l.map Prod.fst ↔ j ∈ (xs.takeWhile (fun x => key x ≠ k)).map key := by
  have hkey : k ∈ (gathered key values xs).items.map Prod.fst := mem_keys.mpr h
  obtain ⟨⟨j, vs⟩, hmem, rfl⟩ := List.mem_map.mp hkey
  obtain ⟨l, r, hitems⟩ := List.append_of_mem hmem
  refine ⟨l, r, by rw [hitems, mem_gathered hmem], fun i => ?_⟩
  have hnodup := (gathered key values xs).nodup
  have hbefore := keys_before key values xs j
  rw [hitems, List.map_append, List.map_cons] at hnodup hbefore
  rw [takeWhile_ne_of_nodup hnodup] at hbefore
  rw [hbefore, mem_keys]

end Dict

section Guarded

variable {α β : Type*} {P Q : α → Prop} [DecidablePred P] [DecidablePred Q]

lemma flatMap_filter (f : α → List β) (xs : List α) :
    (xs.filter (fun x => P x)).flatMap f = xs.flatMap (fun x => if P x then f x else []) := by
  induction xs with
  | nil => rfl
  | cons x xs ih =>
    by_cases h : P x
    · rw [List.filter_cons_of_pos (by simpa using h), List.flatMap_cons, ih, List.flatMap_cons, if_pos h]
    · rw [List.filter_cons_of_neg (by simpa using h), ih, List.flatMap_cons, if_neg h, List.nil_append]

lemma length_guarded_le (h : ∀ x, P x → Q x) (f : α → List β) (xs : List α) :
    (xs.flatMap (fun x => if P x then f x else [])).length ≤
      (xs.flatMap (fun x => if Q x then f x else [])).length := by
  induction xs with
  | nil => exact Nat.le_refl _
  | cons x xs ih =>
    rw [List.flatMap_cons, List.flatMap_cons, List.length_append, List.length_append]
    refine Nat.add_le_add ?_ ih
    by_cases hP : P x
    · rw [if_pos hP, if_pos (h x hP)]
    · rw [if_neg hP]
      exact Nat.zero_le _

lemma guarded_eq_iff (h : ∀ x, P x → Q x) (f : α → List β) (xs : List α) :
    xs.flatMap (fun x => if P x then f x else []) = xs.flatMap (fun x => if Q x then f x else []) ↔
      ∀ x ∈ xs, Q x → f x ≠ [] → P x := by
  induction xs with
  | nil => simp
  | cons x xs ih =>
    rw [List.flatMap_cons, List.flatMap_cons, List.forall_mem_cons]
    by_cases hP : P x
    · rw [if_pos hP, if_pos (h x hP), List.append_cancel_left_eq, ih, and_iff_right (fun _ _ => hP)]
    · by_cases hf : Q x ∧ f x ≠ []
      · refine iff_of_false (fun heq => ?_) (fun hall => hP (hall.1 hf.1 hf.2))
        have hlen := congrArg List.length heq
        have hle := length_guarded_le h f xs
        have hpos := List.length_pos_of_ne_nil hf.2
        rw [if_neg hP, if_pos hf.1, List.nil_append, List.length_append] at hlen
        omega
      · have hnil : (if Q x then f x else []) = [] := by
          split
          · rename_i hQ
            exact not_not.mp (fun hne => hf ⟨hQ, hne⟩)
          · rfl
        rw [if_neg hP, hnil, List.nil_append, List.nil_append, ih,
          and_iff_right (fun hQ hne => absurd ⟨hQ, hne⟩ hf)]

end Guarded

end TheCargo.Foundation
