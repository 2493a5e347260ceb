import Mathlib.Data.List.Sort
import Mathlib.Order.Lattice.Nat
import TheCargo.Foundation.Dict

namespace TheCargo.Foundation

section Sorting

variable {α κ : Type*} [LinearOrder κ] (f : α → κ)

def sortedBy (rows : List α) : List α := rows.insertionSort (fun a b => f a ≤ f b)

variable {f}

lemma sortedBy_pairwise (rows : List α) : (sortedBy f rows).Pairwise (fun a b => f a ≤ f b) := by
  have htotal : Std.Total (fun a b => f a ≤ f b) := ⟨fun a b => le_total (f a) (f b)⟩
  have htrans : IsTrans α (fun a b => f a ≤ f b) := ⟨fun a b c => le_trans⟩
  exact List.pairwise_insertionSort _ rows

lemma filter_orderedInsert (p : α → Bool) (a : α) {rows : List α} (hrows : rows.Pairwise (fun a b => f a ≤ f b)) :
    (rows.orderedInsert (fun a b => f a ≤ f b) a).filter p =
      if p a then (rows.filter p).orderedInsert (fun a b => f a ≤ f b) a else rows.filter p := by
  induction rows with
  | nil =>
    cases hp : p a <;> simp [hp]
  | cons b rows ih =>
    obtain ⟨hb, hrest⟩ := List.pairwise_cons.mp hrows
    rw [List.orderedInsert_cons]
    by_cases hab : f a ≤ f b
    · rw [if_pos hab, List.filter_cons]
      split
      · symm
        -- Everything that stays after `a` is at least `b`.
        have hle : ∀ c ∈ (b :: rows).filter p, f a ≤ f c := by
          intro c hc
          rcases List.mem_cons.mp (List.mem_filter.mp hc).1 with rfl | hc
          · exact hab
          · exact hab.trans (hb c hc)
        cases hrows : (b :: rows).filter p with
        | nil => rfl
        | cons c cs =>
          rw [hrows] at hle
          exact List.orderedInsert_cons_of_le _ _ (hle c List.mem_cons_self)
      · rfl
    · rw [if_neg hab, List.filter_cons, ih hrest, List.filter_cons]
      cases p a <;> cases p b <;> simp [hab]

lemma filter_sortedBy (p : α → Bool) (rows : List α) : (sortedBy f rows).filter p = sortedBy f (rows.filter p) := by
  induction rows with
  | nil => rfl
  | cons a rows ih =>
    have hinsert := filter_orderedInsert p a (sortedBy_pairwise (f := f) rows)
    rw [ih] at hinsert
    rw [sortedBy, List.insertionSort_cons, List.filter_cons]
    refine hinsert.trans ?_
    split <;> rfl

end Sorting

namespace Dict

variable {κ ν : Type*} [DecidableEq κ]

def append (d : Dict κ (List ν)) (k : κ) (v : ν) : Dict κ (List ν) := d.set k ((d.get? k).getD [] ++ [v])

lemma get?_append (d : Dict κ (List ν)) (k j : κ) (v : ν) :
    (d.append k v).get? j = if k = j then some ((d.get? j).getD [] ++ [v]) else d.get? j := by
  rw [append, get?_set]
  split
  · rename_i hk
    rw [hk]
  · rfl

lemma get?_group {f : ν → κ} (rows : List ν) {d : Dict κ (List ν)} {k : κ} {group : List ν}
    (hk : d.get? k = some group) :
    (rows.foldl (fun d row => d.append (f row) row) d).get? k = some (group ++ rows.filter (fun row => f row = k)) := by
  induction rows generalizing d group with
  | nil => simpa using hk
  | cons row rows ih =>
    by_cases hrow : f row = k
    · have hd : (d.append (f row) row).get? k = some (group ++ [row]) := by
        rw [get?_append, if_pos hrow, hk]
        rfl
      rw [List.foldl_cons, ih hd, List.filter_cons_of_pos (by simpa using hrow), List.append_assoc,
        List.singleton_append]
    · have hd : (d.append (f row) row).get? k = some group := by rw [get?_append, if_neg hrow, hk]
      rw [List.foldl_cons, ih hd, List.filter_cons_of_neg (by simpa using hrow)]

lemma get?_group_none {f : ν → κ} {rows : List ν} {d : Dict κ (List ν)} {k : κ} (hk : d.get? k = none)
    (hrows : ∀ row ∈ rows, f row ≠ k) : (rows.foldl (fun d row => d.append (f row) row) d).get? k = none := by
  induction rows generalizing d with
  | nil => exact hk
  | cons row rows ih =>
    obtain ⟨hrow, hrows⟩ := List.forall_mem_cons.mp hrows
    have hd : (d.append (f row) row).get? k = none := by rw [get?_append, if_neg hrow, hk]
    exact ih hd hrows

def ofKeys (keys : List κ) (v : ν) : Dict κ ν := keys.foldl (fun d k => d.set k v) empty

lemma get?_ofKeys (keys : List κ) (v : ν) (k : κ) : (ofKeys keys v).get? k = if k ∈ keys then some v else none := by
  have hfold (keys : List κ) (d : Dict κ ν) :
      (keys.foldl (fun d k => d.set k v) d).get? k = if k ∈ keys then some v else d.get? k := by
    induction keys generalizing d with
    | nil => simp
    | cons j keys ih =>
      rw [List.foldl_cons, ih, get?_set]
      by_cases hj : j = k
      · subst hj
        simp
      · have hkj : k ≠ j := fun h => hj h.symm
        simp [hj, hkj]
  exact hfold keys empty

lemma get?_write {ι : Type*} [DecidableEq ι] (groups : Dict κ ν) (i j : ι) (d : Dict (ι × κ) ν) (k : κ) :
    (groups.items.foldl (fun d e => d.set (i, e.1) e.2) d).get? (j, k) =
      if i = j then (groups.get? k).or (d.get? (j, k)) else d.get? (j, k) := by
  let es := groups.items.map (fun e => ((i, e.1), e.2))
  have hkeys : es.map Prod.fst = (groups.items.map Prod.fst).map (fun k => (i, k)) := by
    rw [List.map_map, List.map_map]
    rfl
  have hnodup : (es.map Prod.fst).Nodup := by
    rw [hkeys]
    exact groups.nodup.map (fun _ _ h => (Prod.mk.inj h).2)
  have hlookup (items : List (κ × ν)) :
      lookup (j, k) (items.map (fun e => ((i, e.1), e.2))) = if i = j then lookup k items else none := by
    induction items with
    | nil => simp [lookup]
    | cons e items ih =>
      rw [List.map_cons, lookup, ih, lookup]
      by_cases hij : i = j <;> simp [hij]
  have hfold : groups.items.foldl (fun d e => d.set (i, e.1) e.2) d = es.foldl (fun d e => d.set e.1 e.2) d := by
    rw [List.foldl_map]
  rw [hfold, get?_foldl_set es hnodup, hlookup]
  split <;> rfl

end Dict

end TheCargo.Foundation
