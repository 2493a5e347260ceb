import Mathlib.Data.List.Nodup
import Mathlib.Tactic.Common

/-! Dictionaries in insertion order: an update keeps an existing key in its place. -/

namespace TheCargo.Foundation

variable {κ ν : Type*} [DecidableEq κ]

def put (k : κ) (v : ν) : List (κ × ν) → List (κ × ν)
  | [] => [(k, v)]
  | (j, w) :: es => if j = k then (k, v) :: es else (j, w) :: put k v es

lemma put_keys (k : κ) (v : ν) (es : List (κ × ν)) :
    (put k v es).map Prod.fst =
      if k ∈ es.map Prod.fst then es.map Prod.fst else es.map Prod.fst ++ [k] := by
  induction es with
  | nil => simp [put]
  | cons e es ih =>
    obtain ⟨j, w⟩ := e
    by_cases hj : j = k
    · simp [put, hj]
    · have hk : k ≠ j := fun h => hj h.symm
      simp only [put, if_neg hj, List.map_cons, ih, List.mem_cons, hk, false_or]
      split <;> rfl

lemma put_nodup (k : κ) (v : ν) {es : List (κ × ν)} (h : (es.map Prod.fst).Nodup) :
    ((put k v es).map Prod.fst).Nodup := by
  rw [put_keys]
  split_ifs with hk
  · exact h
  · rw [List.nodup_append]
    refine ⟨h, List.nodup_singleton k, ?_⟩
    rintro a ha b hb rfl
    exact hk (List.mem_singleton.mp hb ▸ ha)

lemma mem_put {k : κ} {v : ν} {es : List (κ × ν)} {e : κ × ν} (h : e ∈ put k v es) : e ∈ es ∨ e = (k, v) := by
  induction es with
  | nil => exact Or.inr (List.mem_singleton.mp h)
  | cons d es ih =>
    obtain ⟨j, w⟩ := d
    rw [put] at h
    split at h
    · rcases List.mem_cons.mp h with rfl | h
      · exact Or.inr rfl
      · exact Or.inl (List.mem_cons_of_mem _ h)
    · rcases List.mem_cons.mp h with rfl | h
      · exact Or.inl List.mem_cons_self
      · exact (ih h).imp_left (List.mem_cons_of_mem _)

lemma put_fresh {k : κ} {es : List (κ × ν)} (h : k ∉ es.map Prod.fst) (v : ν) : put k v es = es ++ [(k, v)] := by
  induction es with
  | nil => rfl
  | cons e es ih =>
    obtain ⟨j, w⟩ := e
    rw [List.map_cons, List.mem_cons, not_or] at h
    rw [put, if_neg (fun he => h.1 he.symm), ih h.2, List.cons_append]

def lookup (k : κ) : List (κ × ν) → Option ν
  | [] => none
  | (j, w) :: es => if j = k then some w else lookup k es

lemma lookup_put (k j : κ) (v : ν) (es : List (κ × ν)) :
    lookup j (put k v es) = if k = j then some v else lookup j es := by
  induction es with
  | nil => rfl
  | cons e es ih =>
    obtain ⟨i, w⟩ := e
    by_cases hi : i = k
    · subst hi
      by_cases hj : i = j <;> simp [put, lookup, hj]
    · simp only [put, if_neg hi, lookup, ih]
      by_cases hk : k = j
      · subst hk
        simp [hi]
      · simp [hk]

lemma filter_key (k : κ) {es : List (κ × ν)} (h : (es.map Prod.fst).Nodup) :
    es.filter (fun e => e.1 = k) = ((lookup k es).map (fun v => (k, v))).toList := by
  induction es with
  | nil => rfl
  | cons e es ih =>
    obtain ⟨j, w⟩ := e
    rw [List.map_cons, List.nodup_cons] at h
    by_cases hj : j = k
    · subst hj
      have hn : es.filter (fun e => e.1 = j) = [] := by
        apply List.filter_eq_nil_iff.mpr
        intro e he hk
        exact h.1 (List.mem_map.mpr ⟨e, he, of_decide_eq_true hk⟩)
      simp [lookup, hn]
    · simp [lookup, hj, ih h.2]

lemma lookup_eq_none {k : κ} {es : List (κ × ν)} (h : k ∉ es.map Prod.fst) : lookup k es = none := by
  induction es with
  | nil => rfl
  | cons e es ih =>
    obtain ⟨j, w⟩ := e
    rw [List.map_cons, List.mem_cons, not_or] at h
    rw [lookup, if_neg (fun he => h.1 he.symm), ih h.2]

lemma mem_iff_lookup {k : κ} {v : ν} {es : List (κ × ν)} (h : (es.map Prod.fst).Nodup) :
    (k, v) ∈ es ↔ lookup k es = some v := by
  have hfilter : (k, v) ∈ es.filter (fun e => e.1 = k) ↔ (k, v) ∈ es := by simp
  rw [← hfilter, filter_key k h, Option.mem_toList]
  simp

lemma lookup_filter {p : κ → Bool} {k : κ} (hk : p k = true) (es : List (κ × ν)) :
    lookup k (es.filter (fun e => p e.1)) = lookup k es := by
  induction es with
  | nil => rfl
  | cons e es ih =>
    obtain ⟨j, w⟩ := e
    by_cases hj : j = k
    · subst hj
      simp [hk, lookup]
    · rw [List.filter_cons, lookup, if_neg hj, ← ih]
      split
      · rw [lookup, if_neg hj]
      · rfl

lemma put_filter (p : κ → Bool) (k : κ) (v : ν) (es : List (κ × ν)) :
    (put k v es).filter (fun e => p e.1) =
      if p k then put k v (es.filter (fun e => p e.1)) else es.filter (fun e => p e.1) := by
  induction es with
  | nil => cases hk : p k <;> simp [put, hk]
  | cons e es ih =>
    obtain ⟨j, w⟩ := e
    by_cases hj : j = k
    · subst hj
      cases hk : p j <;> simp [put, hk]
    · rw [put, if_neg hj, List.filter_cons, ih]
      cases hk : p k <;> cases hp : p j <;> simp [put, hj, hp]

lemma lookup_of_same {k : κ} {v : ν} {es : List (κ × ν)} (hk : k ∈ es.map Prod.fst) (h : ∀ e ∈ es, e.1 = k → e.2 = v) :
    lookup k es = some v := by
  induction es with
  | nil => cases hk
  | cons e es ih =>
    obtain ⟨j, w⟩ := e
    rw [lookup]
    split
    · rename_i hj
      exact congrArg some (h (j, w) List.mem_cons_self hj)
    · rename_i hj
      refine ih ?_ (fun e he => h e (List.mem_cons_of_mem _ he))
      exact (List.mem_cons.mp hk).resolve_left (fun hkj => hj hkj.symm)

lemma lookup_map {k : κ} {ks : List κ} (f : κ → ν) (h : k ∈ ks) :
    lookup k (ks.map (fun j => (j, f j))) = some (f k) := by
  induction ks with
  | nil => cases h
  | cons j ks ih =>
    rw [List.map_cons, lookup]
    split
    · rename_i hj
      rw [hj]
    · rename_i hj
      exact ih ((List.mem_cons.mp h).resolve_left (fun hk => hj hk.symm))

structure Dict (κ ν : Type*) where
  items : List (κ × ν)
  nodup : (items.map Prod.fst).Nodup

namespace Dict

def empty : Dict κ ν := ⟨[], List.nodup_nil⟩

def get? (d : Dict κ ν) (k : κ) : Option ν := lookup k d.items

def set (d : Dict κ ν) (k : κ) (v : ν) : Dict κ ν := ⟨put k v d.items, put_nodup k v d.nodup⟩

lemma items_set (d : Dict κ ν) (k : κ) (v : ν) : (d.set k v).items = put k v d.items := rfl

@[simp] lemma get?_set (d : Dict κ ν) (k j : κ) (v : ν) :
    (d.set k v).get? j = if k = j then some v else d.get? j :=
  lookup_put k j v d.items

def merge (d e : Dict κ ν) : Dict κ ν := e.items.foldl (fun d e => d.set e.1 e.2) d

lemma get?_foldl_set (es : List (κ × ν)) (h : (es.map Prod.fst).Nodup) (d : Dict κ ν) (k : κ) :
    (es.foldl (fun d e => d.set e.1 e.2) d).get? k = (lookup k es).or (d.get? k) := by
  induction es generalizing d with
  | nil => rfl
  | cons e es ih =>
    obtain ⟨j, w⟩ := e
    obtain ⟨hj, hn⟩ := List.nodup_cons.mp h
    rw [List.foldl_cons, ih hn, get?_set]
    by_cases hk : j = k
    · subst hk
      simp [lookup, lookup_eq_none hj]
    · simp [lookup, hk]

lemma get?_merge (d e : Dict κ ν) (k : κ) : (d.merge e).get? k = (e.get? k).or (d.get? k) :=
  get?_foldl_set e.items e.nodup d k

lemma mem_items {d : Dict κ ν} {k : κ} {v : ν} : (k, v) ∈ d.items ↔ d.get? k = some v := mem_iff_lookup d.nodup

lemma items_at (d : Dict κ ν) (k : κ) :
    d.items.filter (fun e => e.1 = k) = ((d.get? k).map (fun v => (k, v))).toList :=
  filter_key k d.nodup

end Dict

end TheCargo.Foundation
