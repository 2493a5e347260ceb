import TheCargo.Foundation.EditDistance
import TheCargo.Foundation.Nearest
import TheCargo.Templating.Registry

namespace TheCargo.Templating

open Foundation

/-- `curr[j]`, from the row before and what stands left of it. -/
def cell (prev curr : List ℕ) (ca cb : Char) (j : ℕ) : ℕ :=
  min (min (prev.getD j 0 + 1) (curr.getD (j - 1) 0 + 1)) (prev.getD (j - 1) 0 + if ca = cb then 0 else 1)

def nextRow (b : List Char) (prev : List ℕ) (ca : Char) (i : ℕ) : List ℕ :=
  (b.zipIdx 1).foldl (fun curr cb => curr.set cb.2 (cell prev curr ca cb.1 cb.2)) (i :: List.replicate b.length 0)

def lastRow (a b : List Char) : List ℕ :=
  (a.zipIdx 1).foldl (fun prev ca => nextRow b prev ca.1 ca.2) (List.range (b.length + 1))

def levenshtein (a b : List Char) : ℕ :=
  if a = b then 0
  else if a = [] then b.length
  else if b = [] then a.length
  else (lastRow a b).getLast?.getD 0

/-- `max_distance` is 3 where it is not given. -/
def suggestCorrection (unknownPath : String) (maxDistance : ℤ) : Option String :=
  (nearest (fun path => (levenshtein unknownPath.toList path.toList : ℤ)) maxDistance registry).map Prod.snd

structure IsRow (front b : List Char) (column : ℕ) (row : List ℕ) : Prop where
  length : row.length = b.length + 1
  cell : ∀ j ≤ column, row[j]? = some (editDistance front (b.take j).reverse)

variable {front b read rest : List Char} {ca cb : Char} {prev curr row : List ℕ} {j column : ℕ}

lemma isRow_first (b : List Char) : IsRow [] b b.length (List.range (b.length + 1)) where
  length := List.length_range
  cell j hj := by
    rw [List.getElem?_range (by omega), editDistance_nil_left, List.length_reverse, List.length_take,
      Nat.min_eq_left hj]

lemma isRow_start (front b : List Char) : IsRow front b 0 (front.length :: List.replicate b.length 0) where
  length := by rw [List.length_cons, List.length_replicate]
  cell j hj := by
    obtain rfl := Nat.le_zero.mp hj
    rw [List.take_zero, List.reverse_nil, editDistance_nil_right]
    rfl

lemma IsRow.getD (h : IsRow front b column row) (hj : j ≤ column) :
    row.getD j 0 = editDistance front (b.take j).reverse := by
  rw [List.getD_eq_getElem?_getD, h.cell j hj, Option.getD_some]

lemma take_read (h : b = read ++ cb :: rest) : (b.take (read.length + 1)).reverse = cb :: read.reverse := by
  rw [h, List.take_append, List.take_of_length_le (Nat.le_succ _), Nat.add_sub_cancel_left, List.take_succ_cons,
    List.take_zero, List.reverse_append]
  rfl

lemma cell_eq (hprev : IsRow front b b.length prev) (hcurr : IsRow (ca :: front) b read.length curr)
    (hb : b = read ++ cb :: rest) : cell prev curr ca cb (read.length + 1) =
      editDistance (ca :: front) (b.take (read.length + 1)).reverse := by
  have hlen : read.length + 1 ≤ b.length := by
    rw [hb, List.length_append, List.length_cons]
    omega
  have hread : b.take read.length = read := by rw [hb, List.take_left]
  rw [cell, hprev.getD hlen, Nat.add_sub_cancel, hcurr.getD le_rfl, hprev.getD (by omega), take_read hb, hread,
    editDistance_cons]

lemma isRow_set (hcurr : IsRow front b read.length curr) (hb : b = read ++ cb :: rest) :
    IsRow front b (read ++ [cb]).length
      (curr.set (read.length + 1) (editDistance front (b.take (read.length + 1)).reverse)) where
  length := by rw [List.length_set, hcurr.length]
  cell k hk := by
    rw [List.length_append, List.length_singleton] at hk
    by_cases heq : k = read.length + 1
    · have hlen : read.length + 1 < curr.length := by
        rw [hcurr.length, hb, List.length_append, List.length_cons]
        omega
      rw [heq, List.getElem?_set_self hlen]
    · rw [List.getElem?_set_ne (Ne.symm heq), hcurr.cell k (by omega)]

lemma isRow_inner (read : List Char) (hprev : IsRow front b b.length prev)
    (hcurr : IsRow (ca :: front) b read.length curr) (hb : b = read ++ rest) : IsRow (ca :: front) b b.length
      ((rest.zipIdx (read.length + 1)).foldl (fun curr cb => curr.set cb.2 (cell prev curr ca cb.1 cb.2)) curr) := by
  induction rest generalizing read curr with
  | nil =>
    rw [List.append_nil] at hb
    rw [hb] at hcurr ⊢
    exact hcurr
  | cons cb rest ih =>
    have hstep := isRow_set hcurr hb
    rw [← cell_eq hprev hcurr hb] at hstep
    have hrest := ih (read ++ [cb]) hstep (by rw [hb, List.append_assoc, List.singleton_append])
    rwa [List.length_append, List.length_singleton] at hrest

lemma isRow_next (hprev : IsRow front b b.length prev) (ca : Char) :
    IsRow (ca :: front) b b.length (nextRow b prev ca (front.length + 1)) :=
  isRow_inner [] hprev (isRow_start (ca :: front) b) rfl

lemma isRow_outer (read : List Char) (hprev : IsRow read.reverse b b.length prev) :
    IsRow (read ++ rest).reverse b b.length
      ((rest.zipIdx (read.length + 1)).foldl (fun prev ca => nextRow b prev ca.1 ca.2) prev) := by
  induction rest generalizing read prev with
  | nil => rwa [List.append_nil]
  | cons ca rest ih =>
    have hnext := isRow_next hprev ca
    rw [List.length_reverse, ← List.reverse_concat] at hnext
    have hrest := ih (read ++ [ca]) hnext
    rwa [List.append_assoc, List.singleton_append, List.length_append, List.length_singleton] at hrest

lemma lastRow_getLast (a b : List Char) :
    (lastRow a b).getLast?.getD 0 = editDistance a.reverse b.reverse := by
  have hrow : IsRow a.reverse b b.length (lastRow a b) := isRow_outer [] (isRow_first b)
  rw [List.getLast?_eq_getElem?, hrow.length, Nat.add_sub_cancel, hrow.cell b.length le_rfl, Option.getD_some,
    List.take_length]

lemma levenshtein_eq (a b : List Char) : levenshtein a b = editDistance a.reverse b.reverse := by
  rw [levenshtein]
  split
  · rename_i h
    rw [h, editDistance_self]
  · split
    · rename_i h
      rw [h, List.reverse_nil, editDistance_nil_left, List.length_reverse]
    · split
      · rename_i h
        rw [h, List.reverse_nil, editDistance_nil_right, List.length_reverse]
      · exact lastRow_getLast a b

lemma isLeast_levenshtein (a b : List Char) : IsLeast {n | Edits n a b} (levenshtein a b) := by
  have hleast := isLeast_editDistance a.reverse b.reverse
  simp only [edits_reverse_iff] at hleast
  rwa [levenshtein_eq]

lemma isNearest_cast {f : String → ℕ} {paths : List String} {path : String}
    (h : IsNearest (fun p => (f p : ℤ)) paths path) : IsNearest f paths path := by
  obtain ⟨l, r, hsplit, hl, hr⟩ := h
  exact ⟨l, r, hsplit, fun q hq => Int.ofNat_lt.mp (hl q hq), fun q hq => Int.ofNat_le.mp (hr q hq)⟩

lemma registry_ne_nil : registry ≠ [] :=
  List.append_ne_nil_of_right_ne_nil _ (List.cons_ne_nil _ _)

theorem suggestCorrection_nearest (a b : List Char) (unknownPath : String) (maxDistance : ℤ) :
    IsLeast {n | Edits n a b} (levenshtein a b) ∧
      ∃ path, IsNearest (fun p => levenshtein unknownPath.toList p.toList) registry path ∧
        suggestCorrection unknownPath maxDistance =
          if (levenshtein unknownPath.toList path.toList : ℤ) ≤ maxDistance then some path else none := by
  refine ⟨isLeast_levenshtein a b, ?_⟩
  obtain ⟨path, hpath, hbest⟩ := nearest_spec
    (fun path => (levenshtein unknownPath.toList path.toList : ℤ)) maxDistance registry_ne_nil
  refine ⟨path, isNearest_cast hpath, ?_⟩
  rw [suggestCorrection, hbest]
  split
  · rfl
  · rfl

end TheCargo.Templating
