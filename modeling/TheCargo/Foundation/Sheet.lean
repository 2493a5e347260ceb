import TheCargo.Foundation.Pattern

namespace TheCargo.Foundation

variable {α β : Type} {mark brk : α} {rows before later : List (List α × List α)} {row : List α × List α}
  {a s t u v w : List α}

def rowText (mark : α) (row : List α × List α) : List α := row.1 ++ mark :: row.2

def sheet (mark brk : α) (rows : List (List α × List α)) : List α := List.intercalate [brk] (rows.map (rowText mark))

def above (mark brk : α) (rows : List (List α × List α)) : List α := rows.flatMap (fun row => rowText mark row ++ [brk])

def below (mark brk : α) (rows : List (List α × List α)) : List α := rows.flatMap (fun row => brk :: rowText mark row)

lemma sheet_cons (row : List α × List α) (rows : List (List α × List α)) :
    sheet mark brk (row :: rows) = rowText mark row ++ below mark brk rows := by
  rw [sheet, List.map_cons]
  induction rows generalizing row with
  | nil => rw [List.map_nil, List.intercalate_singleton, below, List.flatMap_nil, List.append_nil]
  | cons row' rows ih =>
    rw [List.map_cons, List.intercalate_cons_cons, ih row', below, below, List.flatMap_cons, List.append_assoc,
      List.singleton_append]
    rfl

lemma above_append (before later : List (List α × List α)) :
    above mark brk (before ++ later) = above mark brk before ++ above mark brk later := List.flatMap_append

lemma above_cons (row : List α × List α) (rows : List (List α × List α)) :
    above mark brk (row :: rows) = rowText mark row ++ brk :: above mark brk rows := by
  rw [above, List.flatMap_cons, List.append_assoc]
  rfl

lemma sheet_append_cons (before : List (List α × List α)) (row : List α × List α) (later : List (List α × List α)) :
    sheet mark brk (before ++ row :: later) = above mark brk before ++ (rowText mark row ++ below mark brk later) := by
  induction before with
  | nil => exact sheet_cons row later
  | cons r before ih =>
    have hbelow : below mark brk (before ++ row :: later) = brk :: sheet mark brk (before ++ row :: later) := by
      cases before with
      | nil => rw [List.nil_append, sheet_cons]; rfl
      | cons r' before => rw [List.cons_append, sheet_cons]; rfl
    rw [List.cons_append, sheet_cons, hbelow, ih, above_cons, List.append_assoc, List.cons_append]

lemma sheet_map (f : α → β) (rows : List (List α × List α)) :
    (sheet mark brk rows).map f = sheet (f mark) (f brk) (rows.map (Prod.map (List.map f) (List.map f))) := by
  have hrow : ∀ row : List α × List α,
      (rowText mark row).map f = rowText (f mark) (row.map (List.map f) (List.map f)) := by
    intro row
    rw [rowText, List.map_append, List.map_cons]
    rfl
  cases rows with
  | nil => rfl
  | cons row rows =>
    rw [List.map_cons, sheet_cons, sheet_cons, List.map_append, hrow]
    congr 1
    rw [below, below, List.map_flatMap, List.flatMap_map]
    exact List.flatMap_congr (fun row _ => congrArg (f brk :: ·) (hrow row))

lemma mem_sheet {c : α} (h : c ∈ sheet mark brk rows) : c = mark ∨ c = brk ∨ ∃ row ∈ rows, c ∈ row.1 ∨ c ∈ row.2 := by
  have hrow {row : List α × List α} (hrow : row ∈ rows) (hc : c ∈ rowText mark row) :
      c = mark ∨ c = brk ∨ ∃ row ∈ rows, c ∈ row.1 ∨ c ∈ row.2 := by
    rcases List.mem_append.mp hc with hc | hc
    · exact .inr (.inr ⟨row, hrow, .inl hc⟩)
    · rcases List.mem_cons.mp hc with rfl | hc
      · exact .inl rfl
      · exact .inr (.inr ⟨row, hrow, .inr hc⟩)
  cases rows with
  | nil => exact absurd h List.not_mem_nil
  | cons row rows =>
    rw [sheet_cons] at h
    rcases List.mem_append.mp h with h | h
    · exact hrow List.mem_cons_self h
    · obtain ⟨row', hrow', hc⟩ := List.mem_flatMap.mp h
      rcases List.mem_cons.mp hc with rfl | hc
      · exact .inr (.inl rfl)
      · exact hrow (List.mem_cons_of_mem _ hrow') hc

lemma past_of_append_eq (h : a ++ s = u ++ mark :: v) (ha : mark ∉ a) : ∃ w, u = a ++ w ∧ s = w ++ mark :: v := by
  rcases List.append_eq_append_iff.mp h with ⟨w, rfl, hs⟩ | ⟨w, rfl, hv⟩
  · exact ⟨w, rfl, hs⟩
  · cases w with
    | nil => exact ⟨[], by rw [List.append_nil, List.append_nil], hv.symm⟩
    | cons c w =>
      obtain ⟨rfl, -⟩ := List.cons.inj hv
      exact absurd (List.mem_append_right _ List.mem_cons_self) ha

lemma above_of_mark (hne : mark ≠ brk) (hrows : ∀ row ∈ rows, mark ∉ row.1 ∧ mark ∉ row.2)
    (h : sheet mark brk rows = u ++ mark :: v) :
    ∃ before row later, rows = before ++ row :: later ∧ u = above mark brk before ++ row.1 := by
  induction rows generalizing u with
  | nil => exact absurd h.symm (List.append_ne_nil_of_right_ne_nil _ (List.cons_ne_nil _ _))
  | cons row rows ih =>
    obtain ⟨⟨hhead, hrest⟩, hrows⟩ := List.forall_mem_cons.mp hrows
    rw [sheet_cons, rowText, List.append_assoc, List.cons_append] at h
    obtain ⟨w, rfl, hw⟩ := past_of_append_eq h hhead
    cases w with
    | nil => exact ⟨[], row, rows, rfl, List.append_nil _⟩
    | cons c w =>
      obtain ⟨rfl, htail⟩ := List.cons.inj hw
      obtain ⟨w, rfl, hnext⟩ := past_of_append_eq htail hrest
      cases rows with
      | nil => exact absurd hnext.symm (List.append_ne_nil_of_right_ne_nil _ (List.cons_ne_nil _ _))
      | cons row' rows =>
        have hbelow : [brk] ++ sheet mark brk (row' :: rows) = w ++ mark :: v := by
          rw [← hnext, sheet_cons]
          rfl
        obtain ⟨w, rfl, hlater⟩ := past_of_append_eq hbelow (by rwa [List.mem_singleton])
        obtain ⟨before, r, later, heq, rfl⟩ := ih hrows hlater
        refine ⟨row :: before, r, later, by rw [heq, List.cons_append], ?_⟩
        rw [above_cons, rowText]
        simp only [List.append_assoc, List.cons_append, List.nil_append]

lemma within_row (h : a ++ w = above mark brk before ++ s) (hw : brk ∉ w) :
    ∃ x, a = above mark brk before ++ x ∧ s = x ++ w := by
  rcases List.append_eq_append_iff.mp h with ⟨x, habove, rfl⟩ | ⟨x, rfl, rfl⟩
  · rcases List.eq_nil_or_concat' before with rfl | ⟨rows, row, rfl⟩
    · obtain ⟨rfl, rfl⟩ := List.append_eq_nil_iff.mp habove.symm
      exact ⟨[], rfl, rfl⟩
    · rcases List.eq_nil_or_concat' x with rfl | ⟨y, c, rfl⟩
      · exact ⟨[], by rw [List.append_nil, habove, List.append_nil], rfl⟩
      · rw [above_append, above_cons] at habove
        have hlast := congrArg List.getLast? habove
        simp only [above, List.flatMap_nil, ← List.append_assoc, List.getLast?_concat] at hlast
        obtain rfl := Option.some.inj hlast
        exact absurd (by simp) hw
  · exact ⟨x, rfl, rfl⟩

lemma same_or_apart {xs ys xs' ys' : List β} {x x' : β} (h : xs ++ x :: ys = xs' ++ x' :: ys') :
    (xs = xs' ∧ x = x') ∨ (∃ m, xs = xs' ++ x' :: m) ∨ ∃ m, xs' = xs ++ x :: m := by
  rcases List.append_eq_append_iff.mp h with ⟨m, rfl, hm⟩ | ⟨m, rfl, hm⟩
  · cases m with
    | nil => exact .inl ⟨(List.append_nil xs).symm, (List.cons.inj hm).1⟩
    | cons z m =>
      obtain ⟨rfl, -⟩ := List.cons.inj hm
      exact .inr (.inr ⟨m, rfl⟩)
  · cases m with
    | nil => exact .inl ⟨List.append_nil xs', (List.cons.inj hm).1.symm⟩
    | cons z m =>
      obtain ⟨rfl, -⟩ := List.cons.inj hm
      exact .inr (.inl ⟨m, rfl⟩)

end TheCargo.Foundation
