import TheCargo.Foundation.Leader

/-! A stable sort by a comparison that may fail and need not be an order. -/

namespace TheCargo.Foundation

variable {α κ : Type*} [LinearOrder κ]

def insertBy (less : α → α → Option Bool) (a : α) : List α → Option (List α)
  | [] => some [a]
  | b :: rest => (less b a).bind (fun lt => if lt then (insertBy less a rest).map (b :: ·) else some (a :: b :: rest))

def sortBy (less : α → α → Option Bool) : List α → Option (List α)
  | [] => some []
  | a :: rest => (sortBy less rest).bind (insertBy less a)

def Consistent (less : α → α → Option Bool) (xs : List α) : Prop :=
  ∀ a ∈ xs, ∀ b ∈ xs, ∀ c ∈ xs, less b a = some false → less c b = some false → less c a = some false

variable {less : α → α → Option Bool} {a b : α} {xs ys : List α}

lemma Consistent.tail (h : Consistent less (a :: xs)) : Consistent less xs :=
  fun b hb c hc d hd =>
    h b (List.mem_cons_of_mem _ hb) c (List.mem_cons_of_mem _ hc) d (List.mem_cons_of_mem _ hd)

lemma Consistent.perm (h : Consistent less xs) (hperm : ys.Perm xs) : Consistent less ys :=
  fun a ha b hb c hc => h a (hperm.subset ha) b (hperm.subset hb) c (hperm.subset hc)

lemma insertBy_cons_eq_some (h : insertBy less a (b :: xs) = some ys) :
    (less b a = some true ∧ ∃ zs, insertBy less a xs = some zs ∧ ys = b :: zs) ∨
      (less b a = some false ∧ ys = a :: b :: xs) := by
  obtain ⟨lt, hlt, h⟩ := Option.bind_eq_some_iff.mp h
  cases lt with
  | false =>
    rw [if_neg Bool.false_ne_true] at h
    exact .inr ⟨hlt, (Option.some.inj h).symm⟩
  | true =>
    rw [if_pos rfl] at h
    obtain ⟨zs, hzs, rfl⟩ := Option.map_eq_some_iff.mp h
    exact .inl ⟨hlt, zs, hzs, rfl⟩

lemma insertBy_perm (h : insertBy less a xs = some ys) : ys.Perm (a :: xs) := by
  induction xs generalizing ys with
  | nil => rw [← Option.some.inj h]
  | cons b rest ih =>
    rcases insertBy_cons_eq_some h with ⟨-, zs, hzs, rfl⟩ | ⟨-, rfl⟩
    · exact ((ih hzs).cons b).trans (List.Perm.swap a b rest)
    · exact List.Perm.refl _

lemma sortBy_perm (h : sortBy less xs = some ys) : ys.Perm xs := by
  induction xs generalizing ys with
  | nil => rw [← Option.some.inj h]
  | cons a rest ih =>
    obtain ⟨zs, hzs, h⟩ := Option.bind_eq_some_iff.mp h
    exact (insertBy_perm h).trans ((ih hzs).cons a)

lemma sublist_of_insertBy (h : insertBy less a xs = some ys) : xs.Sublist ys := by
  induction xs generalizing ys with
  | nil => exact List.nil_sublist ys
  | cons b rest ih =>
    rcases insertBy_cons_eq_some h with ⟨-, zs, hzs, rfl⟩ | ⟨-, rfl⟩
    · exact (ih hzs).cons_cons b
    · exact List.sublist_cons_self a _

lemma insertBy_before (h : insertBy less a xs = some ys) (hb : b ∈ xs) (hle : less b a = some false) :
    [a, b].Sublist ys := by
  induction xs generalizing ys with
  | nil => cases hb
  | cons c rest ih =>
    rcases insertBy_cons_eq_some h with ⟨hlt, zs, hzs, rfl⟩ | ⟨-, rfl⟩
    · rcases List.mem_cons.mp hb with rfl | hb
      · rw [hle] at hlt
        cases hlt
      · exact (ih hzs hb).cons c
    · exact (List.singleton_sublist.mpr hb).cons_cons a

lemma sortBy_before (h : sortBy less xs = some ys) (hpair : [a, b].Sublist xs) (hle : less b a = some false) :
    [a, b].Sublist ys := by
  induction xs generalizing ys with
  | nil => cases hpair
  | cons c rest ih =>
    obtain ⟨zs, hzs, h⟩ := Option.bind_eq_some_iff.mp h
    cases hpair with
    | cons _ hpair => exact (ih hzs hpair).trans (sublist_of_insertBy h)
    | cons_cons _ hpair =>
      have hb : b ∈ zs := (sortBy_perm hzs).symm.subset (List.singleton_sublist.mp hpair)
      exact insertBy_before h hb hle

lemma insertBy_pairwise (hasymm : ∀ a b, less a b = some true → less b a = some false)
    (hless : Consistent less (a :: xs)) (h : insertBy less a xs = some ys)
    (hxs : xs.Pairwise (fun a b => less b a = some false)) : ys.Pairwise (fun a b => less b a = some false) := by
  induction xs generalizing ys with
  | nil =>
    rw [← Option.some.inj h]
    exact List.pairwise_singleton _ a
  | cons b rest ih =>
    obtain ⟨hb, hrest⟩ := List.pairwise_cons.mp hxs
    rcases insertBy_cons_eq_some h with ⟨hlt, zs, hzs, rfl⟩ | ⟨hle, rfl⟩
    · refine List.pairwise_cons.mpr ⟨fun c hc => ?_, ih ?_ hzs hrest⟩
      · rcases List.mem_cons.mp ((insertBy_perm hzs).subset hc) with rfl | hc
        · exact hasymm b c hlt
        · exact hb c hc
      · exact (hless.perm (List.Perm.swap a b rest)).tail
    · refine List.pairwise_cons.mpr ⟨fun c hc => ?_, hxs⟩
      rcases List.mem_cons.mp hc with rfl | hrest
      · exact hle
      · exact hless a List.mem_cons_self b (by simp) c (List.mem_cons_of_mem _ hc) hle (hb c hrest)

lemma sortBy_pairwise (hasymm : ∀ a b, less a b = some true → less b a = some false) (hless : Consistent less xs)
    (h : sortBy less xs = some ys) : ys.Pairwise (fun a b => less b a = some false) := by
  induction xs generalizing ys with
  | nil =>
    rw [← Option.some.inj h]
    exact List.Pairwise.nil
  | cons a rest ih =>
    obtain ⟨zs, hzs, h⟩ := Option.bind_eq_some_iff.mp h
    exact insertBy_pairwise hasymm (hless.perm ((sortBy_perm hzs).cons a)) h (ih hless.tail hzs)

section Kinds

variable {kind : α → Bool} (hkind : ∀ a b, less a b = none ↔ kind a ≠ kind b)
include hkind

lemma insertBy_isSome (h : ∀ b ∈ xs, kind b = kind a) : ∃ ys, insertBy less a xs = some ys := by
  induction xs with
  | nil => exact ⟨_, rfl⟩
  | cons b rest ih =>
    obtain ⟨hb, hrest⟩ := List.forall_mem_cons.mp h
    obtain ⟨zs, hzs⟩ := ih hrest
    obtain ⟨lt, hlt⟩ := Option.ne_none_iff_exists'.mp (fun hnone => (hkind b a).mp hnone hb)
    rw [insertBy, hlt, hzs]
    cases lt <;> exact ⟨_, rfl⟩

lemma sortBy_isSome (h : ∀ a ∈ xs, ∀ b ∈ xs, kind a = kind b) : ∃ ys, sortBy less xs = some ys := by
  induction xs with
  | nil => exact ⟨_, rfl⟩
  | cons a rest ih =>
    obtain ⟨zs, hzs⟩ := ih (fun b hb c hc => h b (List.mem_cons_of_mem _ hb) c (List.mem_cons_of_mem _ hc))
    rw [sortBy, hzs]
    apply insertBy_isSome hkind
    intro b hb
    exact h b (List.mem_cons_of_mem _ ((sortBy_perm hzs).subset hb)) a List.mem_cons_self

lemma sortBy_mixed (h : ∃ a ∈ xs, ∃ b ∈ xs, kind a ≠ kind b) : sortBy less xs = none := by
  induction xs with
  | nil =>
    obtain ⟨a, ha, -⟩ := h
    cases ha
  | cons a rest ih =>
    by_cases hrest : ∃ b ∈ rest, ∃ c ∈ rest, kind b ≠ kind c
    · rw [sortBy, ih hrest]
      rfl
    · push Not at hrest
      have hother : ∃ b ∈ rest, kind b ≠ kind a := by
        obtain ⟨b, hb, c, hc, hne⟩ := h
        by_contra hsame
        push Not at hsame
        have hall : ∀ d ∈ a :: rest, kind d = kind a := List.forall_mem_cons.mpr ⟨rfl, hsame⟩
        exact hne ((hall b hb).trans (hall c hc).symm)
      obtain ⟨b, hb, hne⟩ := hother
      obtain ⟨zs, hzs⟩ := sortBy_isSome hkind hrest
      rw [sortBy, hzs, Option.bind_some]
      cases zs with
      | nil => exact absurd ((sortBy_perm hzs).symm.subset hb) List.not_mem_nil
      | cons c cs =>
        have hc : c ∈ rest := (sortBy_perm hzs).subset List.mem_cons_self
        have hca : kind c ≠ kind a := fun heq => hne ((hrest b hb c hc).trans heq)
        rw [insertBy, (hkind c a).mpr hca, Option.bind_none]

end Kinds

section Places

variable {place : α → κ}

lemma insertBy_eq_orderedInsert (h : ∀ b ∈ xs, less b a = some (decide (place b < place a))) :
    insertBy less a xs = some (xs.orderedInsert (fun a b => place a ≤ place b) a) := by
  induction xs with
  | nil => rfl
  | cons b rest ih =>
    obtain ⟨hb, hrest⟩ := List.forall_mem_cons.mp h
    rw [insertBy, hb, Option.bind_some, ih hrest, List.orderedInsert_cons]
    by_cases hlt : place b < place a
    · rw [if_neg (not_le.mpr hlt)]
      simp [hlt]
    · rw [if_pos (not_lt.mp hlt)]
      simp [hlt]

lemma sortBy_eq_sortedBy (h : xs.Pairwise (fun a b => less b a = some (decide (place b < place a)))) :
    sortBy less xs = some (sortedBy place xs) := by
  induction xs with
  | nil => rfl
  | cons a rest ih =>
    obtain ⟨ha, hrest⟩ := List.pairwise_cons.mp h
    rw [sortBy, ih hrest, Option.bind_some]
    exact insertBy_eq_orderedInsert (fun b hb => ha b ((List.mem_insertionSort _).mp hb))

lemma pair_or_pair (ha : a ∈ xs) (hb : b ∈ xs) (hne : a ≠ b) : [a, b].Sublist xs ∨ [b, a].Sublist xs := by
  obtain ⟨before, after, rfl⟩ := List.append_of_mem ha
  rcases List.mem_append.mp hb with hb | hb
  · refine .inr ?_
    have hleft : [b].Sublist before := List.singleton_sublist.mpr hb
    exact hleft.append (List.singleton_sublist.mpr List.mem_cons_self)
  · rcases List.mem_cons.mp hb with rfl | hb
    · exact absurd rfl hne
    · refine .inl ?_
      have hright : [a, b].Sublist (a :: after) := (List.singleton_sublist.mpr hb).cons_cons a
      exact hright.trans (List.sublist_append_right before _)

lemma rel_of_pair {r : α → α → Prop} (hxs : xs.Pairwise r) (h : [a, b].Sublist xs) : r a b :=
  (List.pairwise_cons.mp (hxs.sublist h)).1 b (by simp)

lemma less_of_sorted (hasymm : ∀ a b, less a b = some true → less b a = some false) (hless : Consistent less xs)
    (h : sortBy less xs = some ys) (hplaces : ys.Pairwise (fun a b => place a ≤ place b))
    (hties : ∀ k, ys.filter (fun a => place a = k) = xs.filter (fun a => place a = k)) (hpair : [a, b].Sublist xs)
    (hsome : less b a ≠ none) : less b a = some (decide (place b < place a)) := by
  have hsorted := sortBy_pairwise hasymm hless h
  obtain ⟨lt, hlt⟩ := Option.ne_none_iff_exists'.mp hsome
  cases lt with
  | false =>
    have hle : place a ≤ place b :=
      rel_of_pair (r := fun a b => place a ≤ place b) hplaces (sortBy_before h hpair hlt)
    rw [hlt, decide_eq_false (not_lt.mpr hle)]
  | true =>
    have hapart : ¬ [a, b].Sublist ys := by
      intro hout
      have hback := rel_of_pair (r := fun a b => less b a = some false) hsorted hout
      rw [hlt] at hback
      cases hback
    have ha : a ∈ ys := (sortBy_perm h).symm.subset (hpair.subset (by simp))
    have hb : b ∈ ys := (sortBy_perm h).symm.subset (hpair.subset (by simp))
    have hne : a ≠ b := by
      rintro rfl
      have hself := hasymm a a hlt
      rw [hlt] at hself
      cases hself
    have hle : place b ≤ place a :=
      rel_of_pair (r := fun a b => place a ≤ place b) hplaces ((pair_or_pair ha hb hne).resolve_left hapart)
    have htie : place b ≠ place a := by
      intro htie
      have hkept := hpair.filter (fun c => place c = place a)
      rw [List.filter_cons_of_pos (by simp), List.filter_cons_of_pos (by simp [htie]), List.filter_nil,
        ← hties] at hkept
      exact hapart (hkept.trans List.filter_sublist)
    rw [hlt, decide_eq_true (lt_of_le_of_ne hle htie)]

end Places

end TheCargo.Foundation
