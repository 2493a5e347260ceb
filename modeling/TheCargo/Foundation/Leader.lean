import TheCargo.Foundation.Fallible
import TheCargo.Foundation.Grouping

namespace TheCargo.Foundation

variable {α β κ : Type*} [LinearOrder κ] {key : α → κ}

def overtake (key : α → κ) (best : Option α) (a : α) : Option α :=
  match best with
  | none => some a
  | some b => if key b < key a then some a else some b

def leader (key : α → κ) (xs : List α) : Option α := xs.foldl (overtake key) none

def Leads (key : α → κ) (xs : List α) (a : α) : Prop :=
  ∃ before after, xs = before ++ a :: after ∧ (∀ b ∈ before, key b < key a) ∧ ∀ b ∈ after, key b ≤ key a

lemma Leads.mem {xs : List α} {a : α} (h : Leads key xs a) : a ∈ xs := by
  obtain ⟨before, after, rfl, -, -⟩ := h
  simp

lemma Leads.le {xs : List α} {a : α} (h : Leads key xs a) : ∀ b ∈ xs, key b ≤ key a := by
  obtain ⟨before, after, rfl, hbefore, hafter⟩ := h
  intro b hb
  rcases List.mem_append.mp hb with hb | hb
  · exact (hbefore b hb).le
  · rcases List.mem_cons.mp hb with rfl | hb
    · exact le_rfl
    · exact hafter b hb

lemma leader_concat (xs : List α) (a : α) : leader key (xs ++ [a]) = overtake key (leader key xs) a := by
  rw [leader, List.foldl_append]
  rfl

lemma leader_eq_none {xs : List α} : leader key xs = none ↔ xs = [] := by
  induction xs using List.reverseRecOn with
  | nil => exact ⟨fun _ => rfl, fun _ => rfl⟩
  | append_singleton xs a _ =>
    rw [leader_concat]
    cases leader key xs with
    | none => simp [overtake]
    | some b => by_cases h : key b < key a <;> simp [overtake, h]

lemma leads_of_leader {xs : List α} {a : α} (h : leader key xs = some a) : Leads key xs a := by
  induction xs using List.reverseRecOn generalizing a with
  | nil => simp [leader] at h
  | append_singleton xs c ih =>
    rw [leader_concat] at h
    cases hb : leader key xs with
    | none =>
      obtain rfl := leader_eq_none.mp hb
      rw [hb, overtake] at h
      obtain rfl := Option.some.inj h
      exact ⟨[], [], rfl, by simp, by simp⟩
    | some b =>
      have hlead := ih hb
      rw [hb, overtake] at h
      split at h
      · next hlt =>
        obtain rfl := Option.some.inj h
        exact ⟨xs, [], rfl, fun d hd => (hlead.le d hd).trans_lt hlt, by simp⟩
      · next hnot =>
        obtain rfl := Option.some.inj h
        obtain ⟨before, after, rfl, hbefore, hafter⟩ := hlead
        refine ⟨before, after ++ [c], by simp, hbefore, ?_⟩
        intro d hd
        rcases List.mem_append.mp hd with hd | hd
        · exact hafter d hd
        · exact (List.mem_singleton.mp hd) ▸ not_lt.mp hnot

lemma exists_leader_gt {xs : List α} {k : κ} : (∃ a, leader key xs = some a ∧ k < key a) ↔ ∃ a ∈ xs, k < key a := by
  constructor
  · rintro ⟨a, ha, hlt⟩
    exact ⟨a, (leads_of_leader ha).mem, hlt⟩
  · rintro ⟨b, hb, hlt⟩
    cases ha : leader key xs with
    | none => exact absurd (leader_eq_none.mp ha ▸ hb) (by simp)
    | some a => exact ⟨a, rfl, hlt.trans_le ((leads_of_leader ha).le b hb)⟩

lemma Leads.pull {R : β → α → Prop} {key' : β → κ} (hkey : ∀ b a, R b a → key' b = key a) {ys : List β} {xs : List α}
    (h : List.Forall₂ R ys xs) {a : α} (hlead : Leads key xs a) : ∃ b, R b a ∧ Leads key' ys b := by
  obtain ⟨before, after, rfl, hbefore, hafter⟩ := hlead
  have hleft := List.forall₂_take_append ys before (a :: after) h
  have hright := List.forall₂_drop_append ys before (a :: after) h
  obtain ⟨b, rest, hb, hrest, hdrop⟩ := List.forall₂_cons_right_iff.mp hright
  refine ⟨b, hb, ys.take before.length, rest, ?_, ?_, ?_⟩
  · rw [← hdrop, List.take_append_drop]
  · intro c hc
    obtain ⟨d, hd, hR⟩ := forall₂_mem hleft hc
    rw [hkey c d hR, hkey b a hb]
    exact hbefore d hd
  · intro c hc
    obtain ⟨d, hd, hR⟩ := forall₂_mem hrest hc
    rw [hkey c d hR, hkey b a hb]
    exact hafter d hd

lemma sortedBy_eq_self {xs : List α} (h : xs.Pairwise (fun a b => key a ≤ key b)) : sortedBy key xs = xs :=
  h.insertionSort_eq

lemma sortedBy_filter_key (xs : List α) (k : κ) :
    (sortedBy key xs).filter (fun a => key a = k) = xs.filter (fun a => key a = k) := by
  rw [filter_sortedBy]
  apply sortedBy_eq_self
  apply List.pairwise_of_forall_mem_list
  intro a ha b hb
  rw [of_decide_eq_true (List.mem_filter.mp ha).2, of_decide_eq_true (List.mem_filter.mp hb).2]

def sortedDown (key : α → κ) (xs : List α) : List α := sortedBy (fun a => OrderDual.toDual (key a)) xs

variable (key) in
lemma sortedDown_perm (xs : List α) : (sortedDown key xs).Perm xs := List.perm_insertionSort _ xs

variable (key) in
lemma sortedDown_pairwise (xs : List α) : (sortedDown key xs).Pairwise (fun a b => key b ≤ key a) :=
  sortedBy_pairwise (f := fun a => OrderDual.toDual (key a)) xs

lemma sortedDown_filter_key (xs : List α) (k : κ) :
    (sortedDown key xs).filter (fun a => key a = k) = xs.filter (fun a => key a = k) :=
  sortedBy_filter_key xs (OrderDual.toDual k)

lemma filter_head {xs : List α} {a : α} (h : Leads key xs a) :
    (xs.filter (fun b => key b = key a)).head? = some a := by
  obtain ⟨before, after, rfl, hbefore, -⟩ := h
  have hnil : before.filter (fun b => key b = key a) = [] := by
    rw [List.filter_eq_nil_iff]
    intro b hb
    simpa using (hbefore b hb).ne
  rw [List.filter_append, hnil, List.nil_append, List.filter_cons_of_pos (by simp), List.head?_cons]

lemma head_of_leads {xs : List α} {a : α} (h : Leads key xs a) : (sortedDown key xs).head? = some a := by
  have hperm := sortedDown_perm key xs
  have hsorted := sortedDown_pairwise key xs
  have hfilter := filter_head h
  rw [← sortedDown_filter_key] at hfilter
  cases hs : sortedDown key xs with
  | nil =>
    rw [hs] at hperm
    exact absurd (hperm.nil_eq ▸ h.mem) (by simp)
  | cons b rest =>
    rw [hs] at hperm hsorted hfilter
    -- `a` is in the sorted list, so its head is at least `a`; nothing in the list exceeds `a`.
    have hle : key a ≤ key b := by
      rcases List.mem_cons.mp (hperm.mem_iff.mpr h.mem) with rfl | ha
      · exact le_rfl
      · exact List.rel_of_pairwise_cons hsorted ha
    have hge : key b ≤ key a := h.le b (hperm.mem_iff.mp List.mem_cons_self)
    rw [List.filter_cons_of_pos (by simpa using hge.antisymm hle), List.head?_cons] at hfilter
    rw [List.head?_cons, hfilter]

end TheCargo.Foundation
