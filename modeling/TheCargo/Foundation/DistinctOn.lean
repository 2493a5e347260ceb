import Mathlib.Data.Prod.Lex
import TheCargo.Foundation.Grouping
import TheCargo.Foundation.Latest

/-! The first row of every group of a sorted list is the newest one, where the sort puts the newest of a group first. -/

namespace TheCargo.Foundation

variable {α κ ι τ : Type*} [DecidableEq κ]

/-- `SELECT DISTINCT ON (key)` of rows that are sorted already -/
def distinctOn (key : α → κ) : List α → List α
  | [] => []
  | a :: rows => a :: (distinctOn key rows).filter (fun b => key b ≠ key a)

variable {key : α → κ}

lemma distinctOn_sublist (rows : List α) : (distinctOn key rows).Sublist rows := by
  induction rows with
  | nil => exact .slnil
  | cons a rows ih => exact (List.filter_sublist.trans ih).cons_cons a

lemma distinctOn_keys (rows : List α) : ((distinctOn key rows).map key).Nodup := by
  induction rows with
  | nil => exact List.nodup_nil
  | cons a rows ih =>
    rw [distinctOn, List.map_cons, List.nodup_cons]
    constructor
    · intro hmem
      obtain ⟨b, hb, hkey⟩ := List.mem_map.mp hmem
      exact of_decide_eq_true (List.mem_filter.mp hb).2 hkey
    · exact ih.sublist (List.filter_sublist.map key)

lemma exists_distinctOn (key : α → κ) {r : α → α → Prop} {rows : List α} (h : rows.Pairwise r) {a : α} (ha : a ∈ rows) :
    ∃ b ∈ distinctOn key rows, key b = key a ∧ ∀ c ∈ rows, key c = key a → c = b ∨ r b c := by
  induction rows with
  | nil => exact absurd ha List.not_mem_nil
  | cons d rows ih =>
    obtain ⟨hfirst, hrest⟩ := List.pairwise_cons.mp h
    by_cases hd : key d = key a
    · refine ⟨d, List.mem_cons_self, hd, fun c hc _ => ?_⟩
      exact (List.mem_cons.mp hc).imp_right (hfirst c)
    · have hne : a ≠ d := by
        rintro rfl
        exact hd rfl
      obtain ⟨b, hb, hkey, hlead⟩ := ih hrest ((List.mem_cons.mp ha).resolve_left hne)
      have hkept : key b ≠ key d := fun he => hd (he.symm.trans hkey)
      refine ⟨b, List.mem_cons_of_mem d (List.mem_filter.mpr ⟨hb, decide_eq_true hkept⟩), hkey, fun c hc hck => ?_⟩
      rcases List.mem_cons.mp hc with rfl | hc
      · exact absurd hck hd
      · exact hlead c hc hck

lemma items_foldl_set {rows : List α} (h : (rows.map key).Nodup) {d : Dict κ α}
    (hfresh : ∀ a ∈ rows, key a ∉ d.items.map Prod.fst) :
    (rows.foldl (fun d a => d.set (key a) a) d).items = d.items ++ rows.map (fun a => (key a, a)) := by
  induction rows generalizing d with
  | nil => exact (List.append_nil _).symm
  | cons a rows ih =>
    obtain ⟨hfirst, hrest⟩ := List.nodup_cons.mp h
    have hset : (d.set (key a) a).items = d.items ++ [(key a, a)] := put_fresh (hfresh a List.mem_cons_self) a
    have hnext : ∀ b ∈ rows, key b ∉ (d.set (key a) a).items.map Prod.fst := by
      intro b hb hmem
      rw [hset, List.map_append, List.mem_append] at hmem
      have hsame := List.mem_singleton.mp (hmem.resolve_left (hfresh b (List.mem_cons_of_mem a hb)))
      exact hfirst (List.mem_map.mpr ⟨b, hb, hsame⟩)
    rw [List.foldl_cons, ih hrest hnext, hset, List.append_assoc]
    rfl

section Newest

variable [LinearOrder ι] [LinearOrder τ] (collate : κ → ι) (key : α → κ) (time : α → τ)

def byKeyNewestFirst (rows : List α) : List α :=
  sortedBy (fun a => toLex (collate (key a), OrderDual.toDual (time a))) rows

def newestOfEach (rows : List α) : List α := distinctOn key (byKeyNewestFirst collate key time rows)

variable {collate key time}

omit [DecidableEq κ] in
lemma mem_byKeyNewestFirst {rows : List α} {a : α} : a ∈ byKeyNewestFirst collate key time rows ↔ a ∈ rows :=
  List.mem_insertionSort _

lemma newestOfEach_keys (rows : List α) : ((newestOfEach collate key time rows).map key).Nodup := distinctOn_keys _

lemma newestOfEach_times {rows : List α} (hn : (rows.map time).Nodup) :
    ((newestOfEach collate key time rows).map time).Nodup := by
  have hperm : (byKeyNewestFirst collate key time rows).Perm rows := List.perm_insertionSort _ rows
  exact ((hperm.map time).nodup_iff.mpr hn).sublist ((distinctOn_sublist _).map time)

lemma mem_newestOfEach {rows : List α} (hn : (rows.map time).Nodup) {a : α} :
    a ∈ newestOfEach collate key time rows ↔ Newest key time rows a := by
  have hsorted := sortedBy_pairwise (f := fun a => toLex (collate (key a), OrderDual.toDual (time a))) rows
  have hlead : ∀ {b c : α}, key b = key c →
      toLex (collate (key b), OrderDual.toDual (time b)) ≤ toLex (collate (key c), OrderDual.toDual (time c)) →
      time c ≤ time b := by
    intro b c hkey hle
    rw [hkey, Prod.Lex.toLex_le_toLex] at hle
    exact OrderDual.toDual_le_toDual.mp (hle.resolve_left (lt_irrefl _)).2
  have hgroup : ∀ a ∈ rows, ∃ b ∈ newestOfEach collate key time rows, key b = key a ∧
      ∀ c ∈ rows, key c = key a → time c ≤ time b := by
    intro a ha
    obtain ⟨b, hb, hkey, hfirst⟩ := exists_distinctOn key hsorted (mem_byKeyNewestFirst.mpr ha)
    refine ⟨b, hb, hkey, fun c hc hck => ?_⟩
    rcases hfirst c (mem_byKeyNewestFirst.mpr hc) hck with rfl | hle
    · exact le_refl _
    · exact hlead (hkey.trans hck.symm) hle
  have hmem : ∀ b ∈ newestOfEach collate key time rows, b ∈ rows :=
    fun b hb => mem_byKeyNewestFirst.mp ((distinctOn_sublist _).subset hb)
  constructor
  · intro ha
    obtain ⟨b, hb, hkey, hle⟩ := hgroup a (hmem a ha)
    have hsame : b = a := List.inj_on_of_nodup_map (distinctOn_keys _) hb ha hkey
    exact ⟨hmem a ha, fun c hc hck => hsame ▸ hle c hc hck⟩
  · intro ha
    obtain ⟨b, hb, hkey, hle⟩ := hgroup a ha.mem
    have htime : time b = time a := le_antisymm (ha.le b (hmem b hb) hkey) (hle a ha.mem rfl)
    exact List.inj_on_of_nodup_map hn (hmem b hb) ha.mem htime ▸ hb

omit [DecidableEq κ] in
lemma newest_newest {rows kept : List α} (h : ∀ a, a ∈ kept ↔ Newest key time rows a) (a : α) :
    Newest key time rows a ↔ Newest key time kept a :=
  ⟨fun ha => ⟨(h a).mpr ha, fun b hb => ha.le b ((h b).mp hb).mem⟩, fun ha => (h a).mp ha.mem⟩

end Newest

end TheCargo.Foundation
