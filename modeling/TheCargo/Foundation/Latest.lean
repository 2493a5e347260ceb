import Mathlib.Data.List.MinMax
import TheCargo.Foundation.Dict

namespace TheCargo.Foundation

variable {α κ τ : Type*} [DecidableEq κ] [LinearOrder τ] (key : α → κ) (time : α → τ)

def supersede (prev : Option α) (a : α) : Option α :=
  match prev with
  | none => some a
  | some p => if time p ≤ time a then some a else some p

def newest (xs : List α) : Option α := xs.foldl (supersede time) none

def newestAt (xs : List α) (k : κ) : Option α := newest time (xs.filter (fun a => key a = k))

def latestStep (d : Dict κ α) (a : α) : Dict κ α :=
  match d.get? (key a) with
  | none => d.set (key a) a
  | some p => if time p ≤ time a then d.set (key a) a else d

def latest (xs : List α) : Dict κ α := xs.foldl (latestStep key time) Dict.empty

lemma latestStep_get? (d : Dict κ α) (a : α) (k : κ) :
    (latestStep key time d a).get? k =
      if key a = k then supersede time (d.get? k) a else d.get? k := by
  by_cases hk : key a = k
  · subst hk
    simp only [latestStep, supersede, if_true]
    cases hd : d.get? (key a) with
    | none => simp
    | some p => by_cases hp : time p ≤ time a <;> simp [hp, hd]
  · simp only [latestStep, if_neg hk]
    cases d.get? (key a) with
    | none => simp [hk]
    | some p => by_cases hp : time p ≤ time a <;> simp [hp, hk]

lemma latestFold_get? (xs : List α) (d : Dict κ α) (k : κ) :
    (xs.foldl (latestStep key time) d).get? k =
      (xs.filter (fun a => key a = k)).foldl (supersede time) (d.get? k) := by
  induction xs generalizing d with
  | nil => rfl
  | cons a xs ih =>
    rw [List.foldl_cons, ih, latestStep_get?]
    by_cases hk : key a = k <;> simp [hk]

lemma latest_get? (xs : List α) (k : κ) : (latest key time xs).get? k = newestAt key time xs k :=
  latestFold_get? key time xs Dict.empty k

lemma newest_concat (xs : List α) (a : α) :
    newest time (xs ++ [a]) = supersede time (newest time xs) a := by
  simp [newest, List.foldl_append]

lemma supersede_ne_none (prev : Option α) (a : α) : supersede time prev a ≠ none := by
  cases prev with
  | none => simp [supersede]
  | some p => by_cases hp : time p ≤ time a <;> simp [supersede, hp]

lemma newest_eq_none {xs : List α} (h : newest time xs = none) : xs = [] := by
  induction xs using List.reverseRecOn with
  | nil => rfl
  | append_singleton xs a _ => exact (supersede_ne_none time _ _ (newest_concat time xs a ▸ h)).elim

lemma newest_spec {xs : List α} {a : α} (h : newest time xs = some a) :
    a ∈ xs ∧ ∀ b ∈ xs, time b ≤ time a := by
  induction xs using List.reverseRecOn generalizing a with
  | nil => simp [newest] at h
  | append_singleton xs c ih =>
    rw [newest_concat] at h
    cases hn : newest time xs with
    | none =>
      simp only [hn, supersede, Option.some.injEq] at h
      simp [newest_eq_none time hn, h]
    | some p =>
      obtain ⟨hm, hle⟩ := ih hn
      simp only [hn, supersede] at h
      split_ifs at h with hp
      · obtain rfl := Option.some.inj h
        refine ⟨by simp, ?_⟩
        intro b hb
        rcases List.mem_append.mp hb with hb | hb
        · exact (hle b hb).trans hp
        · exact (congrArg time (List.mem_singleton.mp hb)).le
      · obtain rfl := Option.some.inj h
        refine ⟨by simp [hm], ?_⟩
        intro b hb
        rcases List.mem_append.mp hb with hb | hb
        · exact hle b hb
        · exact (congrArg time (List.mem_singleton.mp hb)).le.trans (le_of_not_ge hp)

lemma newestAt_spec {xs : List α} {k : κ} {a : α} (h : newestAt key time xs k = some a) :
    a ∈ xs ∧ key a = k ∧ ∀ b ∈ xs, key b = k → time b ≤ time a := by
  obtain ⟨hm, hle⟩ := newest_spec time h
  obtain ⟨hx, hk⟩ := List.mem_filter.mp hm
  exact ⟨hx, of_decide_eq_true hk, fun b hb hbk => hle b (List.mem_filter.mpr ⟨hb, by simpa using hbk⟩)⟩

lemma newestAt_of_mem {xs : List α} {a : α} (ha : a ∈ xs) : ∃ m, newestAt key time xs (key a) = some m := by
  apply Option.ne_none_iff_exists'.mp
  intro hn
  have he := List.filter_eq_nil_iff.mp (newest_eq_none time hn) a ha
  simp at he

lemma newestAt_of_strict {xs : List α} {a : α} (ha : a ∈ xs)
    (h : ∀ b ∈ xs, b ≠ a → time b < time a) : newestAt key time xs (key a) = some a := by
  obtain ⟨m, hn⟩ := newestAt_of_mem key time ha
  obtain ⟨hm, -, hle⟩ := newestAt_spec key time hn
  by_contra hne
  exact absurd (hle a ha rfl) (not_le_of_gt (h m hm (fun he => hne (hn.trans (congrArg some he)))))

structure Newest (xs : List α) (a : α) : Prop where
  mem : a ∈ xs
  le : ∀ b ∈ xs, key b = key a → time b ≤ time a

omit [DecidableEq κ] in
lemma newest_map {β : Type*} {xs : List α} {f : α → β} {key' : β → κ} {time' : β → τ}
    (hkey : ∀ a ∈ xs, key' (f a) = key a) (htime : ∀ a ∈ xs, time' (f a) = time a) {b : β} :
    Newest key' time' (xs.map f) b ↔ ∃ a, Newest key time xs a ∧ f a = b := by
  constructor
  · rintro ⟨hmem, hle⟩
    obtain ⟨a, ha, rfl⟩ := List.mem_map.mp hmem
    refine ⟨a, ⟨ha, fun c hc hsame => ?_⟩, rfl⟩
    rw [← htime a ha, ← htime c hc]
    exact hle (f c) (List.mem_map_of_mem hc) (by rw [hkey a ha, hkey c hc, hsame])
  · rintro ⟨a, ha, rfl⟩
    refine ⟨List.mem_map_of_mem ha.mem, fun b hb hsame => ?_⟩
    obtain ⟨c, hc, rfl⟩ := List.mem_map.mp hb
    rw [hkey a ha.mem, hkey c hc] at hsame
    rw [htime a ha.mem, htime c hc]
    exact ha.le c hc hsame

lemma newestAt_newest {xs : List α} {k : κ} {a : α} (h : newestAt key time xs k = some a) : Newest key time xs a := by
  obtain ⟨hm, rfl, hle⟩ := newestAt_spec key time h
  exact ⟨hm, hle⟩

lemma newestAt_iff {xs : List α} (hn : (xs.map time).Nodup) {k : κ} {a : α} :
    newestAt key time xs k = some a ↔ key a = k ∧ Newest key time xs a := by
  constructor
  · intro h
    exact ⟨(newestAt_spec key time h).2.1, newestAt_newest key time h⟩
  · rintro ⟨rfl, ha⟩
    obtain ⟨m, hm⟩ := newestAt_of_mem key time ha.mem
    obtain ⟨hmem, hkey, hle⟩ := newestAt_spec key time hm
    have ht : time m = time a := le_antisymm (ha.le m hmem hkey) (hle a ha.mem rfl)
    rw [hm, List.inj_on_of_nodup_map hn hmem ha.mem ht]

lemma newestAt_congr {xs ys : List α} (hx : (xs.map time).Nodup) (hy : (ys.map time).Nodup)
    (h : ∀ a, Newest key time xs a ↔ Newest key time ys a) (k : κ) :
    newestAt key time xs k = newestAt key time ys k := by
  apply Option.ext
  intro a
  rw [newestAt_iff key time hx, newestAt_iff key time hy, h a]

lemma argmax_congr {xs ys : List α} (hinj : ∀ a ∈ xs, ∀ b ∈ xs, time a = time b → a = b)
    (h : ∀ a, a ∈ xs ↔ a ∈ ys) : xs.argmax time = ys.argmax time := by
  cases hx : xs.argmax time with
  | none =>
    have hy : ys = [] := by
      rw [List.argmax_eq_none] at hx
      subst hx
      exact List.eq_nil_iff_forall_not_mem.mpr (fun a ha => List.not_mem_nil ((h a).mpr ha))
    rw [hy]
    rfl
  | some m =>
    have hm := List.argmax_mem hx
    cases hy : ys.argmax time with
    | none =>
      rw [List.argmax_eq_none] at hy
      subst hy
      exact (List.not_mem_nil ((h m).mp hm)).elim
    | some n =>
      have hn := (h n).mpr (List.argmax_mem hy)
      have hle : time m ≤ time n := List.le_of_mem_argmax ((h m).mp hm) hy
      have hge : time n ≤ time m := List.le_of_mem_argmax hn hx
      rw [hinj m hm n hn (le_antisymm hle hge)]

section Filter

variable {key time} {p : κ → Bool}

lemma latestStep_kept {d e : Dict κ α} {a : α} (h : e.items = d.items.filter (fun i => p i.1)) (ha : p (key a) = true) :
    (latestStep key time e a).items = (latestStep key time d a).items.filter (fun i => p i.1) := by
  have hget : e.get? (key a) = d.get? (key a) := by rw [Dict.get?, h, lookup_filter ha, Dict.get?]
  have hset : (e.set (key a) a).items = (d.set (key a) a).items.filter (fun i => p i.1) := by
    rw [Dict.items_set, Dict.items_set, put_filter, if_pos ha, h]
  rw [latestStep, latestStep, hget]
  cases d.get? (key a) with
  | none => exact hset
  | some prev =>
    dsimp only
    split
    · exact hset
    · exact h

lemma latestStep_dropped (d : Dict κ α) {a : α} (ha : p (key a) = false) :
    (latestStep key time d a).items.filter (fun i => p i.1) = d.items.filter (fun i => p i.1) := by
  have hset : (d.set (key a) a).items.filter (fun i => p i.1) = d.items.filter (fun i => p i.1) := by
    rw [Dict.items_set, put_filter, ha]
    rfl
  rw [latestStep]
  cases d.get? (key a) with
  | none => exact hset
  | some prev =>
    dsimp only
    split
    · exact hset
    · rfl

lemma latest_filter (p : κ → Bool) (xs : List α) :
    (latest key time (xs.filter (fun a => p (key a)))).items =
      (latest key time xs).items.filter (fun i => p i.1) := by
  induction xs using List.reverseRecOn with
  | nil => rfl
  | append_singleton xs a ih =>
    rw [List.filter_append, latest, latest, List.foldl_append, List.foldl_append]
    cases ha : p (key a) with
    | true =>
      rw [List.filter_cons_of_pos (by exact ha)]
      exact latestStep_kept ih ha
    | false =>
      rw [List.filter_cons_of_neg (by simp [ha])]
      exact ih.trans (latestStep_dropped _ ha).symm

end Filter

lemma argmax_split {xs : List α} {m : α} :
    xs.argmax time = some m ↔ ∃ pre post, xs = pre ++ m :: post ∧
      (∀ a ∈ pre, time a < time m) ∧ ∀ a ∈ post, time a ≤ time m := by
  constructor
  · intro h
    induction xs with
    | nil => simp at h
    | cons a xs ih =>
      rw [List.argmax_cons] at h
      cases hx : xs.argmax time with
      | none =>
        simp only [hx, Option.some.injEq] at h
        rw [List.argmax_eq_none] at hx
        exact ⟨[], [], by simp [hx, h], by simp, by simp⟩
      | some c =>
        simp only [hx] at h
        split_ifs at h with hlt
        · obtain rfl := Option.some.inj h
          obtain ⟨pre, post, rfl, hpre, hpost⟩ := ih hx
          refine ⟨a :: pre, post, rfl, ?_, hpost⟩
          intro b hb
          rcases List.mem_cons.mp hb with rfl | hb
          · exact hlt
          · exact hpre b hb
        · obtain rfl := Option.some.inj h
          refine ⟨[], xs, rfl, by simp, ?_⟩
          intro b hb
          exact (List.le_of_mem_argmax hb hx).trans (le_of_not_gt hlt)
  · rintro ⟨pre, post, rfl, hpre, hpost⟩
    have htail : (m :: post).argmax time = some m := by
      rw [List.argmax_cons]
      cases hp : post.argmax time with
      | none => rfl
      | some c => simp [not_lt_of_ge (hpost c (List.argmax_mem hp))]
    induction pre with
    | nil => exact htail
    | cons a pre ih =>
      rw [List.cons_append, List.argmax_cons, ih (fun b hb => hpre b (List.mem_cons_of_mem a hb))]
      simp [hpre a List.mem_cons_self]

lemma argmax_satisfies {xs : List α} {P : α → Prop} :
    (∃ m, xs.argmax time = some m ∧ P m) ↔ ∃ pre a post, xs = pre ++ a :: post ∧ P a ∧
      (∀ b ∈ pre, ¬ P b → time b < time a) ∧ ∀ b ∈ post, ¬ P b → time b ≤ time a := by
  constructor
  · rintro ⟨m, hm, hP⟩
    obtain ⟨pre, post, rfl, hpre, hpost⟩ := (argmax_split time).mp hm
    exact ⟨pre, m, post, rfl, hP, fun b hb _ => hpre b hb, fun b hb _ => hpost b hb⟩
  · rintro ⟨pre, a, post, rfl, hP, hpre, hpost⟩
    obtain ⟨m, hm⟩ := Option.ne_none_iff_exists'.mp
      (show (pre ++ a :: post).argmax time ≠ none by simp)
    refine ⟨m, hm, ?_⟩
    by_contra hPm
    have hle : time a ≤ time m := List.le_of_mem_argmax (by simp) hm
    obtain ⟨pre', post', hsplit, hpre', -⟩ := (argmax_split time).mp hm
    rcases List.append_eq_append_iff.mp hsplit with ⟨mid, rfl, htail⟩ | ⟨mid, rfl, htail⟩
    · cases mid with
      | nil =>
        obtain ⟨rfl, -⟩ := List.cons.inj htail
        exact hPm hP
      | cons b mid =>
        obtain ⟨rfl, rfl⟩ := List.cons.inj htail
        have hlt := hpre' a (by simp)
        exact absurd (hpost m (by simp) hPm) (not_le_of_gt hlt)
    · cases mid with
      | nil =>
        obtain ⟨rfl, -⟩ := List.cons.inj htail
        exact hPm hP
      | cons b mid =>
        obtain ⟨rfl, rfl⟩ := List.cons.inj htail
        exact absurd hle (not_le_of_gt (hpre m (by simp) hPm))

end TheCargo.Foundation
