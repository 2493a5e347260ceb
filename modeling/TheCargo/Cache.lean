import Mathlib.Order.Lattice.Nat
import Mathlib.Tactic.Common
import TheCargo.Foundation.Runs
import TheCargo.Foundation.Updates

/-! Reads through a cache, and the invalidation of what it holds. -/

namespace TheCargo.Cache

open Foundation Foundation.Runs

variable {ν : Type*}

-- Versions number the values of the source; `floor` is the version that a call which starts now must not fall behind.
inductive Reader (ν : Type*)
  | idle
  | asked (floor : ℕ)
  | missed (floor : ℕ)
  | loaded (floor version : ℕ) (value : ν)
  | returned (floor version : ℕ) (value : ν)
  | failed
  deriving DecidableEq

inductive Invalidation
  | idle
  | begun (version : ℕ)
  | deleted (version : ℕ)
  | returned

structure World (ν : Type*) where
  source : List ν
  cache : Option (String × ℕ)
  readers : ℕ → Reader ν
  invalidations : ℕ → Invalidation
  floor : ℕ
  deleted : ℕ
  late : List (ℕ × ℕ)

inductive Event (ν : Type*)
  | update (value : ν)
  | enter (i : ℕ)
  | get (i : ℕ)
  | load (i : ℕ)
  | loadFails (i : ℕ)
  | store (i : ℕ)
  | begin (j : ℕ)
  | delete (j : ℕ)
  | finish (j : ℕ)

def World.latest (w : World ν) : ℕ := w.source.length - 1

def World.become (w : World ν) (i : ℕ) (reader : Reader ν) : World ν :=
  { w with readers := Function.update w.readers i reader }

variable (serialize : ν → Option String) (deserialize : String → Option ν)

def hit (w : World ν) : Option (ℕ × ν) := w.cache.bind (fun c => (deserialize c.1).map (fun v => (c.2, v)))

/-- `SETEX`; what was loaded before an update whose invalidation has deleted the key since is stored late. -/
def World.put (w : World ν) (version : ℕ) (value : ν) : World ν :=
  match serialize value with
  | none => w
  | some raw =>
    { w with
      cache := some (raw, version)
      late := if version < w.deleted then w.late ++ [(version, w.deleted)] else w.late }

def step (w : World ν) : Event ν → Option (World ν)
  | .update value => some { w with source := w.source ++ [value] }
  | .enter i =>
    match w.readers i with
    | .idle => some (w.become i (.asked w.floor))
    | _ => none
  | .get i =>
    match w.readers i with
    | .asked floor =>
      match hit deserialize w with
      | some (version, value) => some (w.become i (.returned floor version value))
      | none => some (w.become i (.missed floor))
    | _ => none
  | .load i =>
    match w.readers i, w.source.getLast? with
    | .missed floor, some value => some (w.become i (.loaded floor w.latest value))
    | _, _ => none
  | .loadFails i =>
    match w.readers i with
    | .missed _ => some (w.become i .failed)
    | _ => none
  | .store i =>
    match w.readers i with
    | .loaded floor version value => some ((w.put serialize version value).become i (.returned floor version value))
    | _ => none
  | .begin j =>
    match w.invalidations j with
    | .idle => some { w with invalidations := Function.update w.invalidations j (.begun w.latest) }
    | _ => none
  | .delete j =>
    match w.invalidations j with
    | .begun version =>
      some { w with
        invalidations := Function.update w.invalidations j (.deleted version)
        cache := none
        deleted := max w.deleted version }
    | _ => none
  | .finish j =>
    match w.invalidations j with
    | .deleted version =>
      some { w with
        invalidations := Function.update w.invalidations j .returned
        floor := max w.floor version }
    | _ => none

def start (value : ν) : World ν := ⟨[value], none, fun _ => .idle, fun _ => .idle, 0, 0, []⟩

def Reads (value result : ν) : Prop :=
  result = value ∨ ∃ raw, serialize value = some raw ∧ deserialize raw = some result

def Held (w : World ν) (version : ℕ) (result : ν) : Prop :=
  ∃ value, w.source[version]? = some value ∧ Reads serialize deserialize value result

def Final (w : World ν) : Prop :=
  ∀ i floor version result, w.readers i = .returned floor version result →
    ∃ version, floor ≤ version ∧ Held serialize deserialize w version result

def FinalOrLate (w : World ν) : Prop :=
  ∀ i floor version result, w.readers i = .returned floor version result →
    Held serialize deserialize w version result ∧
      (floor ≤ version ∨ ∃ deleted, floor ≤ deleted ∧ (version, deleted) ∈ w.late)

def Sound (w : World ν) : Reader ν → Prop
  | .idle => True
  | .asked floor => floor ≤ w.floor
  | .missed floor => floor ≤ w.floor
  | .loaded floor version value => floor ≤ version ∧ w.source[version]? = some value
  | .returned floor version result =>
    Held serialize deserialize w version result ∧
      (floor ≤ version ∨ ∃ deleted, floor ≤ deleted ∧ (version, deleted) ∈ w.late)
  | .failed => True

structure Kept (w : World ν) : Prop where
  begun : ∀ j version, w.invalidations j = .begun version → version ≤ w.latest
  gone : ∀ j version, w.invalidations j = .deleted version → version ≤ w.deleted
  floor : w.floor ≤ w.deleted
  deleted : w.deleted ≤ w.latest
  cache : ∀ raw version, w.cache = some (raw, version) →
    (∃ value, w.source[version]? = some value ∧ serialize value = some raw) ∧
      (w.deleted ≤ version ∨ (version, w.deleted) ∈ w.late)
  readers : ∀ i, Sound serialize deserialize w (w.readers i)

variable {serialize deserialize} {w v : World ν}

lemma become_self (w : World ν) (i : ℕ) (reader : Reader ν) : (w.become i reader).readers i = reader :=
  Function.update_self ..

lemma become_ne (w : World ν) {i j : ℕ} (h : j ≠ i) (reader : Reader ν) :
    (w.become i reader).readers j = w.readers j :=
  Function.update_of_ne h ..

structure Extends (w v : World ν) : Prop where
  source : ∀ (n : ℕ) (value : ν), w.source[n]? = some value → v.source[n]? = some value
  floor : w.floor ≤ v.floor
  late : w.late ⊆ v.late

lemma Sound.extend {reader : Reader ν} (h : Sound serialize deserialize w reader) (hv : Extends w v) :
    Sound serialize deserialize v reader := by
  cases reader with
  | idle => trivial
  | asked floor => exact Nat.le_trans h hv.floor
  | missed floor => exact Nat.le_trans h hv.floor
  | loaded floor version value => exact ⟨h.1, hv.source version value h.2⟩
  | returned floor version result =>
    obtain ⟨⟨value, hvalue, hreads⟩, hfresh⟩ := h
    refine ⟨⟨value, hv.source version value hvalue, hreads⟩, ?_⟩
    rcases hfresh with hfresh | ⟨deleted, hdeleted, hlate⟩
    · exact Or.inl hfresh
    · exact Or.inr ⟨deleted, hdeleted, hv.late hlate⟩
  | failed => trivial

lemma Kept.become (h : Kept serialize deserialize w) (i : ℕ) (reader : Reader ν)
    (hreader : Sound serialize deserialize w reader) : Kept serialize deserialize (w.become i reader) := by
  have hext : Extends w (w.become i reader) := ⟨fun _ _ => id, Nat.le_refl _, List.Subset.refl _⟩
  refine ⟨h.begun, h.gone, h.floor, h.deleted, h.cache, ?_⟩
  intro j
  by_cases hj : j = i
  · subst hj
    rw [become_self]
    exact hreader.extend hext
  · rw [become_ne w hj]
    exact (h.readers j).extend hext

lemma kept_start (value : ν) : Kept serialize deserialize (start value) :=
  ⟨nofun, nofun, Nat.le_refl 0, Nat.zero_le _, nofun, fun _ => trivial⟩

lemma Kept.update (h : Kept serialize deserialize w) (value : ν) :
    Kept serialize deserialize { w with source := w.source ++ [value] } := by
  have hlatest : w.latest ≤ World.latest { w with source := w.source ++ [value] } := by
    rw [World.latest, World.latest, List.length_append]
    omega
  have hsource : ∀ (n : ℕ) (u : ν), w.source[n]? = some u → (w.source ++ [value])[n]? = some u := by
    intro n u hu
    obtain ⟨hlt, _⟩ := List.getElem?_eq_some_iff.mp hu
    rwa [List.getElem?_append_left hlt]
  refine ⟨fun j n hj => (h.begun j n hj).trans hlatest, h.gone, h.floor, h.deleted.trans hlatest, ?_, ?_⟩
  · intro raw version hcache
    obtain ⟨⟨u, hu, hraw⟩, hfresh⟩ := h.cache raw version hcache
    exact ⟨⟨u, hsource version u hu, hraw⟩, hfresh⟩
  · intro i
    exact (h.readers i).extend ⟨hsource, Nat.le_refl _, List.Subset.refl _⟩

lemma Kept.floor_le (h : Kept serialize deserialize w) {i floor : ℕ}
    (hi : w.readers i = .asked floor ∨ w.readers i = .missed floor) : floor ≤ w.deleted := by
  have hsound := h.readers i
  have hfloor : floor ≤ w.floor := by
    rcases hi with hi | hi <;> rwa [hi] at hsound
  exact hfloor.trans h.floor

lemma Kept.get (h : Kept serialize deserialize w) {i floor : ℕ} (hi : w.readers i = .asked floor) {version : ℕ}
    {result : ν} (hhit : hit deserialize w = some (version, result)) :
    Sound serialize deserialize w (.returned floor version result) := by
  obtain ⟨⟨raw, n⟩, hcache, hmap⟩ := Option.bind_eq_some_iff.mp hhit
  obtain ⟨u, hu, hpair⟩ := Option.map_eq_some_iff.mp hmap
  obtain ⟨rfl, rfl⟩ := Prod.mk.inj hpair
  obtain ⟨⟨value, hvalue, hraw⟩, hfresh⟩ := h.cache raw n hcache
  have hdeleted := h.floor_le (Or.inl hi)
  refine ⟨⟨value, hvalue, Or.inr ⟨raw, hraw, hu⟩⟩, ?_⟩
  rcases hfresh with hfresh | hlate
  · exact Or.inl (hdeleted.trans hfresh)
  · exact Or.inr ⟨w.deleted, hdeleted, hlate⟩

lemma Kept.load (h : Kept serialize deserialize w) {i floor : ℕ} (hi : w.readers i = .missed floor) {value : ν}
    (hlast : w.source.getLast? = some value) : Sound serialize deserialize w (.loaded floor w.latest value) := by
  exact ⟨(h.floor_le (Or.inr hi)).trans h.deleted, by rw [World.latest, ← List.getLast?_eq_getElem?, hlast]⟩

lemma Kept.put (h : Kept serialize deserialize w) {version : ℕ} {value : ν} (hvalue : w.source[version]? = some value) :
    Kept serialize deserialize (w.put serialize version value) := by
  rw [World.put]
  cases hraw : serialize value with
  | none => exact h
  | some raw =>
    dsimp only
    refine ⟨h.begun, h.gone, h.floor, h.deleted, ?_, ?_⟩
    · rintro _ _ ⟨⟩
      refine ⟨⟨value, hvalue, hraw⟩, ?_⟩
      by_cases hlate : version < w.deleted
      · right
        rw [if_pos hlate]
        exact List.mem_append_right _ (List.mem_singleton_self _)
      · exact Or.inl (Nat.not_lt.mp hlate)
    · intro i
      refine (h.readers i).extend ⟨fun _ _ => id, Nat.le_refl _, ?_⟩
      change w.late ⊆ if version < w.deleted then w.late ++ [(version, w.deleted)] else w.late
      split
      · exact List.subset_append_left _ _
      · exact List.Subset.refl _

lemma Kept.reader (h : Kept serialize deserialize w) {e : Event ν} {i : ℕ}
    (he : e = .enter i ∨ e = .get i ∨ e = .load i ∨ e = .loadFails i ∨ e = .store i)
    (hv : step serialize deserialize w e = some v) : Kept serialize deserialize v := by
  have hsound := h.readers i
  rcases he with rfl | rfl | rfl | rfl | rfl
  · rw [step] at hv
    split at hv
    · obtain rfl := Option.some.inj hv
      exact h.become i (.asked w.floor) (Nat.le_refl _)
    · cases hv
  · rw [step] at hv
    split at hv
    · rename_i floor hi
      split at hv
      · rename_i version value hhit
        obtain rfl := Option.some.inj hv
        exact h.become i _ (h.get hi hhit)
      · obtain rfl := Option.some.inj hv
        rw [hi] at hsound
        exact h.become i (.missed floor) hsound
    · cases hv
  · rw [step] at hv
    split at hv
    · rename_i floor value hi hlast
      obtain rfl := Option.some.inj hv
      exact h.become i _ (h.load hi hlast)
    · cases hv
  · rw [step] at hv
    split at hv
    · obtain rfl := Option.some.inj hv
      exact h.become i .failed trivial
    · cases hv
  · rw [step] at hv
    split at hv
    · rename_i floor version value hi
      obtain rfl := Option.some.inj hv
      rw [hi] at hsound
      have hput := h.put hsound.2
      refine hput.become i (.returned floor version value) ⟨⟨value, ?_, Or.inl rfl⟩, Or.inl hsound.1⟩
      rw [World.put]
      split <;> exact hsound.2
    · cases hv

lemma Kept.begin (h : Kept serialize deserialize w) (j : ℕ) :
    Kept serialize deserialize
      { w with invalidations := Function.update w.invalidations j (.begun w.latest) } := by
  refine ⟨?_, ?_, h.floor, h.deleted, h.cache, fun i => (h.readers i).extend ⟨fun _ _ => id, le_rfl, fun _ => id⟩⟩
  · intro k version hk
    rcases Updates.update_eq hk with ⟨_, hk⟩ | hk
    · obtain rfl := Invalidation.begun.inj hk
      exact le_rfl
    · exact h.begun k version hk
  · intro k version hk
    rcases Updates.update_eq hk with ⟨_, hk⟩ | hk
    · cases hk
    · exact h.gone k version hk

lemma Kept.delete (h : Kept serialize deserialize w) {j version : ℕ} (hj : w.invalidations j = .begun version) :
    Kept serialize deserialize
      { w with
        invalidations := Function.update w.invalidations j (.deleted version)
        cache := none
        deleted := max w.deleted version } := by
  refine ⟨?_, ?_, h.floor.trans (le_max_left _ _), max_le h.deleted (h.begun j version hj), nofun,
    fun i => (h.readers i).extend ⟨fun _ _ => id, le_rfl, fun _ => id⟩⟩
  · intro k n hk
    rcases Updates.update_eq hk with ⟨_, hk⟩ | hk
    · cases hk
    · exact h.begun k n hk
  · intro k n hk
    rcases Updates.update_eq hk with ⟨_, hk⟩ | hk
    · obtain rfl := Invalidation.deleted.inj hk
      exact le_max_right _ _
    · exact (h.gone k n hk).trans (le_max_left _ _)

lemma Kept.finish (h : Kept serialize deserialize w) {j version : ℕ} (hj : w.invalidations j = .deleted version) :
    Kept serialize deserialize
      { w with
        invalidations := Function.update w.invalidations j .returned
        floor := max w.floor version } := by
  refine ⟨?_, ?_, max_le h.floor (h.gone j version hj), h.deleted, h.cache,
    fun i => (h.readers i).extend ⟨fun _ _ => id, le_max_left _ _, fun _ => id⟩⟩
  · intro k n hk
    rcases Updates.update_eq hk with ⟨_, hk⟩ | hk
    · cases hk
    · exact h.begun k n hk
  · intro k n hk
    rcases Updates.update_eq hk with ⟨_, hk⟩ | hk
    · cases hk
    · exact h.gone k n hk

lemma Kept.invalidation (h : Kept serialize deserialize w) {e : Event ν} {j : ℕ}
    (he : e = .begin j ∨ e = .delete j ∨ e = .finish j) (hv : step serialize deserialize w e = some v) :
    Kept serialize deserialize v := by
  rcases he with rfl | rfl | rfl
  · rw [step] at hv
    split at hv
    · obtain rfl := Option.some.inj hv
      exact h.begin j
    · cases hv
  · rw [step] at hv
    split at hv
    · rename_i version hj
      obtain rfl := Option.some.inj hv
      exact h.delete hj
    · cases hv
  · rw [step] at hv
    split at hv
    · rename_i version hj
      obtain rfl := Option.some.inj hv
      exact h.finish hj
    · cases hv

lemma Kept.step (h : Kept serialize deserialize w) {e : Event ν} (hv : Cache.step serialize deserialize w e = some v) :
    Kept serialize deserialize v := by
  cases e with
  | update value =>
    obtain rfl := Option.some.inj hv
    exact h.update value
  | enter i => exact h.reader (Or.inl rfl) hv
  | get i => exact h.reader (Or.inr (Or.inl rfl)) hv
  | load i => exact h.reader (Or.inr (Or.inr (Or.inl rfl))) hv
  | loadFails i => exact h.reader (Or.inr (Or.inr (Or.inr (Or.inl rfl)))) hv
  | store i => exact h.reader (Or.inr (Or.inr (Or.inr (Or.inr rfl)))) hv
  | begin j => exact h.invalidation (Or.inl rfl) hv
  | delete j => exact h.invalidation (Or.inr (Or.inl rfl)) hv
  | finish j => exact h.invalidation (Or.inr (Or.inr rfl)) hv

theorem invalidation_is_final_or_late (serialize : ν → Option String) (deserialize : String → Option ν) (value : ν)
    (events : List (Event ν)) (w : World ν)
    (hrun : run (Cache.step serialize deserialize) (start value) events = some w) :
    FinalOrLate serialize deserialize w := by
  have h : Kept serialize deserialize w := run_invariant (fun _ _ _ hk hs => hk.step hs) (kept_start value) hrun
  intro i floor version result hi
  have hsound := h.readers i
  rwa [hi] at hsound

theorem a_later_call_reads_the_update :
    ∃ w, run (Cache.step some some) (start "broker")
        [.enter 0, .get 0, .load 0, .store 0, .update "phone", .begin 0, .delete 0, .finish 0, .enter 1, .get 1,
          .load 1, .store 1] = some w ∧
      FinalOrLate some some w :=
  Exists.imp (fun _ hw => ⟨hw, invalidation_is_final_or_late some some _ _ _ hw⟩) ⟨_, rfl⟩

theorem a_late_store_is_read :
    ∃ w, run (Cache.step some some) (start "broker")
        [.enter 0, .get 0, .load 0, .update "phone", .begin 0, .delete 0, .finish 0, .store 0, .enter 1,
          .get 1] = some w ∧
      ¬Final some some w := by
  refine ⟨_, rfl, ?_⟩
  intro h
  obtain ⟨version, hfloor, value, hvalue, hreads⟩ := h 1 1 0 "broker" rfl
  have hphone : value = "phone" := by
    match version, hfloor, hvalue with
    | 1, _, hvalue => exact (Option.some.inj hvalue).symm
  subst hphone
  rcases hreads with hreads | ⟨raw, hraw, hreads⟩
  · exact absurd hreads (by decide)
  · exact absurd (hraw.trans hreads) (by decide)

end TheCargo.Cache
