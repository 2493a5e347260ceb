import Mathlib.Data.Fintype.Card
import Mathlib.Logic.Relation
import Mathlib.Tactic.Common

/-! Links followed one after the other, with the set of what was visited, until something is hit. -/

namespace TheCargo.Foundation.Trail

variable {α : Type*} (next : α → Option α) (hit : α → Bool)

def Reaches (x y : α) : Prop := Relation.ReflTransGen (fun a b => next a = some b) x y

def Hits (cur : Option α) : Prop := ∃ x ∈ cur, ∃ y, Reaches next x y ∧ hit y = true

structure Visited (seen : Finset α) (cur : Option α) : Prop where
  miss : ∀ x ∈ seen, hit x = false
  closed : ∀ x ∈ seen, ∀ y, next x = some y → y ∈ seen ∨ cur = some y

variable {next hit} {seen : Finset α} {cur : Option α} {x y : α} {n : ℕ} {b : Bool}

lemma visited_empty (cur : Option α) : Visited next hit ∅ cur :=
  ⟨fun _ h => absurd h (Finset.notMem_empty _), fun _ h => absurd h (Finset.notMem_empty _)⟩

lemma reaches_seen (h : Visited next hit seen (some x)) (hx : x ∈ seen) (hy : Reaches next x y) : y ∈ seen := by
  induction hy with
  | refl => exact hx
  | tail _ hnext ih =>
    rcases h.closed _ ih _ hnext with hseen | heq
    · exact hseen
    · exact Option.some.inj heq ▸ hx

lemma hits_step : Hits next hit (some x) ↔ hit x = true ∨ Hits next hit (next x) := by
  constructor
  · rintro ⟨z, hz, y, hy, hhit⟩
    obtain rfl := Option.mem_some_iff.mp hz
    rcases Relation.ReflTransGen.cases_head hy with rfl | ⟨w, hw, hrest⟩
    · exact .inl hhit
    · exact .inr ⟨w, hw, y, hrest, hhit⟩
  · rintro (hhit | ⟨w, hw, y, hy, hhit⟩)
    · exact ⟨x, rfl, x, .refl, hhit⟩
    · exact ⟨x, rfl, y, .head hw hy, hhit⟩

-- Two trails that still run together: nothing was hit, and both lead on to the same place.
def Together (next next' : α → Option α) (hit : α → Bool) (x y : α) : Prop :=
  Relation.ReflTransGen (fun a b => hit a = false ∧ next a = some b ∧ next' a = some b) x y

lemma hits_miss (hmiss : hit x = false) : Hits next hit (some x) ↔ Hits next hit (next x) := by
  rw [hits_step, hmiss, or_iff_right Bool.false_ne_true]

lemma Together.hits {next' : α → Option α} (h : Together next next' hit x y) :
    (Hits next hit (some x) ↔ Hits next hit (some y)) ∧ (Hits next' hit (some x) ↔ Hits next' hit (some y)) := by
  induction h with
  | refl => exact ⟨Iff.rfl, Iff.rfl⟩
  | tail _ hstep ih =>
    obtain ⟨hmiss, hnext, hnext'⟩ := hstep
    rw [ih.1, ih.2, hits_miss hmiss, hits_miss hmiss, hnext, hnext']
    exact ⟨Iff.rfl, Iff.rfl⟩

lemma Together.symm {next' : α → Option α} (h : Together next next' hit x y) : Together next' next hit x y := by
  induction h with
  | refl => exact .refl
  | tail _ hstep ih => exact .tail ih ⟨hstep.1, hstep.2.2, hstep.2.1⟩

lemma hits_of_together {next' : α → Option α}
    (hsame : ∀ y, Together next next' hit x y → hit y = false → next y = next' y)
    (h : Hits next hit (some x)) : Hits next' hit (some x) := by
  obtain ⟨z, hz, y, hreach, hhit⟩ := h
  obtain rfl := Option.mem_some_iff.mp hz
  clear hz
  induction hreach using Relation.ReflTransGen.head_induction_on with
  | refl => exact hits_step.mpr (.inl hhit)
  | @head a b hnext _ ih =>
    cases hmiss : hit a with
    | true => exact hits_step.mpr (.inl hmiss)
    | false =>
      have hnext' : next' a = some b := (hsame a .refl hmiss).symm.trans hnext
      rw [hits_miss hmiss, hnext']
      exact ih (fun y hy => hsame y (.head ⟨hmiss, hnext, hnext'⟩ hy))

lemma hits_alike_iff (next next' : α → Option α) (hit : α → Bool) (x : α) :
    (Hits next hit (some x) ↔ Hits next' hit (some x)) ↔
      ∀ y, Together next next' hit x y → hit y = false → next y ≠ next' y →
        (Hits next hit (next y) ↔ Hits next' hit (next' y)) := by
  constructor
  · intro h y hy hmiss _
    rw [← hits_miss hmiss, ← hits_miss hmiss, ← hy.hits.1, ← hy.hits.2]
    exact h
  · intro h
    by_cases hpart : ∃ y, Together next next' hit x y ∧ hit y = false ∧ next y ≠ next' y
    · obtain ⟨y, hy, hmiss, hne⟩ := hpart
      rw [hy.hits.1, hy.hits.2, hits_miss hmiss, hits_miss hmiss]
      exact h y hy hmiss hne
    · push Not at hpart
      exact ⟨hits_of_together hpart, hits_of_together fun y hy hmiss => (hpart y hy.symm hmiss).symm⟩

variable [DecidableEq α]

/-- The loop while there is a place that was not seen; nothing where the rounds have run out before its end. -/
def follow (next : α → Option α) (hit : α → Bool) : ℕ → Finset α → Option α → Option Bool
  | 0, _, _ => none
  | _ + 1, _, none => some false
  | n + 1, seen, some x =>
    if x ∈ seen then some false else if hit x then some true else follow next hit n (insert x seen) (next x)

lemma visited_insert (h : Visited next hit seen (some x)) (hmiss : hit x = false) :
    Visited next hit (insert x seen) (next x) := by
  refine ⟨fun z hz => ?_, fun z hz y hy => ?_⟩
  · rcases Finset.mem_insert.mp hz with rfl | hz
    · exact hmiss
    · exact h.miss z hz
  · rcases Finset.mem_insert.mp hz with rfl | hz
    · exact .inr hy
    · rcases h.closed z hz y hy with hseen | heq
      · exact .inl (Finset.mem_insert_of_mem hseen)
      · exact .inl (Option.some.inj heq ▸ Finset.mem_insert_self x seen)

lemma follow_sound (h : Visited next hit seen cur) (hb : follow next hit n seen cur = some b) :
    b = true ↔ Hits next hit cur := by
  induction n generalizing seen cur with
  | zero => cases hb
  | succ n ih =>
    cases cur with
    | none =>
      obtain rfl := Option.some.inj hb
      exact ⟨fun h => absurd h Bool.false_ne_true, fun ⟨_, hmem, _⟩ => absurd hmem (Option.not_mem_none _)⟩
    | some x =>
      rw [follow] at hb
      split at hb
      · rename_i hx
        obtain rfl := Option.some.inj hb
        refine ⟨fun h => absurd h Bool.false_ne_true, fun ⟨z, hz, y, hy, hhit⟩ => ?_⟩
        obtain rfl := Option.mem_some_iff.mp hz
        rw [h.miss y (reaches_seen h hx hy)] at hhit
        exact hhit
      · split at hb
        · rename_i hhit
          obtain rfl := Option.some.inj hb
          exact ⟨fun _ => hits_step.mpr (.inl hhit), fun _ => rfl⟩
        · rename_i hmiss
          rw [ih (visited_insert h (Bool.eq_false_iff.mpr hmiss)) hb, hits_step, or_iff_right hmiss]

lemma follow_ends [Fintype α] (hn : (Finset.univ \ seen).card < n) : ∃ b, follow next hit n seen cur = some b := by
  induction n generalizing seen cur with
  | zero => exact absurd hn (Nat.not_lt_zero _)
  | succ n ih =>
    cases cur with
    | none => exact ⟨false, rfl⟩
    | some x =>
      rw [follow]
      split
      · exact ⟨false, rfl⟩
      · rename_i hx
        split
        · exact ⟨true, rfl⟩
        · have hfresh : x ∈ Finset.univ \ seen := Finset.mem_sdiff.mpr ⟨Finset.mem_univ x, hx⟩
          have hless : (Finset.univ \ insert x seen).card < (Finset.univ \ seen).card := by
            rw [Finset.sdiff_insert]
            exact Finset.card_erase_lt_of_mem hfresh
          exact ih (by omega)

lemma follow_empty [Fintype α] (hn : Fintype.card α < n) (cur : Option α) :
    ∃ b, follow next hit n ∅ cur = some b ∧ (b = true ↔ Hits next hit cur) := by
  have hcard : (Finset.univ \ (∅ : Finset α)).card < n := by rwa [Finset.sdiff_empty]
  obtain ⟨b, hb⟩ : ∃ b, follow next hit n ∅ cur = some b := follow_ends hcard
  exact ⟨b, hb, follow_sound (visited_empty cur) hb⟩

end TheCargo.Foundation.Trail
