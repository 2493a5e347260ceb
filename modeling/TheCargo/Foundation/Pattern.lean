import Mathlib.Computability.Language
import Mathlib.Tactic.Common

/-! Patterns with captures, as a backtracking engine tries them, and what they match as languages. -/

namespace TheCargo.Foundation

variable {α β γ : Type}

/-- The ways to match at a place of a text, those tried first in front: what is captured, the text matched and the
rest. The letter before the place is known. -/
def Pattern (α β : Type) := Option α → List α → List (β × List α × List α)

namespace Pattern

instance : Monad (Pattern α) where
  pure x := fun _ s => [(x, [], s)]
  bind m f := fun before s =>
    (m before s).flatMap fun (x, u, t) => (f x (u.getLast?.or before) t).map fun (y, v, r) => (y, u ++ v, r)

def one (p : α → Bool) : Pattern α Unit
  | _, [] => []
  | _, c :: s => if p c then [((), [c], s)] else []

def exactly [DecidableEq α] (w : List α) : Pattern α Unit := fun _ s =>
  if w <+: s then [((), w, s.drop w.length)] else []

def splits (p : α → Bool) : List α → List (List α × List α)
  | [] => [([], [])]
  | c :: s => (if p c then (splits p s).map fun (u, r) => (c :: u, r) else []) ++ [([], c :: s)]

def many (p : α → Bool) : Pattern α Unit := fun _ s => (splits p s).map fun (u, r) => ((), u, r)

def lazyMany (p : α → Bool) : Pattern α Unit := fun _ s => (splits p s).reverse.map fun (u, r) => ((), u, r)

def alt (m n : Pattern α β) : Pattern α β := fun before s => m before s ++ n before s

def opt (m : Pattern α β) : Pattern α (Option β) := alt (some <$> m) (pure none)

-- No pattern repeated here matches the empty text, so a text of length `n` holds at most `n` matches in a row.
def repeated (m : Pattern α Unit) : ℕ → Pattern α Unit
  | 0 => pure ()
  | n + 1 => alt (do m; repeated m n) (pure ())

def star (m : Pattern α Unit) : Pattern α Unit := fun before s => repeated m s.length before s

def notBehind (p : α → Bool) : Pattern α Unit := fun before s => if before.any p then [] else [((), [], s)]

def notAhead (p : α → Bool) : Pattern α Unit := fun _ s => if s.head?.any p then [] else [((), [], s)]

def group (m : Pattern α β) : Pattern α (List α) := fun before s => (m before s).map fun (_, u, r) => (u, u, r)

variable {m n : Pattern α β} {f : β → Pattern α γ} {before : Option α} {s u r : List α} {p : α → Bool}

lemma mem_pure {x y : β} : (y, u, r) ∈ (pure x : Pattern α β) before s ↔ y = x ∧ u = [] ∧ s = r := by
  change (y, u, r) ∈ [(x, [], s)] ↔ _
  rw [List.mem_singleton, Prod.mk.injEq, Prod.mk.injEq]
  exact and_congr_right (fun _ => and_congr_right (fun _ => eq_comm))

lemma mem_bind {y : γ} {w : List α} :
    (y, w, r) ∈ (m >>= f) before s ↔
      ∃ x u t v, (x, u, t) ∈ m before s ∧ (y, v, r) ∈ f x (u.getLast?.or before) t ∧ w = u ++ v := by
  change (y, w, r) ∈ (m before s).flatMap _ ↔ _
  simp only [List.mem_flatMap, List.mem_map, Prod.exists, Prod.mk.injEq]
  constructor
  · rintro ⟨x, u, t, hm, y', v, r', hf, rfl, rfl, rfl⟩
    exact ⟨x, u, t, v, hm, hf, rfl⟩
  · rintro ⟨x, u, t, v, hm, hf, rfl⟩
    exact ⟨x, u, t, hm, y, v, r, hf, rfl, rfl, rfl⟩

lemma mem_notBehind : ((), u, r) ∈ notBehind p before s ↔ before.any p = false ∧ u = [] ∧ s = r := by
  rw [notBehind]
  split
  · rename_i h
    simp [h]
  · rename_i h
    rw [List.mem_singleton, Prod.mk.injEq, Prod.mk.injEq]
    simp [h, eq_comm]

lemma mem_notAhead : ((), u, r) ∈ notAhead p before s ↔ s.head?.any p = false ∧ u = [] ∧ s = r := by
  rw [notAhead]
  split
  · rename_i h
    simp [h]
  · rename_i h
    rw [List.mem_singleton, Prod.mk.injEq, Prod.mk.injEq]
    simp [h, eq_comm]

def words (P : List α → Prop) : Language α := {w | P w}

@[simp] lemma mem_words {P : List α → Prop} {w : List α} : w ∈ words P ↔ P w := Iff.rfl

def Reads (m : Pattern α β) (L : β → Language α) : Prop :=
  ∀ before s x u r, (x, u, r) ∈ m before s ↔ s = u ++ r ∧ u ∈ L x

lemma Reads.congr {L M : β → Language α} (hm : Reads m L) (h : ∀ x, L x = M x) : Reads m M := by
  intro before s x u r
  rw [hm, h]

lemma append_inj_of_run {u r u' r' : List α} (h : u ++ r = u' ++ r') (hu : ∀ c ∈ u, p c = true)
    (hr : ∀ c, r.head? = some c → p c = false) (hu' : ∀ c ∈ u', p c = true)
    (hr' : ∀ c, r'.head? = some c → p c = false) : u = u' ∧ r = r' := by
  have hrun : ∀ v t : List α, (∀ c ∈ v, p c = true) → (∀ c, t.head? = some c → p c = false) →
      (v ++ t).takeWhile p = v := by
    intro v t hv ht
    rw [List.takeWhile_append_of_pos hv]
    cases t with
    | nil => exact List.append_nil v
    | cons c t => rw [List.takeWhile_cons_of_neg (by simp [ht c rfl]), List.append_nil]
  have huu : u = u' := by rw [← hrun u r hu hr, h, hrun u' r' hu' hr']
  subst huu
  exact ⟨rfl, List.append_cancel_left h⟩

lemma append_cons_inj {k : α} {u r u' r' : List α} (h : u ++ k :: r = u' ++ k :: r') (hu : k ∉ u) (hu' : k ∉ u') :
    u = u' ∧ r = r' := by
  induction u generalizing u' with
  | nil =>
    cases u' with
    | nil => exact ⟨rfl, (List.cons.inj h).2⟩
    | cons c u' =>
      obtain ⟨rfl, _⟩ := List.cons.inj h
      exact absurd List.mem_cons_self hu'
  | cons c u ih =>
    rw [List.mem_cons, not_or] at hu
    cases u' with
    | nil => exact absurd (List.cons.inj h).1.symm hu.1
    | cons d u' =>
      rw [List.mem_cons, not_or] at hu'
      obtain ⟨rfl, hrest⟩ := List.cons.inj h
      obtain ⟨rfl, rfl⟩ := ih hrest hu.2 hu'.2
      exact ⟨rfl, rfl⟩

section

variable {L M : β → Language α} {N : β → γ → Language α}

lemma Reads.pure (x : β) : Reads (pure x : Pattern α β) (fun y => words fun w => y = x ∧ w = []) := by
  intro before s y u r
  rw [mem_pure]
  constructor
  · rintro ⟨rfl, rfl, rfl⟩
    exact ⟨rfl, rfl, rfl⟩
  · rintro ⟨rfl, rfl, rfl⟩
    exact ⟨rfl, rfl, rfl⟩

lemma Reads.bind (hm : Reads m L) (hf : ∀ x, Reads (f x) (N x)) :
    Reads (m >>= f) (fun y => words fun w => ∃ x, w ∈ L x * N x y) := by
  intro before s y w r
  rw [mem_bind]
  constructor
  · rintro ⟨x, u, t, v, hu, hv, rfl⟩
    obtain ⟨rfl, hL⟩ := (hm _ _ _ _ _).mp hu
    obtain ⟨rfl, hN⟩ := (hf _ _ _ _ _ _).mp hv
    exact ⟨(List.append_assoc u v r).symm, x, Language.append_mem_mul hL hN⟩
  · rintro ⟨rfl, x, hw⟩
    obtain ⟨u, hu, v, hv, rfl⟩ := Language.mem_mul.mp hw
    refine ⟨x, u, v ++ r, v, (hm _ _ _ _ _).mpr ⟨?_, hu⟩, (hf _ _ _ _ _ _).mpr ⟨rfl, hv⟩, rfl⟩
    exact List.append_assoc u v r

lemma Reads.alt (hm : Reads m L) (hn : Reads n M) : Reads (alt m n) (fun x => L x + M x) := by
  intro before s x u r
  rw [Pattern.alt, List.mem_append, hm, hn, ← and_or_left]
  exact Iff.rfl

lemma Reads.group (hm : Reads m L) : Reads (group m) (fun x => words fun w => x = w ∧ ∃ y, w ∈ L y) := by
  intro before s x u r
  simp only [Pattern.group, List.mem_map, Prod.exists, Prod.mk.injEq]
  constructor
  · rintro ⟨y, u', r', hm', rfl, rfl, rfl⟩
    obtain ⟨rfl, hu⟩ := (hm _ _ _ _ _).mp hm'
    exact ⟨rfl, rfl, y, hu⟩
  · rintro ⟨hs, rfl, y, hu⟩
    exact ⟨y, x, r, (hm _ _ _ _ _).mpr ⟨hs, hu⟩, rfl, rfl, rfl⟩

lemma Reads.opt (hm : Reads m L) :
    Reads (opt m) (fun x => words fun w => match x with | none => w = [] | some y => w ∈ L y) := by
  intro before s x u r
  have hsome : Reads (some <$> m) _ := hm.bind (fun y => Reads.pure (some y))
  rw [Pattern.opt, hsome.alt (Reads.pure none), Language.mem_add, mem_words, mem_words, mem_words]
  apply and_congr_right
  rintro rfl
  constructor
  · rintro (⟨y, hu⟩ | ⟨rfl, rfl⟩)
    · obtain ⟨v, hv, _, ⟨rfl, rfl⟩, rfl⟩ := Language.mem_mul.mp hu
      rwa [List.append_nil]
    · rfl
  · intro hu
    cases x with
    | none => exact Or.inr ⟨rfl, hu⟩
    | some y => exact Or.inl ⟨y, Language.mem_mul.mpr ⟨u, hu, [], ⟨rfl, rfl⟩, List.append_nil u⟩⟩

end

section

variable {m n : Pattern α Unit} {L M : Language α}

lemma reads_one (p : α → Bool) : Reads (one p) (fun _ => words fun w => ∃ c, w = [c] ∧ p c = true) := by
  intro before s _ u r
  cases s with
  | nil =>
    constructor
    · exact fun h => absurd h List.not_mem_nil
    · rintro ⟨hs, c, rfl, _⟩
      exact absurd hs (List.cons_ne_nil _ _).symm
  | cons c s =>
    rw [one]
    constructor
    · intro h
      split at h
      · rename_i hc
        cases List.mem_singleton.mp h
        exact ⟨rfl, c, rfl, hc⟩
      · exact absurd h List.not_mem_nil
    · rintro ⟨hs, d, rfl, hd⟩
      obtain ⟨rfl, rfl⟩ := List.cons.inj hs
      rw [if_pos hd]
      exact List.mem_singleton_self _

lemma reads_exactly [DecidableEq α] (w : List α) : Reads (exactly w) (fun _ => words fun u => u = w) := by
  intro before s _ u r
  rw [exactly]
  constructor
  · intro h
    split at h
    · rename_i hp
      cases List.mem_singleton.mp h
      exact ⟨(List.prefix_append_drop hp), rfl⟩
    · exact absurd h List.not_mem_nil
  · rintro ⟨rfl, rfl⟩
    rw [if_pos (List.prefix_append u r), List.drop_left]
    exact List.mem_singleton_self _

lemma mem_splits : (u, r) ∈ splits p s ↔ s = u ++ r ∧ ∀ c ∈ u, p c = true := by
  induction s generalizing u with
  | nil =>
    rw [splits, List.mem_singleton, Prod.mk.injEq]
    constructor
    · rintro ⟨rfl, rfl⟩
      exact ⟨rfl, List.forall_mem_nil _⟩
    · rintro ⟨hs, _⟩
      exact List.append_eq_nil_iff.mp hs.symm
  | cons c s ih =>
    rw [splits, List.mem_append, List.mem_singleton, Prod.mk.injEq]
    constructor
    · rintro (h | ⟨rfl, rfl⟩)
      · split at h
        · rename_i hc
          obtain ⟨⟨v, t⟩, hv, hvt⟩ := List.mem_map.mp h
          cases hvt
          obtain ⟨rfl, hp⟩ := ih.mp hv
          exact ⟨rfl, List.forall_mem_cons.mpr ⟨hc, hp⟩⟩
        · exact absurd h List.not_mem_nil
      · exact ⟨rfl, List.forall_mem_nil _⟩
    · rintro ⟨hs, hu⟩
      cases u with
      | nil => exact Or.inr ⟨rfl, hs.symm⟩
      | cons d u =>
        obtain ⟨rfl, rfl⟩ := List.cons.inj hs
        obtain ⟨hc, hu⟩ := List.forall_mem_cons.mp hu
        rw [if_pos hc]
        exact Or.inl (List.mem_map.mpr ⟨(u, r), ih.mpr ⟨rfl, hu⟩, rfl⟩)

lemma reads_many (p : α → Bool) : Reads (many p) (fun _ => words fun w => ∀ c ∈ w, p c = true) := by
  intro before s _ u r
  rw [many, List.mem_map]
  constructor
  · rintro ⟨⟨v, t⟩, hv, hvt⟩
    cases hvt
    exact mem_splits.mp hv
  · exact fun h => ⟨(u, r), mem_splits.mpr h, rfl⟩

lemma reads_lazyMany (p : α → Bool) : Reads (lazyMany p) (fun _ => words fun w => ∀ c ∈ w, p c = true) := by
  intro before s _ u r
  rw [lazyMany, List.mem_map]
  constructor
  · rintro ⟨⟨v, t⟩, hv, hvt⟩
    cases hvt
    exact mem_splits.mp (List.mem_reverse.mp hv)
  · exact fun h => ⟨(u, r), List.mem_reverse.mpr (mem_splits.mpr h), rfl⟩

lemma Reads.seq (hm : Reads m (fun _ => L)) (hn : Reads n (fun _ => M)) :
    Reads (do m; n) (fun _ => L * M) := by
  intro before s _ w r
  have hb : Reads (do m; n) _ := hm.bind (fun _ => hn)
  rw [hb, mem_words, exists_const]

lemma repeated_reads (hm : Reads m (fun _ => L)) (k : ℕ) :
    Reads (repeated m k)
      (fun _ => words fun w => ∃ ws : List (List α), w = ws.flatten ∧ ws.length ≤ k ∧ ∀ v ∈ ws, v ∈ L) := by
  induction k with
  | zero =>
    intro before s _ u r
    rw [repeated, mem_pure]
    constructor
    · rintro ⟨-, rfl, rfl⟩
      exact ⟨rfl, [], rfl, le_refl 0, List.forall_mem_nil _⟩
    · rintro ⟨rfl, ws, rfl, hk, -⟩
      obtain rfl := List.length_eq_zero_iff.mp (Nat.le_zero.mp hk)
      exact ⟨rfl, rfl, rfl⟩
  | succ k ih =>
    intro before s _ u r
    have hr := (hm.seq ih).alt (Reads.pure ())
    rw [repeated, hr]
    apply and_congr_right
    rintro rfl
    rw [Language.mem_add, Language.mem_mul]
    constructor
    · rintro (⟨v, hv, _, ⟨ws, rfl, hk, hws⟩, rfl⟩ | ⟨-, rfl⟩)
      · exact ⟨v :: ws, rfl, Nat.succ_le_succ hk, List.forall_mem_cons.mpr ⟨hv, hws⟩⟩
      · exact ⟨[], rfl, Nat.zero_le _, List.forall_mem_nil _⟩
    · rintro ⟨ws, rfl, hk, hws⟩
      cases ws with
      | nil => exact Or.inr ⟨rfl, rfl⟩
      | cons v ws =>
        obtain ⟨hv, hws⟩ := List.forall_mem_cons.mp hws
        exact Or.inl ⟨v, hv, _, ⟨ws, rfl, Nat.le_of_succ_le_succ hk, hws⟩, rfl⟩

lemma length_le_flatten {ws : List (List α)} (h : ∀ v ∈ ws, v ≠ []) : ws.length ≤ ws.flatten.length := by
  induction ws with
  | nil => exact le_refl 0
  | cons v ws ih =>
    obtain ⟨hv, hws⟩ := List.forall_mem_cons.mp h
    have hlen := List.length_pos_iff.mpr hv
    have hrest := ih hws
    rw [List.flatten_cons, List.length_append, List.length_cons]
    omega

open scoped Computability in
lemma reads_star (hm : Reads m (fun _ => L)) (hL : [] ∉ L) : Reads (star m) (fun _ => L∗) := by
  intro before s _ u r
  rw [star, repeated_reads hm, Language.mem_kstar]
  apply and_congr_right
  rintro rfl
  constructor
  · rintro ⟨ws, rfl, -, hws⟩
    exact ⟨ws, rfl, hws⟩
  · rintro ⟨ws, rfl, hws⟩
    refine ⟨ws, rfl, ?_, hws⟩
    have hlen := length_le_flatten (fun v hv (hnil : v = []) => hL (hnil ▸ hws v hv))
    rw [List.length_append]
    omega

end

end Pattern

end TheCargo.Foundation
