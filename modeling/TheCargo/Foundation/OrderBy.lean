import Mathlib.Data.List.Sort
import Mathlib.Data.List.Forall2
import Mathlib.Tactic.Common

/-! `ORDER BY`: rows sorted by several keys that may be NULL, the rows of one key by the next. -/

namespace TheCargo.Foundation.OrderBy

variable {ρ ι : Type*} [LinearOrder ι]

inductive Direction
  | asc
  | desc
  | descNullsLast
  deriving DecidableEq

/-- Whether a key stands before another one. A NULL stands after every value, and before it under plain `DESC`. -/
def Direction.Before : Direction → Option ι → Option ι → Prop
  | .asc, some x, some y => x < y
  | .desc, some x, some y => y < x
  | .descNullsLast, some x, some y => y < x
  | .asc, some _, none => True
  | .descNullsLast, some _, none => True
  | .desc, none, some _ => True
  | _, _, _ => False

structure Key (ρ ι : Type*) where
  value : ρ → Option ι
  direction : Direction

def Precedes : List (Key ρ ι) → ρ → ρ → Prop
  | [], _, _ => True
  | k :: ks, a, b => k.direction.Before (k.value a) (k.value b) ∨ (k.value a = k.value b ∧ Precedes ks a b)

instance (d : Direction) (x y : Option ι) : Decidable (d.Before x y) :=
  match d, x, y with
  | .asc, some x, some y => inferInstanceAs (Decidable (x < y))
  | .desc, some x, some y => inferInstanceAs (Decidable (y < x))
  | .descNullsLast, some x, some y => inferInstanceAs (Decidable (y < x))
  | .asc, some _, none => isTrue trivial
  | .descNullsLast, some _, none => isTrue trivial
  | .desc, none, some _ => isTrue trivial
  | .asc, none, _ => isFalse id
  | .descNullsLast, none, _ => isFalse id
  | .desc, none, none => isFalse id
  | .desc, some _, none => isFalse id

instance decidablePrecedes : (keys : List (Key ρ ι)) → (a b : ρ) → Decidable (Precedes keys a b)
  | [], _, _ => isTrue trivial
  | k :: ks, a, b =>
    have := decidablePrecedes ks a b
    inferInstanceAs (Decidable (k.direction.Before (k.value a) (k.value b) ∨ (k.value a = k.value b ∧ Precedes ks a b)))

structure Answers (keys : List (Key ρ ι)) (rows answer : List ρ) : Prop where
  perm : answer.Perm rows
  sorted : answer.Pairwise (Precedes keys)

variable {d : Direction} {x y : Option ι} {k : Key ρ ι} {keys keys' : List (Key ρ ι)} {a b : ρ}
  {rows answer answer' : List ρ}

lemma Direction.Before.asymm (h : d.Before x y) : ¬ d.Before y x ∧ x ≠ y := by
  cases d <;> cases x <;> cases y <;> simp only [Direction.Before] at h ⊢ <;> grind

lemma precedes_antisymm (h : Precedes keys a b) (h' : Precedes keys b a) : ∀ k ∈ keys, k.value a = k.value b := by
  induction keys with
  | nil => exact fun k hk => absurd hk List.not_mem_nil
  | cons k keys ih =>
    rcases h with h | ⟨heq, h⟩
    · rcases h' with h' | ⟨heq', -⟩
      · exact absurd h' h.asymm.1
      · exact absurd heq'.symm h.asymm.2
    · rcases h' with h' | ⟨-, h'⟩
      · exact absurd heq.symm h'.asymm.2
      · exact List.forall_mem_cons.mpr ⟨heq, ih h h'⟩

lemma Answers.unique (h : Answers keys rows answer) (h' : Answers keys rows answer')
    (hkey : ∃ k ∈ keys, ∀ a ∈ rows, ∀ b ∈ rows, k.value a = k.value b → a = b) : answer = answer' := by
  obtain ⟨k, hk, hunique⟩ := hkey
  refine List.Perm.eq_of_pairwise ?_ h.sorted h'.sorted (h.perm.trans h'.perm.symm)
  intro a b ha hb hab hba
  exact hunique a (h.perm.mem_iff.mp ha) b (h'.perm.mem_iff.mp hb) (precedes_antisymm hab hba k hk)

lemma Answers.nulls_last (h : Answers (k :: keys) rows answer) (hk : k.direction ≠ .desc) :
    answer.Pairwise (fun a b => k.value a = none → k.value b = none) := by
  refine h.sorted.imp (fun hab hnull => ?_)
  rcases hab with hab | ⟨heq, -⟩
  · rw [hnull] at hab
    cases hd : k.direction with
    | desc => exact absurd hd hk
    | asc => simp [hd, Direction.Before] at hab
    | descNullsLast => simp [hd, Direction.Before] at hab
  · exact heq ▸ hnull

def Opposed (k k' : Key ρ ι) : Prop :=
  k.value = k'.value ∧ (k.direction = .asc ∧ k'.direction ≠ .asc ∨ k.direction ≠ .asc ∧ k'.direction = .asc)

lemma Opposed.before {k k' : Key ρ ι} (h : Opposed k k') (ha : k.value a ≠ none) (hb : k.value b ≠ none)
    (hab : k.direction.Before (k.value a) (k.value b)) : k'.direction.Before (k'.value b) (k'.value a) := by
  obtain ⟨hvalue, hdirection⟩ := h
  rw [← hvalue]
  obtain ⟨x, hx⟩ := Option.ne_none_iff_exists'.mp ha
  obtain ⟨y, hy⟩ := Option.ne_none_iff_exists'.mp hb
  rw [hx, hy] at hab ⊢
  cases hd : k.direction <;> cases hd' : k'.direction <;> simp_all [Direction.Before]

lemma Opposed.precedes (h : List.Forall₂ Opposed keys keys') (ha : ∀ k ∈ keys, k.value a ≠ none)
    (hb : ∀ k ∈ keys, k.value b ≠ none) (hab : Precedes keys a b) : Precedes keys' b a := by
  induction h with
  | nil => trivial
  | @cons k k' keys keys' hk _ ih =>
    obtain ⟨ha, has⟩ := List.forall_mem_cons.mp ha
    obtain ⟨hb, hbs⟩ := List.forall_mem_cons.mp hb
    rcases hab with hab | ⟨heq, hab⟩
    · exact .inl (hk.before ha hb hab)
    · refine .inr ⟨?_, ih has hbs hab⟩
      rw [← hk.1, heq]

lemma Answers.reversed (hopposed : List.Forall₂ Opposed keys keys') (h : Answers keys rows answer)
    (h' : Answers keys' rows answer') (hkey : ∃ k ∈ keys', ∀ a ∈ rows, ∀ b ∈ rows, k.value a = k.value b → a = b)
    {p : ρ → Bool} (hp : ∀ a, p a = true → ∀ k ∈ keys, k.value a ≠ none) :
    answer'.filter p = (answer.filter p).reverse := by
  obtain ⟨k, hk, hunique⟩ := hkey
  have hkept : (answer.filter p).Pairwise (fun a b => Precedes keys' b a) := by
    refine (h.sorted.filter p).imp_of_mem ?_
    intro a b ha hb hab
    exact Opposed.precedes hopposed (hp a (List.mem_filter.mp ha).2) (hp b (List.mem_filter.mp hb).2) hab
  refine List.Perm.eq_of_pairwise ?_ (h'.sorted.filter p) (List.pairwise_reverse.mpr hkept) ?_
  · intro a b ha hb hab hba
    have ha' := h'.perm.mem_iff.mp (List.mem_of_mem_filter ha)
    have hb' := h.perm.mem_iff.mp (List.mem_of_mem_filter (List.mem_reverse.mp hb))
    exact hunique a ha' b hb' (precedes_antisymm hab hba k hk)
  · exact ((h'.perm.trans h.perm.symm).filter p).trans (List.reverse_perm _).symm

end TheCargo.Foundation.OrderBy
