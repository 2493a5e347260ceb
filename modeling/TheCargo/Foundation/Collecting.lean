import Mathlib.Data.Finset.Lattice.Lemmas

namespace TheCargo.Foundation

variable {α β : Type*} [DecidableEq β] {f : α → Option (Finset β)} {step : Finset β → α → Option (Finset β)}
  {a : α} {xs ys : List α} {r : Finset β}

def collect (f : α → Option (Finset β)) : List α → Option (Finset β)
  | [] => some ∅
  | a :: xs => do
    let part ← f a
    let rest ← collect f xs
    some (part ∪ rest)

lemma collect_cons : collect f (a :: xs) = some r ↔
    ∃ part, f a = some part ∧ ∃ rest, collect f xs = some rest ∧ r = part ∪ rest := by
  simp only [collect, Option.bind_eq_bind, Option.bind_eq_some_iff, Option.some.injEq, eq_comm (a := r)]

lemma collect_isSome : (∃ r, collect f xs = some r) ↔ ∀ a ∈ xs, ∃ part, f a = some part := by
  induction xs with
  | nil => exact iff_of_true ⟨∅, rfl⟩ (List.forall_mem_nil _)
  | cons a xs ih =>
    rw [List.forall_mem_cons, ← ih]
    constructor
    · rintro ⟨r, hr⟩
      obtain ⟨part, hpart, rest, hrest, _⟩ := collect_cons.mp hr
      exact ⟨⟨part, hpart⟩, rest, hrest⟩
    · rintro ⟨⟨part, hpart⟩, rest, hrest⟩
      exact ⟨part ∪ rest, collect_cons.mpr ⟨part, hpart, rest, hrest, rfl⟩⟩

lemma mem_collect (h : collect f xs = some r) (b : β) : b ∈ r ↔ ∃ a ∈ xs, ∃ part, f a = some part ∧ b ∈ part := by
  induction xs generalizing r with
  | nil =>
    obtain rfl := Option.some.inj h
    simp
  | cons a xs ih =>
    obtain ⟨part, hpart, rest, hrest, rfl⟩ := collect_cons.mp h
    rw [Finset.mem_union, ih hrest]
    simp [hpart]

lemma collect_append (h : collect f (xs ++ ys) = some r) :
    ∃ p q, collect f xs = some p ∧ collect f ys = some q ∧ r = p ∪ q := by
  induction xs generalizing r with
  | nil => exact ⟨∅, r, rfl, h, (Finset.empty_union r).symm⟩
  | cons a xs ih =>
    obtain ⟨part, hpart, rest, hrest, rfl⟩ := collect_cons.mp h
    obtain ⟨p, q, hp, hq, rfl⟩ := ih hrest
    exact ⟨part ∪ p, q, collect_cons.mpr ⟨part, hpart, p, hp, rfl⟩, hq, (Finset.union_assoc _ _ _).symm⟩

lemma foldlM_eq_collect (h : ∀ acc a, step acc a = (f a).map (acc ∪ ·)) (acc : Finset β) (xs : List α) :
    xs.foldlM step acc = (collect f xs).map (acc ∪ ·) := by
  induction xs generalizing acc with
  | nil => exact congrArg some (Finset.union_empty acc).symm
  | cons a xs ih =>
    rw [List.foldlM_cons, h, collect]
    cases hpart : f a with
    | none => rfl
    | some part =>
      simp only [Option.map_some, Option.bind_eq_bind, Option.bind_some, ih]
      cases collect f xs with
      | none => rfl
      | some rest => exact congrArg some (Finset.union_assoc _ _ _)

lemma collect_singleton (f : α → Option (Finset β)) (a : α) : collect f [a] = f a := by
  rw [collect, collect]
  cases f a with
  | none => rfl
  | some part => exact congrArg some (Finset.union_empty part)

end TheCargo.Foundation
