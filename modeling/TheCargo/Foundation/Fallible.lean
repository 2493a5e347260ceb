import Mathlib.Data.List.Forall2
import Mathlib.Tactic.Common

namespace TheCargo.Foundation

variable {ε α γ δ : Type}

lemma bind_ok_iff {x : Except ε α} {f : α → Except ε γ} {c : γ} :
    (x >>= f) = .ok c ↔ ∃ a, x = .ok a ∧ f a = .ok c := by
  cases x with
  | error e => simp [bind, Except.bind]
  | ok a => simp [bind, Except.bind]

lemma exists_ok {x : Except ε α} (h : x.isOk = true) : ∃ a, x = .ok a := by
  cases x with
  | error e => cases h
  | ok a => exact ⟨a, rfl⟩

lemma isOk_bind {x : Except ε α} {f : α → Except ε γ} :
    (x >>= f).isOk = true ↔ ∃ a, x = .ok a ∧ (f a).isOk = true := by
  cases x with
  | error e => simp [bind, Except.bind, Except.isOk, Except.toBool]
  | ok a => simp [bind, Except.bind]

lemma isOk_bind_iff {x : Except ε α} {f : α → Except ε γ} {p : Prop} (h : ∀ a, (f a).isOk = true ↔ p) :
    (x >>= f).isOk = true ↔ x.isOk = true ∧ p := by
  cases x with
  | error e => simp [bind, Except.bind, Except.isOk, Except.toBool]
  | ok a => exact (h a).trans (iff_and_self.mpr fun _ => rfl)

lemma isOk_bind_pure {x : Except ε α} {f : α → γ} :
    (x >>= fun a => pure (f a)).isOk = true ↔ x.isOk = true := by
  cases x <;> rfl

lemma isOk_map {x : Except ε α} {f : α → γ} : (x.map f).isOk = x.isOk := by
  cases x <;> rfl

lemma map_bind (f : γ → δ) (x : Except ε α) (k : α → Except ε γ) :
    (x >>= k).map f = x >>= fun a => (k a).map f := by
  cases x <;> rfl

lemma mapM_ok_iff {f : α → Except ε γ} {xs : List α} {ys : List γ} :
    xs.mapM f = .ok ys ↔ List.Forall₂ (fun a b => f a = .ok b) xs ys := by
  induction xs generalizing ys with
  | nil =>
    rw [List.mapM_nil, List.forall₂_nil_left_iff]
    exact ⟨fun h => (Except.ok.inj h).symm, fun h => h ▸ rfl⟩
  | cons a xs ih =>
    rw [List.mapM_cons, List.forall₂_cons_left_iff, bind_ok_iff]
    constructor
    · rintro ⟨b, hb, h⟩
      obtain ⟨bs, hbs, h⟩ := bind_ok_iff.mp h
      exact ⟨b, bs, hb, ih.mp hbs, (Except.ok.inj h).symm⟩
    · rintro ⟨b, bs, hb, hbs, rfl⟩
      exact ⟨b, hb, bind_ok_iff.mpr ⟨bs, ih.mpr hbs, rfl⟩⟩

lemma mapM_some_iff {f : α → Option γ} {xs : List α} {ys : List γ} :
    xs.mapM f = some ys ↔ List.Forall₂ (fun a b => f a = some b) xs ys := by
  induction xs generalizing ys with
  | nil =>
    rw [List.mapM_nil, List.forall₂_nil_left_iff]
    exact ⟨fun h => (Option.some.inj h).symm, fun h => h ▸ rfl⟩
  | cons a xs ih =>
    rw [List.mapM_cons, List.forall₂_cons_left_iff, Option.bind_eq_bind, Option.bind_eq_some_iff]
    constructor
    · rintro ⟨b, hb, h⟩
      obtain ⟨bs, hbs, h⟩ := Option.bind_eq_some_iff.mp h
      exact ⟨b, bs, hb, ih.mp hbs, (Option.some.inj h).symm⟩
    · rintro ⟨b, bs, hb, hbs, rfl⟩
      exact ⟨b, hb, Option.bind_eq_some_iff.mpr ⟨bs, ih.mpr hbs, rfl⟩⟩

lemma forall₂_mem {α β : Type*} {R : α → β → Prop} {xs : List α} {ys : List β} (h : List.Forall₂ R xs ys) {a : α}
    (ha : a ∈ xs) : ∃ b ∈ ys, R a b := by
  induction h with
  | nil => cases ha
  | cons hR _ ih =>
    rcases List.mem_cons.mp ha with rfl | ha
    · exact ⟨_, List.mem_cons_self, hR⟩
    · obtain ⟨b, hb, hR⟩ := ih ha
      exact ⟨b, List.mem_cons_of_mem _ hb, hR⟩

lemma exists_forall₂ {R : α → γ → Prop} {xs : List α} (h : ∀ a ∈ xs, ∃ b, R a b) : ∃ ys, List.Forall₂ R xs ys := by
  induction xs with
  | nil => exact ⟨[], .nil⟩
  | cons a xs ih =>
    obtain ⟨b, hb⟩ := h a List.mem_cons_self
    obtain ⟨bs, hbs⟩ := ih (fun c hc => h c (List.mem_cons_of_mem _ hc))
    exact ⟨b :: bs, .cons hb hbs⟩

end TheCargo.Foundation
