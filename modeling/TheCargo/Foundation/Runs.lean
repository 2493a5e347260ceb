import Mathlib.Data.List.Basic
import Mathlib.Tactic.Common

/-! Finite runs of a partial step function, and what each step preserves. -/

namespace TheCargo.Foundation.Runs

variable {σ α : Type*} (step : σ → α → Option σ)

def run (s : σ) : List α → Option σ
  | [] => some s
  | a :: as => (step s a).bind (fun t => run t as)

def Along (ok : σ → α → Prop) (s : σ) : List α → Prop
  | [] => True
  | a :: as => ok s a ∧ ∀ t, step s a = some t → Along ok t as

instance decidableAlong {ok : σ → α → Prop} [∀ s a, Decidable (ok s a)] (s : σ) :
    (as : List α) → Decidable (Along step ok s as)
  | [] => inferInstanceAs (Decidable True)
  | a :: as =>
    letI : ∀ t, Decidable (Along step ok t as) := fun t => decidableAlong t as
    inferInstanceAs (Decidable (ok s a ∧ ∀ t ∈ step s a, Along step ok t as))

variable {step}

lemma run_cons {s t : σ} {a : α} {as : List α} :
    run step s (a :: as) = some t ↔ ∃ u, step s a = some u ∧ run step u as = some t := by
  simp [run, Option.bind_eq_some_iff]

lemma run_append {s t : σ} {as : List α} (h : run step s as = some t) (bs : List α) :
    run step s (as ++ bs) = run step t bs := by
  induction as generalizing s with
  | nil => rw [List.nil_append, Option.some.inj h]
  | cons a as ih =>
    obtain ⟨u, hu, hr⟩ := run_cons.mp h
    rw [List.cons_append, run, hu, Option.bind_some]
    exact ih hr

lemma run_split {s t : σ} {as bs : List α} (h : run step s (as ++ bs) = some t) :
    ∃ u, run step s as = some u ∧ run step u bs = some t := by
  induction as generalizing s with
  | nil => exact ⟨s, rfl, h⟩
  | cons a as ih =>
    obtain ⟨v, hv, hr⟩ := run_cons.mp h
    obtain ⟨u, hu, ht⟩ := ih hr
    exact ⟨u, run_cons.mpr ⟨v, hv, hu⟩, ht⟩

lemma run_along {ok : σ → α → Prop} {Inv : σ → Prop}
    (hstep : ∀ s a t, Inv s → ok s a → step s a = some t → Inv t) {s t : σ} {as : List α}
    (hs : Inv s) (hok : Along step ok s as) (h : run step s as = some t) : Inv t := by
  induction as generalizing s with
  | nil => exact Option.some.inj h ▸ hs
  | cons a as ih =>
    obtain ⟨u, hu, hr⟩ := run_cons.mp h
    exact ih (hstep s a u hs hok.1 hu) (hok.2 u hu) hr

lemma along_congr {ok ok' : σ → α → Prop} {Inv : σ → Prop} (hiff : ∀ s a, Inv s → (ok s a ↔ ok' s a))
    (hstep : ∀ s a t, Inv s → ok s a → step s a = some t → Inv t) {s : σ} {as : List α} (hs : Inv s) :
    Along step ok s as ↔ Along step ok' s as := by
  induction as generalizing s with
  | nil => exact Iff.rfl
  | cons a as ih =>
    rw [Along, Along, ← hiff s a hs]
    apply and_congr_right
    intro hok
    exact forall_congr' (fun t => forall_congr' (fun ht => ih (hstep s a t hs hok ht)))

lemma Along.imp {ok ok' : σ → α → Prop} {Inv : σ → Prop} (himp : ∀ s a, Inv s → ok s a → ok' s a)
    (hstep : ∀ s a t, Inv s → ok s a → step s a = some t → Inv t) {s : σ} {as : List α} (hs : Inv s)
    (h : Along step ok s as) : Along step ok' s as := by
  induction as generalizing s with
  | nil => trivial
  | cons a as ih => exact ⟨himp s a hs h.1, fun t ht => ih (hstep s a t hs h.1 ht) (h.2 t ht)⟩

lemma always_iff {P : σ → Prop} {s : σ} {as : List α} (hs : P s) :
    (∀ bs t, bs <+: as → run step s bs = some t → P t) ↔
      Along step (fun s a => ∀ t, step s a = some t → P t) s as := by
  induction as generalizing s with
  | nil =>
    constructor
    · exact fun _ => trivial
    · intro _ bs t hbs ht
      obtain rfl := List.prefix_nil.mp hbs
      exact Option.some.inj ht ▸ hs
  | cons a as ih =>
    constructor
    · intro h
      have hfirst : ∀ t, step s a = some t → P t := fun t ht =>
        h [a] t (List.cons_prefix_cons.mpr ⟨rfl, List.nil_prefix⟩) (run_cons.mpr ⟨t, ht, rfl⟩)
      refine ⟨hfirst, fun t ht => (ih (hfirst t ht)).mp fun bs u hbs hu => ?_⟩
      exact h (a :: bs) u (List.cons_prefix_cons.mpr ⟨rfl, hbs⟩) (run_cons.mpr ⟨t, ht, hu⟩)
    · rintro ⟨hfirst, hrest⟩ bs u hbs hu
      cases bs with
      | nil => exact Option.some.inj hu ▸ hs
      | cons b bs =>
        obtain ⟨rfl, htail⟩ := List.cons_prefix_cons.mp hbs
        obtain ⟨t, ht, hu⟩ := run_cons.mp hu
        exact (ih (hfirst t ht)).mpr (hrest t ht) bs u htail hu

lemma along_true (s : σ) (as : List α) : Along step (fun _ _ => True) s as := by
  induction as generalizing s with
  | nil => trivial
  | cons a as ih => exact ⟨trivial, fun t _ => ih t⟩

lemma run_invariant {Inv : σ → Prop} (hstep : ∀ s a t, Inv s → step s a = some t → Inv t)
    {s t : σ} {as : List α} (hs : Inv s) (h : run step s as = some t) : Inv t :=
  run_along (fun s a t hi _ => hstep s a t hi) hs (along_true s as) h

lemma run_gathers {Inv : List α → σ → Prop}
    (hstep : ∀ before s a t, Inv before s → step s a = some t → Inv (before ++ [a]) t) {before as : List α} {s t : σ}
    (hs : Inv before s) (h : run step s as = some t) : Inv (before ++ as) t := by
  induction as generalizing before s with
  | nil =>
    rw [List.append_nil]
    exact Option.some.inj h ▸ hs
  | cons a as ih =>
    obtain ⟨u, hu, hr⟩ := run_cons.mp h
    rw [List.append_cons]
    exact ih (hstep before s a u hs hu) hr

lemma run_total {I : List α → σ → Prop} {as : List α} {s : σ}
    (hstep : ∀ before u a after, as = before ++ a :: after → I before u → ∃ t, step u a = some t ∧ I (before ++ [a]) t)
    (hs : I [] s) : ∃ t, run step s as = some t ∧ I as t := by
  have hrest (after before : List α) (u : σ) (has : as = before ++ after) (hu : I before u) :
      ∃ t, run step u after = some t ∧ I as t := by
    induction after generalizing before u with
    | nil =>
      rw [List.append_nil] at has
      exact ⟨u, rfl, has ▸ hu⟩
    | cons a after ih =>
      obtain ⟨v, hv, hinv⟩ := hstep before u a after has hu
      rw [List.append_cons] at has
      obtain ⟨t, ht, hinv⟩ := ih (before ++ [a]) v has hinv
      exact ⟨t, run_cons.mpr ⟨v, hv, ht⟩, hinv⟩
  exact hrest as [] s rfl hs

lemma run_relates {R : σ → σ → Prop} (hrefl : ∀ s, R s s)
    (htrans : ∀ {s t u}, R s t → R t u → R s u)
    (hstep : ∀ s a t, step s a = some t → R s t) {s t : σ} {as : List α}
    (h : run step s as = some t) : R s t := by
  induction as generalizing s with
  | nil => exact Option.some.inj h ▸ hrefl s
  | cons a as ih =>
    obtain ⟨u, hu, hr⟩ := run_cons.mp h
    exact htrans (hstep s a u hu) (ih hr)

lemma run_length_le {left : σ → ℕ} (hstep : ∀ s a t, step s a = some t → left t < left s) {s t : σ}
    {as : List α} (h : run step s as = some t) : as.length ≤ left s := by
  induction as generalizing s with
  | nil => exact Nat.zero_le _
  | cons a as ih =>
    obtain ⟨u, hu, hr⟩ := run_cons.mp h
    have hlt := hstep s a u hu
    have hle := ih hr
    rw [List.length_cons]
    omega

lemma foldl_part {φ : Type*} {next : σ → α → σ} {part : σ → φ} {p : α → Bool}
    (hkeep : ∀ s a, p a = false → part (next s a) = part s)
    (hown : ∀ s t a, p a = true → part s = part t → part (next s a) = part (next t a)) (as : List α) {s t : σ}
    (h : part s = part t) : part (as.foldl next s) = part ((as.filter p).foldl next t) := by
  induction as generalizing s t with
  | nil => exact h
  | cons a as ih =>
    cases ha : p a with
    | true =>
      rw [List.filter_cons_of_pos ha]
      exact ih (hown s t a ha h)
    | false =>
      rw [List.filter_cons_of_neg (by simp [ha])]
      exact ih ((hkeep s a ha).trans h)

end TheCargo.Foundation.Runs
