import TheCargo.Foundation.Pattern

/-! What becomes of a text when the matches of a pattern are replaced from left to right. -/

namespace TheCargo.Foundation

variable {α β : Type}

/-- What a rule does at a place of a text: the letter before it, the text taken there, what follows, and what the text
taken becomes. -/
abbrev Rule (α : Type) := Option α → List α → List α → List α → Prop

/-- Replaces the first match at every place not taken by an earlier one, past the letters still to be skipped. No
pattern used here matches the empty text. -/
def sub (m : Pattern α β) (f : β → List α → List α) : ℕ → Option α → List α → List α
  | _, _, [] => []
  | skip + 1, _, c :: s => sub m f skip (some c) s
  | 0, before, c :: s =>
    match (m before (c :: s)).head? with
    | none => c :: sub m f 0 (some c) s
    | some (x, u, _) => f x u ++ sub m f (u.length - 1) (some c) s

structure Follows (m : Pattern α β) (f : β → List α → List α) (H : Rule α) : Prop where
  sound : ∀ before s x u r, (x, u, r) ∈ m before s → s = u ++ r ∧ H before u r (f x u)
  complete : ∀ before u r v, H before u r v → m before (u ++ r) ≠ []

namespace Rule

structure Proper (H : Rule α) : Prop where
  consumes : ∀ before u r v, H before u r v → u ≠ []
  unique : ∀ before u r v u' r' v', H before u r v → H before u' r' v' → u ++ r = u' ++ r' → u = u' ∧ v = v'

structure Opens (H : Rule α) (k : α) : Prop where
  source : ∀ before u r v, H before u r v → u.head? = some k
  target : ∀ before u r v, H before u r v → v.head? = some k

structure Stops (H : Rule α) (t : List α) : Prop where
  stays : ∀ before u r v, H before u r v → H before u (r ++ t) v
  ends : ∀ before s u r v, s ≠ [] → s ++ t = u ++ r → H before u r v → ∃ r', s = u ++ r' ∧ H before u r' v

end Rule

inductive Scan (H : Rule α) : Option α → List α → List α → Prop
  | nil (before : Option α) : Scan H before [] []
  | miss {before : Option α} {c : α} {s o : List α} (h : ∀ u r v, c :: s = u ++ r → ¬ H before u r v)
      (next : Scan H (some c) s o) : Scan H before (c :: s) (c :: o)
  | hit {before : Option α} {u r v o : List α} (h : H before u r v) (next : Scan H u.getLast? r o) :
      Scan H before (u ++ r) (v ++ o)

variable {m : Pattern α β} {f : β → List α → List α} {H : Rule α} {before : Option α} {s s' t o o' p : List α} {k : α}

lemma or_getLast_cons (c : α) (u : List α) (before : Option α) :
    u.getLast?.or (some c) = (c :: u).getLast?.or before := by
  rw [List.getLast?_cons]
  cases u.getLast? <;> rfl

lemma getLast_or {u : List α} (hu : u ≠ []) (before : Option α) : u.getLast?.or before = u.getLast? := by
  rw [List.getLast?_eq_some_getLast hu]
  rfl

lemma sub_skip (u r : List α) (before : Option α) :
    sub m f u.length before (u ++ r) = sub m f 0 (u.getLast?.or before) r := by
  induction u generalizing before with
  | nil => rfl
  | cons c u ih =>
    have hstep : sub m f (c :: u).length before (c :: u ++ r) = sub m f u.length (some c) (u ++ r) := rfl
    rw [hstep, ih, or_getLast_cons]

lemma scan_sub (hm : Follows m f H) (hH : H.Proper) (before : Option α) (s : List α) :
    Scan H before s (sub m f 0 before s) := by
  induction s using (measure List.length).wf.induction generalizing before with
  | h s ih =>
    cases s with
    | nil => exact Scan.nil before
    | cons c s =>
      rw [sub]
      cases hh : (m before (c :: s)).head? with
      | none =>
        refine Scan.miss ?_ (ih s (Nat.lt_succ_self s.length) (some c))
        intro u r v hs hu
        exact hm.complete before u r v hu (hs ▸ List.head?_eq_none_iff.mp hh)
      | some e =>
        obtain ⟨x, u, r⟩ := e
        obtain ⟨hs, hu⟩ := hm.sound before (c :: s) x u r (List.mem_of_head? hh)
        cases u with
        | nil => exact absurd rfl (hH.consumes before [] r _ hu)
        | cons d u =>
          obtain ⟨rfl, rfl⟩ := List.cons.inj hs
          have hskip : sub m f u.length (some c) (u ++ r) = _ := sub_skip u r (some c)
          have hlast := or_getLast_cons c u none
          rw [Option.or_none] at hlast
          change Scan H before ((c :: u) ++ r) (f x (c :: u) ++ sub m f u.length (some c) (u ++ r))
          rw [hskip, hlast]
          refine Scan.hit hu (ih r ?_ _)
          change r.length < (c :: (u ++ r)).length
          rw [List.length_cons, List.length_append]
          omega

namespace Scan

lemma unique_of_eq (hH : H.Proper) (h : Scan H before s o) (h' : Scan H before s' o') (he : s = s') : o = o' := by
  induction h generalizing s' o' with
  | nil before =>
    cases h' with
    | nil => rfl
    | miss => exact absurd he.symm (List.cons_ne_nil _ _)
    | hit hu =>
      obtain ⟨rfl, -⟩ := List.append_eq_nil_iff.mp he.symm
      exact absurd rfl (hH.consumes _ _ _ _ hu)
  | miss hs next ih =>
    cases h' with
    | nil => exact absurd he (List.cons_ne_nil _ _)
    | miss hs' next' =>
      obtain ⟨rfl, rfl⟩ := List.cons.inj he
      rw [ih next' rfl]
    | hit hu next' => exact absurd hu (hs _ _ _ he)
  | hit hu next ih =>
    cases h' with
    | nil =>
      obtain ⟨rfl, -⟩ := List.append_eq_nil_iff.mp he
      exact absurd rfl (hH.consumes _ _ _ _ hu)
    | miss hs' next' => exact absurd hu (hs' _ _ _ he.symm)
    | hit hu' next' =>
      obtain ⟨rfl, rfl⟩ := hH.unique _ _ _ _ _ _ _ hu hu' he
      rw [ih next' (List.append_cancel_left he)]

lemma unique (hH : H.Proper) (h : Scan H before s o) (h' : Scan H before s o') : o = o' :=
  h.unique_of_eq hH h' rfl

lemma same (h : Scan H before s o) (hs : ∀ before u r v, u ++ r <:+ s → H before u r v → v = u) : o = s := by
  induction h with
  | nil before => rfl
  | miss _ next ih =>
    rw [ih (fun before u r v hsuf => hs before u r v (hsuf.trans (List.suffix_cons _ _)))]
  | hit hu next ih =>
    rw [hs _ _ _ _ (List.suffix_refl _) hu,
      ih (fun before u r v hsuf => hs before u r v (hsuf.trans (List.suffix_append _ _)))]

lemma head_eq (hk : H.Opens k) (h : Scan H before s o) : o.head? = s.head? := by
  cases h with
  | nil before => rfl
  | miss _ next => rfl
  | hit hu next =>
    rw [List.head?_append, List.head?_append, hk.source _ _ _ _ hu, hk.target _ _ _ _ hu]
    rfl

lemma of_eq_append (hk : H.Opens k) (h : Scan H before s o) (hp : k ∉ p) (he : o = p ++ o') :
    ∃ t, s = p ++ t ∧ Scan H (p.getLast?.or before) t o' := by
  induction p generalizing before s o with
  | nil =>
    obtain rfl : o = o' := he
    exact ⟨s, rfl, h⟩
  | cons c p ih =>
    rw [List.mem_cons, not_or] at hp
    cases h with
    | nil before => exact absurd he.symm (List.cons_ne_nil _ _)
    | miss _ next =>
      obtain ⟨rfl, rfl⟩ := List.cons.inj he
      obtain ⟨t, rfl, ht⟩ := ih next hp.2 rfl
      rw [or_getLast_cons] at ht
      exact ⟨t, rfl, ht⟩
    | hit hu next =>
      have hc := congrArg List.head? he
      rw [List.head?_append, hk.target _ _ _ _ hu] at hc
      exact absurd (Option.some.inj hc) hp.1

lemma pass (hk : H.Opens k) (hp : k ∉ p) (h : Scan H (p.getLast?.or before) s o) :
    Scan H before (p ++ s) (p ++ o) := by
  induction p generalizing before with
  | nil => exact h
  | cons c p ih =>
    rw [List.mem_cons, not_or] at hp
    rw [← or_getLast_cons] at h
    refine Scan.miss ?_ (ih hp.2 h)
    intro u r v he hu
    have hc := congrArg List.head? he
    rw [List.head?_append, hk.source _ _ _ _ hu] at hc
    exact hp.1 (Option.some.inj hc).symm

lemma before_congr {before' : Option α} (hH : ∀ u r v, H before' u r v ↔ H before u r v) (h : Scan H before s o) :
    Scan H before' s o := by
  cases h with
  | nil => exact Scan.nil before'
  | miss hs next => exact Scan.miss (fun u r v he hu => hs u r v he ((hH u r v).mp hu)) next
  | hit hu next => exact Scan.hit ((hH _ _ _).mpr hu) next

lemma append (hH : H.Proper) (ht : H.Stops t) (h : Scan H before s o) (h' : Scan H (s.getLast?.or before) t o') :
    Scan H before (s ++ t) (o ++ o') := by
  induction h with
  | nil before => exact h'
  | miss hs next ih =>
    rw [← or_getLast_cons] at h'
    refine Scan.miss ?_ (ih h')
    intro u r v he hu
    obtain ⟨r', hr', hu'⟩ := ht.ends _ _ u r v (List.cons_ne_nil _ _) he hu
    exact hs u r' v hr' hu'
  | hit hu next ih =>
    rw [List.getLast?_append, Option.or_assoc, getLast_or (hH.consumes _ _ _ _ hu)] at h'
    rw [List.append_assoc, List.append_assoc]
    exact Scan.hit (ht.stays _ _ _ _ hu) (ih h')

end Scan

end TheCargo.Foundation
