import Mathlib.Algebra.Order.Group.Abs
import Mathlib.Algebra.Order.Group.Int
import Mathlib.Data.Int.Notation
import Mathlib.Order.Lattice
import Mathlib.Tactic.Common

/-! Clocks that are put forward and back: a reading is an instant and the offset kept there. -/

namespace TheCargo.Foundation

structure Transition where
  instant : ℤ
  offset : ℤ
  deriving DecidableEq

namespace Clock

def Jumps (clock : ℤ → ℤ) (w s : ℤ) : Prop :=
  (clock (s - 1) + 1 < w ∧ w < clock s) ∨ (clock s < w ∧ w < clock (s - 1) + 1)

def Short (clock : ℤ → ℤ) (n : ℤ) : Prop :=
  ∀ s, clock s ≤ clock (s - 1) + 1 + n ∧ clock (s - 1) + 1 ≤ clock s + n

/-- The clock is first at `w` or past it at `s`; the reading is taken for `r`, as if the clock had not been put
forward where it skips `w`. -/
structure Reaches (clock : ℤ → ℤ) (w s r : ℤ) : Prop where
  below : ∀ t < s, clock t < w
  reached : w ≤ clock s
  meets : clock s = w → r = s
  skips : w < clock s → r = s + (w - (clock (s - 1) + 1))

variable {clock : ℤ → ℤ} {w w' s s' r r' n t : ℤ}

lemma Reaches.before (h : Reaches clock w s r) : clock (s - 1) + 1 ≤ w := h.below (s - 1) (by omega)

lemma Reaches.eq_of_not_jumps (h : Reaches clock w s r) (hs : ¬ Jumps clock w s) : r = s := by
  rcases Int.lt_or_eq_of_le h.reached with hlt | heq
  · have hr := h.skips hlt
    have hbefore := h.before
    have hskip : ¬ clock (s - 1) + 1 < w := fun hskip => hs (Or.inl ⟨hskip, hlt⟩)
    omega
  · exact h.meets heq.symm

lemma Reaches.stays (h : Reaches clock w s r) (hs : ∀ k, ¬ Jumps clock w k) (t : ℤ) (ht : s ≤ t) : w ≤ clock t := by
  induction t, ht using Int.leInduction with
  | base => exact h.reached
  | succ k hk ih =>
    by_contra hlt
    apply hs (k + 1)
    rw [Jumps, show k + 1 - 1 = k by omega]
    omega

lemma Reaches.lt_iff (h : Reaches clock w s r) (hs : ∀ k, ¬ Jumps clock w k) : t < r ↔ clock t < w := by
  rw [h.eq_of_not_jumps (hs s)]
  refine ⟨h.below t, fun hlt => ?_⟩
  by_contra hge
  have hstays := h.stays hs t (Int.not_lt.mp hge)
  omega

def Cuts (clock : ℤ → ℤ) (w w' r r' : ℤ) : Prop := ∀ t, (r ≤ t ∧ t < r') ↔ w ≤ clock t ∧ clock t < w'

lemma cuts_of_not_jumps (h : Reaches clock w s r) (h' : Reaches clock w' s' r') (hs : ∀ k, ¬ Jumps clock w k)
    (hs' : ∀ k, ¬ Jumps clock w' k) : Cuts clock w w' r r' := by
  intro t
  have hlow := h.lt_iff hs (t := t)
  have hhigh := h'.lt_iff hs' (t := t)
  omega

lemma Cuts.start_met (hcut : Cuts clock w (w + n) r r') (h : Reaches clock w s r) (hn : Short clock n) : r = s := by
  by_contra hne
  rcases Int.lt_or_eq_of_le h.reached with hlt | heq
  · have hr := h.skips hlt
    have hbefore := h.before
    have hshort := (hn s).1
    have hcut := (hcut s).mpr ⟨h.reached, by omega⟩
    omega
  · exact hne (h.meets heq.symm)

lemma Cuts.stop_met (hcut : Cuts clock w (w + n) r r') (h : Reaches clock w s r) (h' : Reaches clock (w + n) s' r')
    (hn : Short clock n) (hpos : 0 < n) : r' = s' := by
  have hstart := hcut.start_met h hn
  have hreached := h'.reached
  have hle : s ≤ s' := by
    by_contra hgt
    have hlow := h.below s' (by omega)
    omega
  by_contra hne
  rcases Int.lt_or_eq_of_le h'.reached with hlt | heq
  · have hr := h'.skips hlt
    have hbefore := h'.before
    have hcut := (hcut s').mp (by omega)
    omega
  · exact hne (h'.meets heq.symm)

-- At a jump over either end the clock enters or leaves the window, so the jump is where the window starts or stops.
lemma Cuts.not_jumps (hcut : Cuts clock w (w + n) r r') (h : Reaches clock w s r) (h' : Reaches clock (w + n) s' r')
    (hn : Short clock n) (hpos : 0 < n) (k : ℤ) : ¬ Jumps clock w k ∧ ¬ Jumps clock (w + n) k := by
  have hstart := hcut.start_met h hn
  have hstop := hcut.stop_met h h' hn hpos
  have hshort := hn k
  have hat := hcut k
  have hbefore := hcut (k - 1)
  have hlow := h.below (k - 1)
  have hreached := h'.reached
  refine ⟨?_, ?_⟩
  · rintro (⟨hskip, hlt⟩ | ⟨hlt, hback⟩)
    · have heq : k = s := by omega
      subst heq
      have hr := h.skips hlt
      omega
    · have heq : k = s' := by omega
      subst heq
      omega
  · rintro (⟨hskip, hlt⟩ | ⟨hlt, hback⟩)
    · have heq : k = s' := by omega
      subst heq
      have hr := h'.skips hlt
      omega
    · have heq : k = s := by omega
      omega

def offsetAt (offset : ℤ) : List Transition → ℤ → ℤ
  | [], _ => offset
  | c :: rest, t => if t < c.instant then offset else offsetAt c.offset rest t

def reading (offset : ℤ) (cs : List Transition) (t : ℤ) : ℤ := t + offsetAt offset cs t

/-- The offset a reading is taken with: the one before the first transition that repeats or skips it. -/
def offsetOf (offset : ℤ) : List Transition → ℤ → ℤ
  | [], _ => offset
  | c :: rest, w => if w < c.instant + max offset c.offset then offset else offsetOf c.offset rest w

structure Shift where
  instant : ℤ
  before : ℤ
  after : ℤ

def shifts (offset : ℤ) : List Transition → List Shift
  | [] => []
  | c :: rest => ⟨c.instant, offset, c.offset⟩ :: shifts c.offset rest

def Shift.Passes (c : Shift) (w : ℤ) : Prop :=
  (c.instant + c.before < w ∧ w < c.instant + c.after) ∨ (c.instant + c.after < w ∧ w < c.instant + c.before)

instance (c : Shift) (w : ℤ) : Decidable (c.Passes w) := inferInstanceAs (Decidable (_ ∨ _))

def Ordered (cs : List Transition) : Prop := cs.Pairwise (fun c c' => c.instant < c'.instant)

instance (cs : List Transition) : Decidable (Ordered cs) := inferInstanceAs (Decidable (List.Pairwise _ _))

variable {offset : ℤ} {cs rest : List Transition} {c : Transition}

lemma offsetAt_before (h : ∀ c ∈ cs, t < c.instant) : offsetAt offset cs t = offset := by
  cases cs with
  | nil => rfl
  | cons c rest => exact if_pos (h c List.mem_cons_self)

lemma reading_before (h : ∀ c ∈ cs, t < c.instant) : reading offset cs t = t + offset := by
  rw [reading, offsetAt_before h]

lemma reading_cons_of_lt (h : t < c.instant) : reading offset (c :: rest) t = t + offset := by
  rw [reading, offsetAt, if_pos h]

lemma reading_cons_of_le (h : c.instant ≤ t) : reading offset (c :: rest) t = reading c.offset rest t := by
  rw [reading, offsetAt, if_neg (Int.not_lt.mpr h), reading]

lemma Ordered.head (h : Ordered (c :: rest)) : ∀ c' ∈ rest, c.instant < c'.instant := (List.pairwise_cons.mp h).1

lemma Ordered.tail (h : Ordered (c :: rest)) : Ordered rest := (List.pairwise_cons.mp h).2

lemma Ordered.reading_at (h : Ordered (c :: rest)) : reading c.offset rest c.instant = c.instant + c.offset :=
  reading_before h.head

lemma instant_of_mem_shifts {d : Shift} (h : d ∈ shifts offset cs) : ∃ c ∈ cs, c.instant = d.instant := by
  induction cs generalizing offset with
  | nil => cases h
  | cons c rest ih =>
    rcases List.mem_cons.mp h with rfl | hrest
    · exact ⟨c, List.mem_cons_self, rfl⟩
    · obtain ⟨c', hc', heq⟩ := ih hrest
      exact ⟨c', List.mem_cons_of_mem _ hc', heq⟩

lemma reading_of_mem_shifts (h : Ordered cs) {d : Shift} (hd : d ∈ shifts offset cs) :
    reading offset cs (d.instant - 1) + 1 = d.instant + d.before ∧
      reading offset cs d.instant = d.instant + d.after := by
  induction cs generalizing offset with
  | nil => cases hd
  | cons c rest ih =>
    rcases List.mem_cons.mp hd with rfl | hrest
    · rw [reading_cons_of_lt (by dsimp only; omega), reading_cons_of_le (Int.le_refl _), h.reading_at]
      dsimp only
      omega
    · obtain ⟨c', hc', heq⟩ := instant_of_mem_shifts hrest
      have hlt := h.head c' hc'
      rw [reading_cons_of_le (by omega), reading_cons_of_le (by omega)]
      exact ih h.tail hrest

lemma reading_steps (offset : ℤ) (h : Ordered cs) (s : ℤ) :
    reading offset cs s = reading offset cs (s - 1) + 1 ∨ ∃ d ∈ shifts offset cs, d.instant = s := by
  induction cs generalizing offset with
  | nil =>
    left
    simp only [reading, offsetAt]
    omega
  | cons c rest ih =>
    rcases Int.lt_trichotomy s c.instant with hlt | heq | hgt
    · left
      rw [reading_cons_of_lt hlt, reading_cons_of_lt (by omega)]
      omega
    · exact Or.inr ⟨_, List.mem_cons_self, heq.symm⟩
    · rw [reading_cons_of_le (by omega), reading_cons_of_le (by omega)]
      rcases ih c.offset h.tail with hstep | ⟨d, hd, heq⟩
      · exact Or.inl hstep
      · exact Or.inr ⟨d, List.mem_cons_of_mem _ hd, heq⟩

lemma jumps_iff (h : Ordered cs) : (∃ s, Jumps (reading offset cs) w s) ↔ ∃ d ∈ shifts offset cs, d.Passes w := by
  constructor
  · rintro ⟨s, hs⟩
    rcases reading_steps offset h s with hstep | ⟨d, hd, rfl⟩
    · rw [Jumps, hstep] at hs
      omega
    · obtain ⟨hbefore, hafter⟩ := reading_of_mem_shifts h hd
      rw [Jumps, hbefore, hafter] at hs
      exact ⟨d, hd, hs⟩
  · rintro ⟨d, hd, hpasses⟩
    obtain ⟨hbefore, hafter⟩ := reading_of_mem_shifts h hd
    refine ⟨d.instant, ?_⟩
    rw [Jumps, hbefore, hafter]
    exact hpasses

lemma short_of_shifts (h : Ordered cs) (hn : ∀ d ∈ shifts offset cs, |d.after - d.before| ≤ n) (hpos : 0 ≤ n) :
    Short (reading offset cs) n := by
  intro s
  rcases reading_steps offset h s with hstep | ⟨d, hd, rfl⟩
  · omega
  · obtain ⟨hbefore, hafter⟩ := reading_of_mem_shifts h hd
    obtain ⟨hlow, hhigh⟩ := abs_le.mp (hn d hd)
    omega

lemma reaches_early (hlt : w < c.instant + offset) :
    Reaches (reading offset (c :: rest)) w (w - offset) (w - offset) := by
  have hat : reading offset (c :: rest) (w - offset) = w - offset + offset := reading_cons_of_lt (by omega)
  refine ⟨fun t ht => ?_, by omega, fun _ => rfl, fun hskip => by omega⟩
  rw [reading_cons_of_lt (by omega)]
  omega

lemma reaches_skipped (h : Ordered (c :: rest)) (hge : c.instant + offset ≤ w) (hlt : w < c.instant + c.offset) :
    Reaches (reading offset (c :: rest)) w c.instant (w - offset) := by
  have hat : reading offset (c :: rest) c.instant = c.instant + c.offset :=
    (reading_cons_of_le (Int.le_refl _)).trans h.reading_at
  have hbefore : reading offset (c :: rest) (c.instant - 1) = c.instant - 1 + offset := reading_cons_of_lt (by omega)
  refine ⟨fun t ht => ?_, by omega, fun heq => by omega, fun _ => by omega⟩
  rw [reading_cons_of_lt ht]
  omega

lemma reaches_later (h : Ordered (c :: rest)) (hbefore : c.instant + offset ≤ w) (hafter : c.instant + c.offset ≤ w)
    (hs : Reaches (reading c.offset rest) w s r) : Reaches (reading offset (c :: rest)) w s r := by
  have hat := h.reading_at
  have hle : c.instant ≤ s := by
    by_contra hgt
    have hlow : reading c.offset rest s = s + c.offset := by
      refine reading_before fun c' hc' => ?_
      have hlt := h.head c' hc'
      omega
    have hreached := hs.reached
    omega
  have heq : reading offset (c :: rest) s = reading c.offset rest s := reading_cons_of_le hle
  refine ⟨fun t ht => ?_, heq ▸ hs.reached, heq ▸ hs.meets, fun hlt => ?_⟩
  · rcases Int.lt_or_le t c.instant with hearly | hlate
    · rw [reading_cons_of_lt hearly]
      omega
    · rw [reading_cons_of_le hlate]
      exact hs.below t ht
  · rw [heq] at hlt
    have hne : c.instant ≠ s := fun h => by
      subst h
      omega
    rw [reading_cons_of_le (show c.instant ≤ s - 1 by omega)]
    exact hs.skips hlt

lemma exists_reaches (h : Ordered cs) (w : ℤ) :
    ∃ s, Reaches (reading offset cs) w s (w - offsetOf offset cs w) := by
  induction cs generalizing offset with
  | nil =>
    refine ⟨w - offset, fun t ht => ?_, ?_, fun _ => rfl, fun hlt => ?_⟩
    all_goals simp only [reading, offsetAt] at *
    all_goals omega
  | cons c rest ih =>
    rw [offsetOf]
    split
    · next hw =>
      rcases Int.lt_or_le w (c.instant + offset) with hlt | hge
      · exact ⟨w - offset, reaches_early hlt⟩
      · exact ⟨c.instant, reaches_skipped h hge (by omega)⟩
    · next hw =>
      obtain ⟨s, hs⟩ : ∃ s, Reaches (reading c.offset rest) w s (w - offsetOf c.offset rest w) := ih h.tail
      exact ⟨s, reaches_later h (by omega) (by omega) hs⟩

end Clock

end TheCargo.Foundation
