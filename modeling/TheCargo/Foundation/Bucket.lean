import Mathlib.Algebra.Order.Field.Basic
import Mathlib.Tactic.Linarith
import Mathlib.Tactic.Ring

/-! A bucket that fills at a constant rate up to a brim, and how often one can draw from it in an interval. -/

namespace TheCargo.Foundation

structure Bucket (K : Type*) where
  tokens : K
  since : K
  deriving DecidableEq

namespace Bucket

variable {K : Type*} [Field K] [LinearOrder K] (rate burst : K)

-- No bucket is a full one.
def level (b : Option (Bucket K)) (now : K) : K :=
  match b with
  | none => burst
  | some b => min burst (b.tokens + max 0 (now - b.since) * rate)

def draw (b : Option (Bucket K)) (now : K) : Bucket K :=
  let tokens := level rate burst b now
  ⟨if 1 ≤ tokens then tokens - 1 else tokens, now⟩

def grants (b : Option (Bucket K)) : List K → List (K × Bool)
  | [] => []
  | now :: times => (now, decide (1 ≤ level rate burst b now)) :: grants (some (draw rate burst b now)) times

def within (s t : K) (g : K × Bool) : Bool := s ≤ g.1 ∧ g.1 ≤ t ∧ g.2 = true

variable {rate burst}

lemma level_le (b : Option (Bucket K)) (now : K) : level rate burst b now ≤ burst := by
  cases b with
  | none => exact le_rfl
  | some b => exact min_le_left _ _

variable [IsStrictOrderedRing K]

lemma level_full {b : Bucket K} {now : K} (htokens : 0 ≤ b.tokens) (hburst : burst ≤ (now - b.since) * rate)
    (hrate : 0 < rate) : level rate burst (some b) now = burst := by
  have hmax : (now - b.since) * rate ≤ max 0 (now - b.since) * rate :=
    mul_le_mul_of_nonneg_right (le_max_right _ _) hrate.le
  exact min_eq_left (by linarith)

lemma level_nonneg {b : Option (Bucket K)} (hb : ∀ c ∈ b, 0 ≤ c.tokens) (hburst : 0 ≤ burst) (hrate : 0 < rate)
    (now : K) : 0 ≤ level rate burst b now := by
  cases b with
  | none => exact hburst
  | some c =>
    have hfill : 0 ≤ max 0 (now - c.since) * rate := mul_nonneg (le_max_left _ _) hrate.le
    exact le_min hburst (add_nonneg (hb c rfl) hfill)

lemma draw_nonneg {b : Option (Bucket K)} (hb : ∀ c ∈ b, 0 ≤ c.tokens) (hburst : 0 ≤ burst) (hrate : 0 < rate)
    (now : K) : 0 ≤ (draw rate burst b now).tokens := by
  rw [draw]
  split
  · rename_i h
    exact sub_nonneg.mpr h
  · exact level_nonneg hb hburst hrate now

lemma drawn_nonneg {b : Option (Bucket K)} (hb : ∀ c ∈ b, 0 ≤ c.tokens) (hburst : 0 ≤ burst) (hrate : 0 < rate)
    (now : K) : ∀ c ∈ some (draw rate burst b now), 0 ≤ c.tokens := by
  rintro c ⟨⟩
  exact draw_nonneg hb hburst hrate now

lemma room_nonneg {b : Option (Bucket K)} (hb : ∀ c ∈ b, 0 ≤ c.tokens) (hburst : 0 ≤ burst) (hrate : 0 < rate)
    {n t : K} (hnt : n ≤ t) : 0 ≤ level rate burst b n + rate * (t - n) :=
  add_nonneg (level_nonneg hb hburst hrate n) (mul_nonneg hrate.le (sub_nonneg.mpr hnt))

lemma level_later {b : Option (Bucket K)} {n m : K} (hrate : 0 < rate) (hnm : n ≤ m) :
    level rate burst b m ≤ level rate burst b n + rate * (m - n) := by
  have hgrow : 0 ≤ rate * (m - n) := mul_nonneg hrate.le (sub_nonneg.mpr hnm)
  cases b with
  | none => exact le_add_of_nonneg_right hgrow
  | some b =>
    have hmax : max 0 (m - b.since) ≤ max 0 (n - b.since) + (m - n) := by
      apply max_le
      · have := le_max_left 0 (n - b.since)
        linarith
      · have := le_max_right 0 (n - b.since)
        linarith
    have hmul := mul_le_mul_of_nonneg_right hmax hrate.le
    rw [level, level, min_add]
    apply min_le_min
    · exact le_add_of_nonneg_right hgrow
    · linarith

lemma level_draw (b : Option (Bucket K)) (now : K) :
    level rate burst (some (draw rate burst b now)) now + (if 1 ≤ level rate burst b now then 1 else 0) ≤
      level rate burst b now := by
  rw [level, draw]
  dsimp only
  rw [sub_self, max_self, zero_mul, add_zero]
  split
  · linarith [min_le_right burst (level rate burst b now - 1)]
  · linarith [min_le_right burst (level rate burst b now)]

structure Follows (rate : K) (b c : Bucket K) : Prop where
  since : b.since ≤ c.since
  tokens : c.tokens = b.tokens + (c.since - b.since) * rate

omit [IsStrictOrderedRing K] in
lemma Follows.refl (b : Bucket K) : Follows rate b b := ⟨le_rfl, by ring⟩

omit [IsStrictOrderedRing K] in
lemma draw_refused {b : Option (Bucket K)} {now : K} (h : level rate burst b now < 1) :
    draw rate burst b now = ⟨level rate burst b now, now⟩ := by
  rw [draw, if_neg (not_le.mpr h)]

lemma Follows.room {b c : Bucket K} (h : Follows rate b c) {now : K} (hnow : c.since ≤ now) :
    c.tokens + max 0 (now - c.since) * rate = b.tokens + (now - b.since) * rate := by
  rw [max_eq_right (sub_nonneg.mpr hnow), h.tokens]
  ring

lemma Follows.level {b c : Bucket K} (h : Follows rate b c) (hburst : 1 ≤ burst) {now : K} (hnow : c.since ≤ now) :
    1 ≤ Bucket.level rate burst (some c) now ↔ 1 ≤ b.tokens + (now - b.since) * rate := by
  rw [Bucket.level, h.room hnow, le_min_iff]
  exact and_iff_right hburst

lemma Follows.draw {b c : Bucket K} (h : Follows rate b c) (hburst : 1 ≤ burst) {now : K} (hnow : c.since ≤ now)
    (hlevel : Bucket.level rate burst (some c) now < 1) :
    Follows rate b (Bucket.draw rate burst (some c) now) := by
  have hlack : b.tokens + (now - b.since) * rate < 1 := not_le.mp (fun hle =>
    absurd ((h.level hburst hnow).mpr hle) (not_le.mpr hlevel))
  rw [draw_refused hlevel]
  refine ⟨h.since.trans hnow, ?_⟩
  rw [Bucket.level, h.room hnow, min_eq_right (hlack.le.trans hburst)]

omit [IsStrictOrderedRing K] in
lemma grants_times (b : Option (Bucket K)) (times : List K) : (grants rate burst b times).map Prod.fst = times := by
  induction times generalizing b with
  | nil => rfl
  | cons now times ih => rw [grants, List.map_cons, ih]

omit [IsStrictOrderedRing K] in
lemma grants_late {b : Option (Bucket K)} {times : List K} {s t : K} (ht : ∀ m ∈ times, t < m) :
    (grants rate burst b times).countP (within s t) = 0 := by
  apply List.countP_eq_zero.mpr
  intro g hg hwithin
  have hmem : g.1 ∈ times := by
    have hfst : g.1 ∈ (grants rate burst b times).map Prod.fst := List.mem_map_of_mem hg
    rwa [grants_times] at hfst
  have hle := (of_decide_eq_true hwithin).2.1
  exact absurd (ht g.1 hmem) (not_lt.mpr hle)

lemma within_le (s t m x : K) :
    (if within s t (m, decide (1 ≤ x)) = true then (1 : K) else 0) ≤ if 1 ≤ x then 1 else 0 := by
  by_cases hx : 1 ≤ x
  · rw [if_pos hx]
    split
    · exact le_rfl
    · exact zero_le_one
  · have hout : within s t (m, decide (1 ≤ x)) = false := by
      simp [within, hx]
    rw [hout, if_neg Bool.false_ne_true, if_neg hx]

lemma grants_from (hrate : 0 < rate) (hburst : 0 ≤ burst) {times : List K} (hsorted : times.Pairwise (· ≤ ·))
    {b : Option (Bucket K)} (hb : ∀ c ∈ b, 0 ≤ c.tokens) {s n t : K} (hn : ∀ m ∈ times, n ≤ m) (hnt : n ≤ t) :
    ((grants rate burst b times).countP (within s t) : K) ≤ level rate burst b n + rate * (t - n) := by
  induction times generalizing b n with
  | nil => simpa [grants] using room_nonneg hb hburst hrate hnt
  | cons m times ih =>
    obtain ⟨hfirst, hrest⟩ := List.pairwise_cons.mp hsorted
    have hnm := hn m List.mem_cons_self
    rcases le_or_gt m t with hmt | hmt
    · have hcount := ih hrest (drawn_nonneg hb hburst hrate m) hfirst hmt
      have hdraw : _ ≤ level rate burst b m := level_draw b m
      have hlater : level rate burst b m ≤ _ := level_later hrate hnm
      have hhead : (if within s t (m, decide (1 ≤ level rate burst b m)) = true then (1 : K) else 0) ≤
          if 1 ≤ level rate burst b m then 1 else 0 := within_le s t m _
      rw [grants, List.countP_cons]
      push_cast
      linarith
    · rw [grants_late]
      · simpa using room_nonneg hb hburst hrate hnt
      · exact List.forall_mem_cons.mpr ⟨hmt, fun k hk => lt_of_lt_of_le hmt (hfirst k hk)⟩

lemma grants_within (hrate : 0 < rate) (hburst : 0 ≤ burst) {times : List K} (hsorted : times.Pairwise (· ≤ ·))
    {b : Option (Bucket K)} (hb : ∀ c ∈ b, 0 ≤ c.tokens) {s t : K} (hst : s ≤ t) :
    ((grants rate burst b times).countP (within s t) : K) ≤ burst + rate * (t - s) := by
  have hwindow : 0 ≤ rate * (t - s) := mul_nonneg hrate.le (sub_nonneg.mpr hst)
  induction times generalizing b with
  | nil => simpa [grants] using add_nonneg hburst hwindow
  | cons m times ih =>
    obtain ⟨hfirst, hrest⟩ := List.pairwise_cons.mp hsorted
    rcases lt_or_ge m s with hms | hms
    · have hout : within s t (m, decide (1 ≤ level rate burst b m)) = false := by
        simp [within, not_le.mpr hms]
      rw [grants, List.countP_cons_of_neg (by simp [hout])]
      exact ih hrest (drawn_nonneg hb hburst hrate m)
    · rcases le_or_gt m t with hmt | hmt
      · have hle : ∀ k ∈ m :: times, m ≤ k := List.forall_mem_cons.mpr ⟨le_rfl, hfirst⟩
        have hcount := grants_from (s := s) hrate hburst hsorted hb hle hmt
        have hlevel : level rate burst b m ≤ burst := level_le b m
        have hshorter : rate * (t - m) ≤ rate * (t - s) := mul_le_mul_of_nonneg_left (by linarith) hrate.le
        linarith
      · rw [grants_late (List.forall_mem_cons.mpr ⟨hmt, fun k hk => lt_of_lt_of_le hmt (hfirst k hk)⟩)]
        simpa using add_nonneg hburst hwindow

end Bucket

end TheCargo.Foundation
