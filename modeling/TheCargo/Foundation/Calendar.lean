import Mathlib.Data.Int.Notation
import Mathlib.Tactic.Common

/-! The days of the proleptic Gregorian calendar, as Python's `datetime.date` counts them. -/

namespace TheCargo.Foundation

def isLeap (year : ℕ) : Bool := year % 4 = 0 ∧ (year % 100 ≠ 0 ∨ year % 400 = 0)

def daysInMonth (year : ℕ) : ℕ → ℕ
  | 2 => if isLeap year then 29 else 28
  | 4 => 30
  | 6 => 30
  | 9 => 30
  | 11 => 30
  | _ => 31

def daysInYear (year : ℕ) : ℕ := if isLeap year then 366 else 365

def daysBeforeYear (year : ℕ) : ℕ := (year - 1) * 365 + (year - 1) / 4 - (year - 1) / 100 + (year - 1) / 400

def daysBeforeMonth (year : ℕ) : ℕ → ℕ
  | 0 => 0
  | 1 => 0
  | month + 2 => daysBeforeMonth year (month + 1) + daysInMonth year (month + 1)

def maxYear : ℕ := 9999

structure Date where
  year : ℕ
  month : ℕ
  day : ℕ
  year_valid : 1 ≤ year ∧ year ≤ maxYear
  month_valid : 1 ≤ month ∧ month ≤ 12
  day_valid : 1 ≤ day ∧ day ≤ daysInMonth year month
  deriving DecidableEq, Repr

namespace Date

/-- `date(year, month, day)`; nothing where it raises `ValueError`. -/
def make (year month day : ℕ) : Option Date :=
  if h : (1 ≤ year ∧ year ≤ maxYear) ∧ (1 ≤ month ∧ month ≤ 12) ∧ 1 ≤ day ∧ day ≤ daysInMonth year month then
    some ⟨year, month, day, h.1, h.2.1, h.2.2⟩
  else none

def toOrdinal (d : Date) : ℕ := daysBeforeYear d.year + daysBeforeMonth d.year d.month + d.day

def lastBelow (f : ℕ → ℕ) (n : ℕ) : ℕ → ℕ
  | 0 => 1
  | bound + 1 => if f (bound + 1) < n then bound + 1 else lastBelow f n bound

/-- `date.fromordinal`; nothing where the day is not in the calendar. -/
def ofOrdinal (n : ℤ) : Option Date :=
  if n < 1 then none
  else
    let year := lastBelow daysBeforeYear n.toNat ((n.toNat - 1) / 365 + 1)
    let rest := n.toNat - daysBeforeYear year
    let month := lastBelow (daysBeforeMonth year) rest 12
    make year month (rest - daysBeforeMonth year month)

/-- `d + timedelta(days)`; nothing where it raises `OverflowError`. -/
def addDays (d : Date) (days : ℤ) : Option Date := ofOrdinal (d.toOrdinal + days)

variable {d e : Date} {y m n : ℕ}

lemma daysBeforeYear_succ (h : 1 ≤ y) : daysBeforeYear (y + 1) = daysBeforeYear y + daysInYear y := by
  obtain ⟨p, rfl⟩ := Nat.exists_eq_add_of_le' h
  have hstep : ∀ k, (p + 1) / k = p / k + if k ∣ p + 1 then 1 else 0 := fun k => Nat.succ_div
  have hfour := hstep 4
  have hhundred := hstep 100
  have hfourHundred := hstep 400
  have hle : p / 100 ≤ p / 4 := Nat.div_le_div_left (by decide) (by decide)
  have hle' : (p + 1) / 100 ≤ (p + 1) / 4 := Nat.div_le_div_left (by decide) (by decide)
  have hdvd : 400 ∣ p + 1 → 100 ∣ p + 1 := Nat.dvd_trans (by decide)
  have hdvd' : 100 ∣ p + 1 → 4 ∣ p + 1 := Nat.dvd_trans (by decide)
  simp only [daysBeforeYear, daysInYear, isLeap, ← Nat.dvd_iff_mod_eq_zero, decide_eq_true_eq, ne_eq,
    Nat.add_sub_cancel]
  generalize (p + 1) / 4 = a, (p + 1) / 100 = b, (p + 1) / 400 = c at *
  generalize p / 4 = a', p / 100 = b', p / 400 = c' at *
  split_ifs at * <;> omega

lemma daysBeforeMonth_succ (h : 1 ≤ m) : daysBeforeMonth y (m + 1) = daysBeforeMonth y m + daysInMonth y m := by
  obtain ⟨k, rfl⟩ := Nat.exists_eq_add_of_le' h
  rfl

lemma daysBeforeMonth_year (y : ℕ) : daysBeforeMonth y 13 = daysInYear y := by
  simp only [daysBeforeMonth, daysInMonth, daysInYear]
  split <;> rfl

lemma daysInMonth_pos (y m : ℕ) : 28 ≤ daysInMonth y m := by
  unfold daysInMonth
  split
  · split <;> decide
  all_goals decide

lemma mono_of_step {f : ℕ → ℕ} (hf : ∀ i, 1 ≤ i → f i ≤ f (i + 1)) {i j : ℕ} (hi : 1 ≤ i) (hij : i ≤ j) :
    f i ≤ f j := by
  induction hij with
  | refl => exact Nat.le_refl _
  | step hij ih => exact Nat.le_trans ih (hf _ (Nat.le_trans hi hij))

lemma daysBeforeYear_mono (hy : 1 ≤ y) (h : y ≤ n) : daysBeforeYear y ≤ daysBeforeYear n :=
  mono_of_step (fun i hi => by rw [daysBeforeYear_succ hi]; exact Nat.le_add_right _ _) hy h

lemma daysBeforeMonth_mono (hm : 1 ≤ m) (h : m ≤ n) : daysBeforeMonth y m ≤ daysBeforeMonth y n :=
  mono_of_step (fun i hi => by rw [daysBeforeMonth_succ hi]; exact Nat.le_add_right _ _) hm h

lemma lastBelow_eq {f : ℕ → ℕ} (hf : ∀ i j, 1 ≤ i → i ≤ j → f i ≤ f j) {i bound : ℕ} (hi : 1 ≤ i) (hbound : i ≤ bound)
    (hlow : f i < n) (hhigh : n ≤ f (i + 1)) : lastBelow f n bound = i := by
  induction bound with
  | zero => omega
  | succ bound ih =>
    rw [lastBelow]
    by_cases heq : i = bound + 1
    · rw [if_pos (heq ▸ hlow), heq]
    · have hle := hf (i + 1) (bound + 1) (by omega) (by omega)
      rw [if_neg (by omega)]
      exact ih (by omega)

lemma lastBelow_between {f : ℕ → ℕ} (bound : ℕ) (hone : f 1 < n) (hbound : 1 ≤ bound) (htop : n ≤ f (bound + 1)) :
    1 ≤ lastBelow f n bound ∧ lastBelow f n bound ≤ bound ∧ f (lastBelow f n bound) < n ∧
      n ≤ f (lastBelow f n bound + 1) := by
  induction bound with
  | zero => omega
  | succ bound ih =>
    rw [lastBelow]
    split
    · rename_i h
      exact ⟨by omega, Nat.le_refl _, h, htop⟩
    · rename_i h
      rcases Nat.eq_zero_or_pos bound with rfl | hpos
      · exact absurd hone h
      · obtain ⟨hge, hle, hlow, hhigh⟩ := ih hpos (Nat.le_of_not_lt h)
        exact ⟨hge, by omega, hlow, hhigh⟩

def dayOfYear (d : Date) : ℕ := daysBeforeMonth d.year d.month + d.day

lemma toOrdinal_eq (d : Date) : d.toOrdinal = daysBeforeYear d.year + d.dayOfYear := Nat.add_assoc _ _ _

lemma dayOfYear_month (d : Date) :
    daysBeforeMonth d.year d.month < d.dayOfYear ∧ d.dayOfYear ≤ daysBeforeMonth d.year (d.month + 1) := by
  have hday := d.day_valid
  rw [daysBeforeMonth_succ d.month_valid.1, dayOfYear]
  omega

lemma dayOfYear_year (d : Date) : 1 ≤ d.dayOfYear ∧ d.dayOfYear ≤ daysInYear d.year := by
  have hmonth := d.month_valid
  have hday := d.dayOfYear_month
  have hle := daysBeforeMonth_mono (y := d.year) (m := d.month + 1) (n := 13) (by omega) (by omega)
  rw [daysBeforeMonth_year] at hle
  omega

lemma toOrdinal_year (d : Date) :
    daysBeforeYear d.year < d.toOrdinal ∧ d.toOrdinal ≤ daysBeforeYear (d.year + 1) := by
  have hday := d.dayOfYear_year
  rw [daysBeforeYear_succ d.year_valid.1, toOrdinal_eq]
  omega

lemma one_le_toOrdinal (d : Date) : 1 ≤ d.toOrdinal := Nat.lt_of_le_of_lt (Nat.zero_le _) d.toOrdinal_year.1

lemma year_le_bound (hy : 1 ≤ y) (h : daysBeforeYear y < n) : y ≤ (n - 1) / 365 + 1 := by
  have hle : (y - 1) / 100 ≤ (y - 1) / 4 := Nat.div_le_div_left (by decide) (by decide)
  rw [daysBeforeYear] at h
  omega

lemma make_self (d : Date) : make d.year d.month d.day = some d :=
  dif_pos ⟨d.year_valid, d.month_valid, d.day_valid⟩

lemma make_eq_some {day : ℕ} (h : make y m day = some d) : d.year = y ∧ d.month = m ∧ d.day = day := by
  rw [make] at h
  split at h
  · obtain rfl := Option.some.inj h
    exact ⟨rfl, rfl, rfl⟩
  · exact absurd h.symm (Option.some_ne_none d)

lemma ofOrdinal_toOrdinal (d : Date) : ofOrdinal d.toOrdinal = some d := by
  have hyear : lastBelow daysBeforeYear d.toOrdinal ((d.toOrdinal - 1) / 365 + 1) = d.year :=
    lastBelow_eq (fun _ _ => daysBeforeYear_mono) d.year_valid.1 (year_le_bound d.year_valid.1 d.toOrdinal_year.1)
      d.toOrdinal_year.1 d.toOrdinal_year.2
  have hrest : d.toOrdinal - daysBeforeYear d.year = d.dayOfYear := by rw [toOrdinal_eq, Nat.add_sub_cancel_left]
  have hmonth : lastBelow (daysBeforeMonth d.year) d.dayOfYear 12 = d.month :=
    lastBelow_eq (fun _ _ => daysBeforeMonth_mono) d.month_valid.1 d.month_valid.2 d.dayOfYear_month.1
      d.dayOfYear_month.2
  have hday : d.dayOfYear - daysBeforeMonth d.year d.month = d.day := by rw [dayOfYear, Nat.add_sub_cancel_left]
  have hpos : ¬ (d.toOrdinal : ℤ) < 1 := by
    have hone := d.one_le_toOrdinal
    omega
  simp only [ofOrdinal, if_neg hpos, Int.toNat_natCast, hyear, hrest, hmonth, hday, make_self]

lemma ofOrdinal_cases (hn : 1 ≤ n) :
    ∃ year month day, 1 ≤ year ∧ daysBeforeYear year < n ∧ ofOrdinal n = make year month day ∧
      (1 ≤ month ∧ month ≤ 12) ∧ (1 ≤ day ∧ day ≤ daysInMonth year month) ∧
      daysBeforeYear year + daysBeforeMonth year month + day = n := by
  have htop : n ≤ daysBeforeYear ((n - 1) / 365 + 1 + 1) := by
    by_contra hlt
    have hle := year_le_bound (by omega) (Nat.lt_of_not_le hlt)
    omega
  obtain ⟨hy, -, hlow, hhigh⟩ := lastBelow_between _ (f := daysBeforeYear) (n := n) hn (Nat.le_add_left 1 _) htop
  generalize hyear : lastBelow daysBeforeYear n ((n - 1) / 365 + 1) = year at hy hlow hhigh
  rw [daysBeforeYear_succ hy] at hhigh
  obtain ⟨hm, hm', hmlow, hmhigh⟩ := lastBelow_between 12 (f := daysBeforeMonth year) (n := n - daysBeforeYear year)
    (Nat.sub_pos_of_lt hlow) (by decide) (by rw [daysBeforeMonth_year]; omega)
  generalize hmonth : lastBelow (daysBeforeMonth year) (n - daysBeforeYear year) 12 = month at hm hm' hmlow hmhigh
  rw [daysBeforeMonth_succ hm] at hmhigh
  have hpos : ¬ (n : ℤ) < 1 := by omega
  refine ⟨year, month, n - daysBeforeYear year - daysBeforeMonth year month, hy, hlow, ?_, ⟨hm, hm'⟩, ?_, ?_⟩
  · simp only [ofOrdinal, if_neg hpos, Int.toNat_natCast, hyear, hmonth]
  · omega
  · omega

lemma toOrdinal_of_ofOrdinal {n : ℤ} (h : ofOrdinal n = some d) : d.toOrdinal = n := by
  by_cases hn : n < 1
  · rw [ofOrdinal, if_pos hn] at h
    exact absurd h.symm (Option.some_ne_none d)
  · obtain ⟨k, rfl⟩ := Int.eq_ofNat_of_zero_le (show 0 ≤ n by omega)
    obtain ⟨year, month, day, -, -, hmake, -, -, hsum⟩ := ofOrdinal_cases (n := k) (by omega)
    obtain ⟨rfl, rfl, rfl⟩ := make_eq_some (hmake ▸ h)
    exact congrArg Int.ofNat hsum

lemma ofOrdinal_eq_none {n : ℤ} (h : n < 1) : ofOrdinal n = none := if_pos h

lemma exists_ofOrdinal {n : ℤ} (hn : 1 ≤ n) (hle : n ≤ d.toOrdinal) : ∃ e, ofOrdinal n = some e := by
  obtain ⟨k, rfl⟩ := Int.eq_ofNat_of_zero_le (show 0 ≤ n by omega)
  obtain ⟨year, month, day, hy, hlow, hmake, hmonth, hday, hsum⟩ := ofOrdinal_cases (n := k) (by omega)
  have hyear : year ≤ d.year := by
    by_contra hlt
    have hmono := daysBeforeYear_mono (y := d.year + 1) (n := year) (Nat.le_add_left 1 _) (by omega)
    have htop := d.toOrdinal_year.2
    omega
  rw [hmake, make, dif_pos ⟨⟨hy, Nat.le_trans hyear d.year_valid.2⟩, hmonth, hday⟩]
  exact ⟨_, rfl⟩

lemma addDays_eq_some {k : ℤ} : addDays d k = some e ↔ (e.toOrdinal : ℤ) = d.toOrdinal + k := by
  constructor
  · exact toOrdinal_of_ofOrdinal
  · intro h
    rw [addDays, ← h]
    exact ofOrdinal_toOrdinal e

lemma addDays_eq_none {k : ℤ} (h : d.toOrdinal + k < 1) : addDays d k = none := ofOrdinal_eq_none h

lemma exists_addDays {k : ℤ} (hlow : 1 ≤ d.toOrdinal + k) (hhigh : k ≤ 0) :
    ∃ e, addDays d k = some e ∧ (e.toOrdinal : ℤ) = d.toOrdinal + k := by
  obtain ⟨e, he⟩ := exists_ofOrdinal (d := d) hlow (by omega)
  exact ⟨e, he, toOrdinal_of_ofOrdinal he⟩

def last : Date := ⟨9999, 12, 31, by decide, by decide, by decide⟩

lemma toOrdinal_le_last (d : Date) : d.toOrdinal ≤ last.toOrdinal := by
  have hyear : daysBeforeYear (d.year + 1) ≤ daysBeforeYear (maxYear + 1) :=
    daysBeforeYear_mono (Nat.le_add_left 1 _) (Nat.succ_le_succ d.year_valid.2)
  have hlast : daysBeforeYear (maxYear + 1) = last.toOrdinal := by decide
  exact Nat.le_trans (Nat.le_trans d.toOrdinal_year.2 hyear) (Nat.le_of_eq hlast)

lemma toOrdinal_injective : Function.Injective toOrdinal := by
  intro d e h
  have hd := ofOrdinal_toOrdinal d
  rw [h, ofOrdinal_toOrdinal] at hd
  exact (Option.some.inj hd).symm

lemma exists_next (h : d.toOrdinal < e.toOrdinal) :
    ∃ next, addDays d 1 = some next ∧ next.toOrdinal = d.toOrdinal + 1 := by
  obtain ⟨next, hnext⟩ := exists_ofOrdinal (d := e) (n := d.toOrdinal + 1) (by omega) (by omega)
  have hord := toOrdinal_of_ofOrdinal hnext
  exact ⟨next, hnext, by omega⟩

lemma last_next : addDays last 1 = none := by
  apply Option.eq_none_iff_forall_ne_some.mpr
  intro e he
  have hord := addDays_eq_some.mp he
  have hle := e.toOrdinal_le_last
  omega

structure Month where
  year : ℕ
  month : ℕ
  year_valid : 1 ≤ year ∧ year ≤ maxYear
  month_valid : 1 ≤ month ∧ month ≤ 12

namespace Month

variable {i j : Month}

def first (i : Month) : Date :=
  ⟨i.year, i.month, 1, i.year_valid, i.month_valid, Nat.le_refl 1, Nat.le_trans (by decide) (daysInMonth_pos _ _)⟩

def last (i : Month) : Date :=
  ⟨i.year, i.month, daysInMonth i.year i.month, i.year_valid, i.month_valid,
    Nat.le_trans (by decide) (daysInMonth_pos _ _), Nat.le_refl _⟩

def Next (i j : Month) : Prop :=
  (i.month < 12 ∧ j.year = i.year ∧ j.month = i.month + 1) ∨ (i.month = 12 ∧ j.year = i.year + 1 ∧ j.month = 1)

lemma last_toOrdinal (i : Month) : i.last.toOrdinal = daysBeforeYear i.year + daysBeforeMonth i.year (i.month + 1) := by
  rw [daysBeforeMonth_succ i.month_valid.1, ← Nat.add_assoc]
  rfl

lemma first_toOrdinal (i : Month) :
    i.first.toOrdinal = daysBeforeYear i.year + daysBeforeMonth i.year i.month + 1 := rfl

lemma Next.toOrdinal (h : Next i j) : j.first.toOrdinal = i.last.toOrdinal + 1 := by
  rw [first_toOrdinal, last_toOrdinal]
  rcases h with ⟨-, hyear, hmonth⟩ | ⟨hi, hyear, hmonth⟩
  · rw [hyear, hmonth]
  · rw [hyear, hmonth, hi, daysBeforeMonth_year, daysBeforeYear_succ i.year_valid.1]
    rfl

lemma exists_prev (j : Month) (h : ¬ (j.year = 1 ∧ j.month = 1)) : ∃ i, Next i j := by
  have hyear := j.year_valid
  have hmonth := j.month_valid
  by_cases hone : j.month = 1
  · refine ⟨⟨j.year - 1, 12, by omega, by decide⟩, .inr ⟨rfl, ?_, hone⟩⟩
    dsimp only
    omega
  · refine ⟨⟨j.year, j.month - 1, hyear, by omega⟩, .inl ⟨?_, rfl, ?_⟩⟩ <;>
    · dsimp only
      omega

lemma Next.addDays (h : Next i j) : j.first.addDays (-1) = some i.last := by
  rw [addDays_eq_some, h.toOrdinal]
  omega

lemma first_addDays_none (hyear : j.year = 1) (hmonth : j.month = 1) : j.first.addDays (-1) = none := by
  apply addDays_eq_none
  rw [first_toOrdinal, hyear, hmonth]
  decide

end Month

end Date

end TheCargo.Foundation
