import TheCargo.Foundation.Calendar

/-! Python's `datetime`: a wall clock reading, with or without an offset from UTC. Times are in microseconds. -/

namespace TheCargo.Foundation

def dayMicros : ℕ := 86400000000

def wallEnd : ℤ := daysBeforeYear (maxYear + 1) * dayMicros

abbrev TimeOfDay := Fin dayMicros

/-- The zone is that of a `tzinfo` whose offset varies; the offset is the one it gives the reading, `fold` included. -/
structure DateTime where
  wall : ℤ
  utcoffset : Option ℤ
  zone : Option String
  inCalendar : 0 ≤ wall ∧ wall < wallEnd
  zoned : zone.isSome → utcoffset.isSome
  deriving DecidableEq

structure TimeZone where
  utcoffset : ℤ → ℤ

namespace DateTime

/-- Nothing where it raises `OverflowError`. -/
def make (wall utcoffset : ℤ) (zone : Option String) : Option DateTime :=
  if h : 0 ≤ wall ∧ wall < wallEnd then some ⟨wall, some utcoffset, zone, h, fun _ => rfl⟩ else none

def isAware (d : DateTime) : Bool := d.utcoffset.isSome

/-- The moment in UTC; without an offset the reading itself. -/
def instant (d : DateTime) : ℤ := d.wall - d.utcoffset.getD 0

def time (d : DateTime) : TimeOfDay := ⟨(d.wall % dayMicros).toNat, by
  have hday : (dayMicros : ℤ) = 86400000000 := rfl
  have hle := Int.emod_lt_of_pos d.wall (show (0 : ℤ) < dayMicros by omega)
  have hge := Int.emod_nonneg d.wall (show (dayMicros : ℤ) ≠ 0 by omega)
  omega⟩

lemma exists_date (d : DateTime) : ∃ e, Date.ofOrdinal (d.wall / dayMicros + 1) = some e := by
  have hlast : (Date.last.toOrdinal : ℤ) = daysBeforeYear (maxYear + 1) := by decide
  have hday : (0 : ℤ) < dayMicros := by decide
  have hge := Int.ediv_nonneg d.inCalendar.1 (Int.le_of_lt hday)
  have hlt : d.wall / dayMicros < daysBeforeYear (maxYear + 1) := Int.ediv_lt_of_lt_mul hday d.inCalendar.2
  exact Date.exists_ofOrdinal (d := Date.last) (by omega) (by omega)

def date (d : DateTime) : Date :=
  (Date.ofOrdinal (d.wall / dayMicros + 1)).get (Option.isSome_iff_exists.mpr d.exists_date)

def hour (d : DateTime) : ℤ := d.wall / 3600000000 % 24

/-- Monday is 0, as the calendar's first day is. -/
def weekday (d : DateTime) : ℤ := d.wall / dayMicros % 7

def maxUtc : DateTime := ⟨wallEnd - 1, some 0, none, by decide, fun _ => rfl⟩

def combine (d : Date) (t : TimeOfDay) : ℤ := ((d.toOrdinal : ℤ) - 1) * dayMicros + t.val

def toUtc (tz : TimeZone) (reading : ℤ) : Option DateTime := make (reading - tz.utcoffset reading) 0 none

/-- `a < b`, which compares the readings of one zone as they stand; nothing where it raises `TypeError`. -/
def less (a b : DateTime) : Option Bool :=
  if a.zone.isSome ∧ a.zone = b.zone then some (a.wall < b.wall)
  else if a.isAware = b.isAware then some (a.instant < b.instant) else none

lemma toUtc_isSome (tz : TimeZone) (reading : ℤ) :
    (∃ d, toUtc tz reading = some d) ↔
      0 ≤ reading - tz.utcoffset reading ∧ reading - tz.utcoffset reading < wallEnd := by
  rw [toUtc, make]
  split
  · next h => exact iff_of_true ⟨_, rfl⟩ h
  · next h => exact iff_of_false (fun ⟨d, hd⟩ => absurd hd (by simp)) h

def SameZone (a b : DateTime) : Prop := a.zone.isSome ∧ a.zone = b.zone

lemma SameZone.symm {a b : DateTime} (h : SameZone a b) : SameZone b a := ⟨h.2 ▸ h.1, h.2.symm⟩

lemma SameZone.isAware {a b : DateTime} (h : SameZone a b) : a.isAware = b.isAware :=
  (a.zoned h.1).trans (b.zoned h.symm.1).symm

lemma less_of_sameZone {a b : DateTime} (h : SameZone a b) : less a b = some (decide (a.wall < b.wall)) := if_pos h

lemma less_of_isAware {a b : DateTime} (h : ¬ SameZone a b) (haware : a.isAware = b.isAware) :
    less a b = some (decide (a.instant < b.instant)) := (if_neg h).trans (if_pos haware)

lemma less_eq_none (a b : DateTime) : less a b = none ↔ a.isAware ≠ b.isAware := by
  by_cases hzone : SameZone a b
  · simp [less_of_sameZone hzone, hzone.isAware]
  · by_cases haware : a.isAware = b.isAware
    · simp [less_of_isAware hzone haware, haware]
    · exact iff_of_true ((if_neg hzone).trans (if_neg haware)) haware

lemma less_asymm (a b : DateTime) (h : less a b = some true) : less b a = some false := by
  by_cases hzone : SameZone a b
  · rw [less_of_sameZone hzone, Option.some.injEq, decide_eq_true_eq] at h
    rw [less_of_sameZone hzone.symm, decide_eq_false (by omega)]
  · have haware : a.isAware = b.isAware := by
      by_contra hne
      rw [(less_eq_none a b).mpr hne] at h
      cases h
    rw [less_of_isAware hzone haware, Option.some.injEq, decide_eq_true_eq] at h
    rw [less_of_isAware (fun hback => hzone hback.symm) haware.symm, decide_eq_false (by omega)]

end DateTime

end TheCargo.Foundation
