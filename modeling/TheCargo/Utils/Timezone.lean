import TheCargo.Foundation.Clock
import TheCargo.Foundation.DateTime

namespace TheCargo.Utils

open Foundation Foundation.Clock

/-- A zone of `zoneinfo`: the offset before its first transition, and its transitions. -/
structure ZoneInfo where
  key : String
  offset : ℤ
  transitions : List Transition
  ordered : Ordered transitions
  short : ∀ o ∈ offset :: transitions.map Transition.offset, |o| < dayMicros

namespace ZoneInfo

def timeZone (z : ZoneInfo) : TimeZone := ⟨offsetOf z.offset z.transitions⟩

def shifts (z : ZoneInfo) : List Shift := Clock.shifts z.offset z.transitions

def reading (z : ZoneInfo) (t : ℤ) : ℤ := Clock.reading z.offset z.transitions t

def localDate (z : ZoneInfo) (t : ℤ) : Option Date := Date.ofOrdinal (z.reading t / dayMicros + 1)

/-- `astimezone`; nothing where it raises `OverflowError`. -/
def astimezone (z : ZoneInfo) (now : DateTime) : Option DateTime :=
  DateTime.make (z.reading now.instant) (offsetAt z.offset z.transitions now.instant) (some z.key)

end ZoneInfo

inductive Tz where
  | tzinfo (z : ZoneInfo)
  | name (n : String)

def timeMin : TimeOfDay := ⟨0, by decide⟩

variable (zoneInfo : String → Option ZoneInfo) {tz : Tz} {z : ZoneInfo} {d e : Date} {t : ℤ}

/-- Nothing where it raises `ValueError`; `zoneInfo` is nothing for a name `ZoneInfo` raises for. -/
def validateIana (n : String) : Option String :=
  if n ≠ "UTC" ∧ '/' ∉ n.toList then none else if (zoneInfo n).isSome then some n else none

def zone : Tz → Option ZoneInfo
  | .tzinfo z => some z
  | .name n => do
    let n ← validateIana zoneInfo n
    zoneInfo n

/-- Nothing where it raises. -/
def startOfDayUtc (day : Date) (tz : Tz) : Option DateTime := do
  let z ← zone zoneInfo tz
  DateTime.toUtc z.timeZone (DateTime.combine day timeMin)

def endOfDayUtc (day : Date) (tz : Tz) : Option DateTime := do
  let next ← day.addDays 1
  startOfDayUtc zoneInfo next tz

def dayBoundsUtc (day : Date) (tz : Tz) : Option (DateTime × DateTime) := do
  let start ← startOfDayUtc zoneInfo day tz
  let stop ← endOfDayUtc zoneInfo day tz
  pure (start, stop)

def CutsDay (tz : Tz) (z : ZoneInfo) (d : Date) : Prop :=
  ∃ start stop, dayBoundsUtc zoneInfo d tz = some (start, stop) ∧
    ∀ t, (start.instant ≤ t ∧ t < stop.instant) ↔ z.localDate t = some d

def midnight (d : Date) : ℤ := DateTime.combine d timeMin

def nextMidnight (d : Date) : ℤ := midnight d + dayMicros

def InCalendar (z : ZoneInfo) (w : ℤ) : Prop :=
  0 ≤ w - z.timeZone.utcoffset w ∧ w - z.timeZone.utcoffset w < wallEnd

structure CutsCleanly (z : ZoneInfo) (d : Date) : Prop where
  notLast : d ≠ Date.last
  start : InCalendar z (midnight d)
  stop : InCalendar z (nextMidnight d)
  steady : ∀ c ∈ z.shifts, ¬ c.Passes (midnight d) ∧ ¬ c.Passes (nextMidnight d)

lemma midnight_eq (d : Date) : midnight d = ((d.toOrdinal : ℤ) - 1) * dayMicros := Int.add_zero _

lemma midnight_next (h : d.addDays 1 = some e) : midnight e = nextMidnight d := by
  have hordinal := Date.addDays_eq_some.mp h
  have hday : (dayMicros : ℤ) = 86400000000 := rfl
  rw [nextMidnight, midnight_eq, midnight_eq, hordinal, hday]
  omega

lemma exists_next_iff (d : Date) : (∃ e, d.addDays 1 = some e) ↔ d ≠ Date.last := by
  constructor
  · rintro ⟨e, he⟩ rfl
    rw [Date.last_next] at he
    cases he
  · intro hne
    have hle := d.toOrdinal_le_last
    have hneq : d.toOrdinal ≠ Date.last.toOrdinal := fun heq => hne (Date.toOrdinal_injective heq)
    obtain ⟨e, he, _⟩ := Date.exists_next (Nat.lt_of_le_of_ne hle hneq)
    exact ⟨e, he⟩

lemma ofOrdinal_eq_some {n : ℤ} : Date.ofOrdinal n = some d ↔ n = d.toOrdinal :=
  ⟨fun h => (Date.toOrdinal_of_ofOrdinal h).symm, fun h => h ▸ Date.ofOrdinal_toOrdinal d⟩

lemma localDate_eq_some : z.localDate t = some d ↔ midnight d ≤ z.reading t ∧ z.reading t < nextMidnight d := by
  have hday : (dayMicros : ℤ) = 86400000000 := rfl
  rw [ZoneInfo.localDate, ofOrdinal_eq_some, nextMidnight, midnight_eq, hday]
  omega

lemma toUtc_eq_some {reading : ℤ} {u : DateTime} (h : DateTime.toUtc z.timeZone reading = some u) :
    u.instant = reading - z.timeZone.utcoffset reading := by
  rw [DateTime.toUtc, DateTime.make] at h
  split at h
  · obtain rfl := Option.some.inj h
    exact Int.sub_zero _
  · cases h

lemma startOfDayUtc_eq (hz : zone zoneInfo tz = some z) (d : Date) :
    startOfDayUtc zoneInfo d tz = DateTime.toUtc z.timeZone (midnight d) := by
  rw [startOfDayUtc, hz]
  rfl

lemma startOfDayUtc_isSome (hz : zone zoneInfo tz = some z) (d : Date) :
    (∃ u, startOfDayUtc zoneInfo d tz = some u) ↔ InCalendar z (midnight d) := by
  rw [startOfDayUtc_eq zoneInfo hz, DateTime.toUtc_isSome, InCalendar]

lemma startOfDayUtc_instant (hz : zone zoneInfo tz = some z) {u : DateTime}
    (h : startOfDayUtc zoneInfo d tz = some u) : u.instant = midnight d - z.timeZone.utcoffset (midnight d) :=
  toUtc_eq_some (startOfDayUtc_eq zoneInfo hz d ▸ h)

lemma endOfDayUtc_eq (h : d.addDays 1 = some e) : endOfDayUtc zoneInfo d tz = startOfDayUtc zoneInfo e tz := by
  rw [endOfDayUtc, h]
  rfl

lemma endOfDayUtc_isSome (hz : zone zoneInfo tz = some z) :
    (∃ u, endOfDayUtc zoneInfo d tz = some u) ↔ d ≠ Date.last ∧ InCalendar z (nextMidnight d) := by
  rw [← exists_next_iff]
  constructor
  · rintro ⟨u, hu⟩
    obtain ⟨e, he, hstart⟩ := Option.bind_eq_some_iff.mp hu
    rw [← midnight_next he]
    exact ⟨⟨e, he⟩, (startOfDayUtc_isSome zoneInfo hz e).mp ⟨u, hstart⟩⟩
  · rintro ⟨⟨e, he⟩, hin⟩
    rw [endOfDayUtc_eq zoneInfo he, startOfDayUtc_isSome zoneInfo hz, midnight_next he]
    exact hin

lemma endOfDayUtc_instant (hz : zone zoneInfo tz = some z) {u : DateTime} (h : endOfDayUtc zoneInfo d tz = some u) :
    u.instant = nextMidnight d - z.timeZone.utcoffset (nextMidnight d) := by
  obtain ⟨e, he, hstart⟩ := Option.bind_eq_some_iff.mp h
  rw [← midnight_next he]
  exact startOfDayUtc_instant zoneInfo hz hstart

lemma dayBoundsUtc_eq_some {start stop : DateTime} :
    dayBoundsUtc zoneInfo d tz = some (start, stop) ↔
      startOfDayUtc zoneInfo d tz = some start ∧ endOfDayUtc zoneInfo d tz = some stop := by
  simp [dayBoundsUtc, Option.bind_eq_some_iff]

lemma cutsDay_eq (hz : zone zoneInfo tz = some z) :
    CutsDay zoneInfo tz z d ↔
      (InCalendar z (midnight d) ∧ d ≠ Date.last ∧ InCalendar z (nextMidnight d)) ∧
        Cuts z.reading (midnight d) (nextMidnight d) (midnight d - z.timeZone.utcoffset (midnight d))
          (nextMidnight d - z.timeZone.utcoffset (nextMidnight d)) := by
  rw [← endOfDayUtc_isSome zoneInfo hz, ← startOfDayUtc_isSome zoneInfo hz]
  constructor
  · rintro ⟨start, stop, hbounds, hcut⟩
    obtain ⟨hstart, hstop⟩ := (dayBoundsUtc_eq_some zoneInfo).mp hbounds
    refine ⟨⟨⟨start, hstart⟩, stop, hstop⟩, fun t => ?_⟩
    rw [← startOfDayUtc_instant zoneInfo hz hstart, ← endOfDayUtc_instant zoneInfo hz hstop, hcut t, localDate_eq_some]
  · rintro ⟨⟨⟨start, hstart⟩, stop, hstop⟩, hcut⟩
    refine ⟨start, stop, (dayBoundsUtc_eq_some zoneInfo).mpr ⟨hstart, hstop⟩, fun t => ?_⟩
    rw [startOfDayUtc_instant zoneInfo hz hstart, endOfDayUtc_instant zoneInfo hz hstop, localDate_eq_some]
    exact hcut t

lemma exists_reaches (z : ZoneInfo) (w : ℤ) : ∃ s, Reaches z.reading w s (w - z.timeZone.utcoffset w) :=
  Clock.exists_reaches z.ordered w

lemma steady_iff (z : ZoneInfo) (w : ℤ) : (∀ k, ¬ Jumps z.reading w k) ↔ ∀ c ∈ z.shifts, ¬ c.Passes w := by
  have hjumps : (∃ k, Jumps z.reading w k) ↔ ∃ c ∈ z.shifts, c.Passes w := jumps_iff z.ordered
  have hnot := not_congr hjumps
  simp only [not_exists, not_and] at hnot
  exact hnot

/-- The second part is about the zones none of whose transitions is longer than a day. -/
theorem cutsDay_iff (hz : zone zoneInfo tz = some z) :
    (CutsCleanly z d → CutsDay zoneInfo tz z d) ∧
      ((∀ c ∈ z.shifts, |c.after - c.before| ≤ dayMicros) → (CutsDay zoneInfo tz z d ↔ CutsCleanly z d)) := by
  obtain ⟨s, hs⟩ := exists_reaches z (midnight d)
  obtain ⟨s', hs'⟩ := exists_reaches z (nextMidnight d)
  have hclean : CutsCleanly z d → CutsDay zoneInfo tz z d := by
    intro h
    refine (cutsDay_eq zoneInfo hz).mpr ⟨⟨h.start, h.notLast, h.stop⟩, cuts_of_not_jumps hs hs' ?_ ?_⟩
    · exact (steady_iff z _).mpr fun c hc => (h.steady c hc).1
    · exact (steady_iff z _).mpr fun c hc => (h.steady c hc).2
  refine ⟨hclean, fun hlong => ⟨fun h => ?_, hclean⟩⟩
  obtain ⟨⟨hstart, hlast, hstop⟩, hcut⟩ := (cutsDay_eq zoneInfo hz).mp h
  have hshort : Short z.reading dayMicros := short_of_shifts z.ordered hlong (by decide)
  have hsteady := hcut.not_jumps hs hs' hshort (by decide)
  have hbefore := (steady_iff z (midnight d)).mp fun k => (hsteady k).1
  have hafter := (steady_iff z (nextMidnight d)).mp fun k => (hsteady k).2
  exact ⟨hlast, hstart, hstop, fun c hc => ⟨hbefore c hc, hafter c hc⟩⟩

/-- Daylight saving time from 2026-03-08 07:00 to 2026-11-01 06:00 UTC. -/
def newYork : ZoneInfo :=
  ⟨"America/New_York", -18000000000, [⟨63908550000000000, -14400000000⟩, ⟨63929109600000000, -18000000000⟩], by decide,
    by decide⟩

def springForward : Date := ⟨2026, 3, 8, by decide, by decide, by decide⟩

theorem cutsDay_springForward :
    CutsDay (fun n => if n = "America/New_York" then some newYork else none) (.name "America/New_York") newYork
      springForward :=
  (cutsDay_iff _ rfl).1 ⟨by decide, by unfold InCalendar; decide, by unfold InCalendar; decide, by decide⟩

/-- Daylight saving time from 2010-03-14 03:31 to 2010-11-07 02:31 UTC, a minute past midnight. -/
def stJohns : ZoneInfo :=
  ⟨"America/St_Johns", -12600000000, [⟨63404134260000000, -9000000000⟩, ⟨63424693860000000, -12600000000⟩], by decide,
    by decide⟩

def fallBack : Date := ⟨2010, 11, 7, by decide, by decide, by decide⟩

theorem cutsDay_fallBack : ¬ CutsDay (fun _ => none) (.tzinfo stJohns) stJohns fallBack := by
  intro h
  obtain ⟨_, hcut⟩ := (cutsDay_eq _ rfl).mp h
  exact absurd ((hcut 63424693860000000).mp (by decide)) (by decide)

end TheCargo.Utils
