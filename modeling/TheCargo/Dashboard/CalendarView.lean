import Mathlib.Data.Int.ConditionallyCompleteOrder
import Mathlib.Order.WithBot
import TheCargo.Dashboard.CalendarRows
import TheCargo.Foundation.Fallible

namespace TheCargo.Dashboard

open Foundation

variable {lib : PyLibrary} {tz : TimeZone} {nowLabel : String} {raw : CalendarRaw} {i j : CalendarListItem}

def CalendarListItem.place (i : CalendarListItem) : WithTop ℤ :=
  match i.at_ with
  | some d => (d.instant : WithTop ℤ)
  | none => ⊤

def TimedItems (lib : PyLibrary) (tz : TimeZone) (raw : CalendarRaw) (rows : List CalendarListItem) : Prop :=
  ∃ stopRows taskRows, List.Forall₂ (fun stop row => stopRow lib stop = .ok row) raw.stops stopRows ∧
    List.Forall₂ (fun task row => taskRow lib tz task = .ok row) raw.tasks taskRows ∧ rows = stopRows ++ taskRows

def RendersInOrder (lib : PyLibrary) (tz : TimeZone) (nowLabel : String) (raw : CalendarRaw) : Prop :=
  ∃ r rows timed summary, shapeCalendar lib tz nowLabel raw = .ok r ∧ TimedItems lib tz raw rows ∧
    summaryRows lib raw = .ok summary ∧ r.items = timed ++ summary ∧ timed.Perm rows ∧
    timed.Pairwise (fun i j => i.place ≤ j.place) ∧
    ∀ k, timed.filter (fun i => i.place = k) = rows.filter (fun i => i.place = k)

def moments (lib : PyLibrary) (tz : TimeZone) (raw : CalendarRaw) : List (Option DateTime) :=
  raw.stops.map (fun stop => parseIso lib stop.scheduledAt) ++
    raw.tasks.map (fun task => (taskAt lib tz task).toOption.join)

def sortKeys (lib : PyLibrary) (tz : TimeZone) (raw : CalendarRaw) : List DateTime :=
  (moments lib tz raw).map (fun x => x.getD DateTime.maxUtc)

/-- Of a row and a later one: the readings of one zone tell their moments apart; next to a row without a moment, one
that has a moment is not past the end of the calendar, nor at its end when it is the later of the two. -/
def InStep : Option DateTime → Option DateTime → Prop
  | some d, some e => d.zone.isSome → d.zone = e.zone → (e.wall < d.wall ↔ e.instant < d.instant)
  | none, some e => e.instant < DateTime.maxUtc.instant
  | some d, none => d.instant ≤ DateTime.maxUtc.instant
  | none, none => True

def Parses (lib : PyLibrary) (id : Option RawId) : Prop := ∀ r, id = some r → (r.parse lib).isSome

structure Orderable (lib : PyLibrary) (tz : TimeZone) (raw : CalendarRaw) : Prop where
  stopIds : ∀ stop ∈ raw.stops, Parses lib stop.shipmentId
  taskIds : ∀ task ∈ raw.tasks, Parses lib task.shipmentId ∧ Parses lib task.taskId
  summaryIds : ∀ summary, raw.followUpSummary = some summary → 0 < summary.count.getD 0 →
    ∀ id ∈ (summary.shipmentIds.getD []).take 3, (id.parse lib).isSome
  amounts : ∀ task ∈ raw.tasks, taskType lib task = "payment" → (PyFloat.ofInt (task.amountCents.getD 0)).isSome
  times : ∀ task ∈ raw.tasks, ∀ d t, parseIsoDate lib task.date = some d → parseIsoTime lib task.startTime = some t →
    0 ≤ DateTime.combine d t - tz.utcoffset (DateTime.combine d t) ∧
      DateTime.combine d t - tz.utcoffset (DateTime.combine d t) < wallEnd
  oneKind : (∀ x ∈ moments lib tz raw, ∃ d, x = some d ∧ d.utcoffset = none) ∨
    ∀ x ∈ moments lib tz raw, ∀ d, x = some d → d.utcoffset ≠ none
  inStep : (moments lib tz raw).Pairwise InStep
  consistent : Consistent DateTime.less (sortKeys lib tz raw)

lemma validateUuid_ok_iff (id : RawId) : (∃ u, validateUuid lib id = .ok u) ↔ (id.parse lib).isSome := by
  rw [validateUuid]
  cases id.parse lib <;> simp

lemma validateOptional_ok_iff (id : Option RawId) : (∃ u, validateOptional lib id = .ok u) ↔ Parses lib id := by
  cases id with
  | none => exact iff_of_true ⟨none, rfl⟩ (fun r h => by cases h)
  | some r =>
    simp only [validateOptional, Parses, Option.some.injEq, forall_eq', ← validateUuid_ok_iff]
    cases validateUuid lib r <;> simp [Functor.map, Except.map]

lemma stopRow_eq_ok {stop : Stop} {row : CalendarListItem} (h : stopRow lib stop = .ok row) :
    parseIso lib stop.scheduledAt = row.at_ := by
  obtain ⟨shipmentId, -, h⟩ := bind_ok_iff.mp h
  cases h
  rfl

lemma stopRow_ok_iff (stop : Stop) : (∃ row, stopRow lib stop = .ok row) ↔ Parses lib stop.shipmentId := by
  rw [← validateOptional_ok_iff]
  constructor
  · rintro ⟨row, h⟩
    obtain ⟨shipmentId, hid, -⟩ := bind_ok_iff.mp h
    exact ⟨shipmentId, hid⟩
  · rintro ⟨shipmentId, hid⟩
    exact ⟨_, bind_ok_iff.mpr ⟨shipmentId, hid, rfl⟩⟩

lemma summaryRows_ok_iff : (∃ summary, summaryRows lib raw = .ok summary) ↔
    ∀ summary, raw.followUpSummary = some summary → 0 < summary.count.getD 0 →
      ∀ id ∈ (summary.shipmentIds.getD []).take 3, (id.parse lib).isSome := by
  rw [summaryRows]
  cases raw.followUpSummary with
  | none => exact iff_of_true ⟨[], rfl⟩ (by simp)
  | some summary =>
    by_cases hcount : 0 < summary.count.getD 0
    · simp only [Option.some.injEq, forall_eq', hcount, if_true, true_imp_iff, ← validateUuid_ok_iff]
      constructor
      · rintro ⟨rows, h⟩ id hid
        cases hrow : followUpSummaryRow lib summary with
        | error e =>
          rw [hrow] at h
          cases h
        | ok row =>
          obtain ⟨ids, hids, -⟩ := bind_ok_iff.mp hrow
          obtain ⟨u, -, hu⟩ := forall₂_mem (mapM_ok_iff.mp hids) hid
          exact ⟨u, hu⟩
      · intro h
        obtain ⟨ids, hids⟩ := exists_forall₂ h
        have hrow : ∃ row, followUpSummaryRow lib summary = .ok row :=
          ⟨_, bind_ok_iff.mpr ⟨ids, mapM_ok_iff.mpr hids, rfl⟩⟩
        obtain ⟨row, hrow⟩ := hrow
        exact ⟨[row], by rw [hrow]; rfl⟩
    · exact iff_of_true ⟨[], by simp only [hcount, if_false]⟩ (fun s hs hpos => by cases hs; exact absurd hpos hcount)

lemma taskText_ok_iff (task : Task) : (∃ text, taskText lib task = .ok text) ↔
    (taskType lib task = "payment" → (PyFloat.ofInt (task.amountCents.getD 0)).isSome) := by
  rw [taskText]
  by_cases hpay : taskType lib task = "payment"
  · rw [hpay, ← fmtMoney_isSome_iff]
    cases fmtMoney (task.amountCents.getD 0) with
    | none => simp
    | some amount => simp
  · simp only [hpay, false_imp_iff, iff_true]
    split
    · exact ⟨_, rfl⟩
    · next h => exact absurd h hpay
    · exact ⟨_, rfl⟩

lemma taskAt_ok_iff (task : Task) : (∃ moment, taskAt lib tz task = .ok moment) ↔
    ∀ d t, parseIsoDate lib task.date = some d → parseIsoTime lib task.startTime = some t →
      0 ≤ DateTime.combine d t - tz.utcoffset (DateTime.combine d t) ∧
        DateTime.combine d t - tz.utcoffset (DateTime.combine d t) < wallEnd := by
  rw [taskAt]
  cases parseIsoDate lib task.date with
  | none => simp
  | some d =>
    cases parseIsoTime lib task.startTime with
    | none => simp
    | some t =>
      simp only [Option.some.injEq, ← DateTime.toUtc_isSome]
      cases hm : DateTime.toUtc tz (DateTime.combine d t) with
      | none => simp [hm]
      | some moment => simp [hm]

lemma taskRow_eq_ok {task : Task} {row : CalendarListItem} (h : taskRow lib tz task = .ok row) :
    taskAt lib tz task = .ok row.at_ := by
  obtain ⟨⟨text, metaBits⟩, -, h⟩ := bind_ok_iff.mp h
  obtain ⟨moment, hmoment, h⟩ := bind_ok_iff.mp h
  obtain ⟨shipmentId, -, h⟩ := bind_ok_iff.mp h
  obtain ⟨taskId, -, h⟩ := bind_ok_iff.mp h
  cases h
  exact hmoment

lemma taskRow_ok_iff (task : Task) : (∃ row, taskRow lib tz task = .ok row) ↔
    (∃ text, taskText lib task = .ok text) ∧ (∃ moment, taskAt lib tz task = .ok moment) ∧
      Parses lib task.shipmentId ∧ Parses lib task.taskId := by
  rw [← validateOptional_ok_iff, ← validateOptional_ok_iff]
  constructor
  · rintro ⟨row, h⟩
    obtain ⟨text, htext, h⟩ := bind_ok_iff.mp h
    obtain ⟨moment, hmoment, h⟩ := bind_ok_iff.mp h
    obtain ⟨shipmentId, hshipment, h⟩ := bind_ok_iff.mp h
    obtain ⟨taskId, htask, -⟩ := bind_ok_iff.mp h
    exact ⟨⟨text, htext⟩, ⟨moment, hmoment⟩, ⟨shipmentId, hshipment⟩, taskId, htask⟩
  · rintro ⟨⟨text, htext⟩, ⟨moment, hmoment⟩, ⟨shipmentId, hshipment⟩, taskId, htask⟩
    exact ⟨_, bind_ok_iff.mpr ⟨text, htext, bind_ok_iff.mpr ⟨moment, hmoment,
      bind_ok_iff.mpr ⟨shipmentId, hshipment, bind_ok_iff.mpr ⟨taskId, htask, rfl⟩⟩⟩⟩⟩

lemma TimedItems.unique {rows rows' : List CalendarListItem} (h : TimedItems lib tz raw rows)
    (h' : TimedItems lib tz raw rows') : rows = rows' := by
  obtain ⟨stopRows, taskRows, hstops, htasks, rfl⟩ := h
  obtain ⟨stopRows', taskRows', hstops', htasks', rfl⟩ := h'
  have hstop : Relator.RightUnique (fun stop row => stopRow lib stop = .ok row) :=
    fun _ _ _ hx hy => Except.ok.inj (hx.symm.trans hy)
  have htask : Relator.RightUnique (fun task row => taskRow lib tz task = .ok row) :=
    fun _ _ _ hx hy => Except.ok.inj (hx.symm.trans hy)
  rw [hstop.forall₂ hstops hstops', htask.forall₂ htasks htasks']

lemma map_at_of_forall₂ {α : Type} {f : α → Option DateTime} {R : α → CalendarListItem → Prop}
    (hat : ∀ a row, R a row → row.at_ = f a) {xs : List α} {rows : List CalendarListItem}
    (h : List.Forall₂ R xs rows) : rows.map CalendarListItem.at_ = xs.map f := by
  induction h with
  | nil => rfl
  | cons hrow _ ih => rw [List.map_cons, List.map_cons, ih, hat _ _ hrow]

lemma TimedItems.moments {rows : List CalendarListItem} (h : TimedItems lib tz raw rows) :
    rows.map CalendarListItem.at_ = moments lib tz raw := by
  obtain ⟨stopRows, taskRows, hstops, htasks, rfl⟩ := h
  have hstop : stopRows.map CalendarListItem.at_ = raw.stops.map (fun stop => parseIso lib stop.scheduledAt) := by
    refine map_at_of_forall₂ (fun _ _ hrow => ?_) hstops
    exact (stopRow_eq_ok hrow).symm
  have htask : taskRows.map CalendarListItem.at_ =
      raw.tasks.map (fun task => (taskAt lib tz task).toOption.join) := by
    refine map_at_of_forall₂ (fun _ _ hrow => ?_) htasks
    rw [taskRow_eq_ok hrow]
    rfl
  rw [List.map_append, hstop, htask]
  rfl

lemma TimedItems.keys {rows : List CalendarListItem} (h : TimedItems lib tz raw rows) :
    rows.map CalendarListItem.sortKey = sortKeys lib tz raw := by
  rw [sortKeys, ← h.moments, List.map_map]
  rfl

lemma shapeCalendar_ok_iff (r : DashboardCalendarResponse) : shapeCalendar lib tz nowLabel raw = .ok r ↔
    ∃ rows items summary, TimedItems lib tz raw rows ∧
      sortBy (fun i j => DateTime.less i.sortKey j.sortKey) rows = some items ∧
      summaryRows lib raw = .ok summary ∧ r = ⟨orElse raw.dateLabel nowLabel, items ++ summary⟩ := by
  rw [shapeCalendar, bind_ok_iff]
  constructor
  · rintro ⟨stopRows, hstops, h⟩
    obtain ⟨taskRows, htasks, h⟩ := bind_ok_iff.mp h
    cases hs : sortBy (fun i j => DateTime.less i.sortKey j.sortKey) (stopRows ++ taskRows) with
    | none =>
      rw [hs] at h
      cases h
    | some items =>
      rw [hs] at h
      obtain ⟨summary, hsummary, h⟩ := bind_ok_iff.mp h
      exact ⟨_, items, summary, ⟨stopRows, taskRows, mapM_ok_iff.mp hstops, mapM_ok_iff.mp htasks, rfl⟩, hs, hsummary,
        (Except.ok.inj h).symm⟩
  · rintro ⟨rows, items, summary, ⟨stopRows, taskRows, hstops, htasks, rfl⟩, hs, hsummary, rfl⟩
    refine ⟨stopRows, mapM_ok_iff.mpr hstops, bind_ok_iff.mpr ⟨taskRows, mapM_ok_iff.mpr htasks, ?_⟩⟩
    rw [hs]
    exact bind_ok_iff.mpr ⟨summary, hsummary, rfl⟩

lemma sortKey_isAware (i : CalendarListItem) : i.sortKey.isAware = true ↔ ∀ d, i.at_ = some d → d.utcoffset ≠ none := by
  rw [CalendarListItem.sortKey, DateTime.isAware, Option.isSome_iff_ne_none]
  cases i.at_ with
  | none => exact iff_of_true (by simp [DateTime.maxUtc]) (by simp)
  | some d => simp

lemma oneKind_iff {xs : List (Option DateTime)} {rows : List CalendarListItem}
    (hrows : rows.map CalendarListItem.at_ = xs) :
    ((∀ x ∈ xs, ∃ d, x = some d ∧ d.utcoffset = none) ∨ ∀ x ∈ xs, ∀ d, x = some d → d.utcoffset ≠ none) ↔
      ∀ i ∈ rows, ∀ j ∈ rows, i.sortKey.isAware = j.sortKey.isAware := by
  subst hrows
  simp only [List.forall_mem_map]
  have hnaive (i : CalendarListItem) : (∃ d, i.at_ = some d ∧ d.utcoffset = none) ↔ ¬ i.sortKey.isAware = true := by
    rw [sortKey_isAware]
    push Not
    rfl
  simp only [hnaive, ← sortKey_isAware]
  constructor
  · rintro (h | h) i hi j hj
    · rw [Bool.eq_false_iff.mpr (h i hi), Bool.eq_false_iff.mpr (h j hj)]
    · rw [h i hi, h j hj]
  · intro h
    by_cases hall : ∀ i ∈ rows, i.sortKey.isAware = true
    · exact .inr hall
    · push Not at hall
      obtain ⟨i, hi, hnot⟩ := hall
      exact .inl (fun j hj => h i hi j hj ▸ hnot)

lemma maxUtc_zone (d : DateTime) : ¬ DateTime.SameZone DateTime.maxUtc d := fun h => absurd h.1 (by decide)

lemma inStep_iff (haware : i.sortKey.isAware = j.sortKey.isAware) : InStep i.at_ j.at_ ↔
    DateTime.less j.sortKey i.sortKey = some (decide (j.place < i.place)) := by
  rw [CalendarListItem.sortKey, CalendarListItem.sortKey] at haware ⊢
  rw [CalendarListItem.place, CalendarListItem.place]
  cases hi : i.at_ with
  | none =>
    rw [hi] at haware
    cases hj : j.at_ with
    | none => exact iff_of_true trivial rfl
    | some e =>
      rw [hj] at haware
      have hless : DateTime.less e DateTime.maxUtc = some (decide (e.instant < DateTime.maxUtc.instant)) :=
        DateTime.less_of_isAware (fun hzone => maxUtc_zone e hzone.symm) haware.symm
      simp [InStep, hless]
  | some d =>
    rw [hi] at haware
    cases hj : j.at_ with
    | none =>
      rw [hj] at haware
      have hless : DateTime.less DateTime.maxUtc d = some (decide (DateTime.maxUtc.instant < d.instant)) :=
        DateTime.less_of_isAware (maxUtc_zone d) haware.symm
      simp [InStep, hless]
    | some e =>
      rw [hj] at haware
      simp only [InStep, Option.getD_some, WithTop.coe_lt_coe]
      by_cases hzone : DateTime.SameZone d e
      · rw [DateTime.less_of_sameZone hzone.symm, Option.some.injEq, decide_eq_decide]
        exact ⟨fun h => h hzone.1 hzone.2, fun h _ _ => h⟩
      · have hless : DateTime.less e d = some (decide (e.instant < d.instant)) :=
          DateTime.less_of_isAware (fun hback => hzone hback.symm) haware.symm
        exact iff_of_true (fun hd hde => absurd ⟨hd, hde⟩ hzone) hless

lemma consistent_iff {rows : List CalendarListItem} (h : TimedItems lib tz raw rows) :
    Consistent DateTime.less (sortKeys lib tz raw) ↔
      Consistent (fun i j => DateTime.less i.sortKey j.sortKey) rows := by
  simp only [← h.keys, Consistent, List.forall_mem_map]

lemma exists_timedItems (h : Orderable lib tz raw) : ∃ rows, TimedItems lib tz raw rows := by
  obtain ⟨stopRows, hstops⟩ := exists_forall₂ (fun stop hstop => (stopRow_ok_iff stop).mpr (h.stopIds stop hstop))
  have hrow : ∀ task ∈ raw.tasks, ∃ row, taskRow lib tz task = .ok row := by
    intro task htask
    exact (taskRow_ok_iff task).mpr ⟨(taskText_ok_iff task).mpr (h.amounts task htask),
      (taskAt_ok_iff task).mpr (h.times task htask), h.taskIds task htask⟩
  obtain ⟨taskRows, htasks⟩ := exists_forall₂ hrow
  exact ⟨_, stopRows, taskRows, hstops, htasks, rfl⟩

lemma rendersInOrder_of_orderable (h : Orderable lib tz raw) : RendersInOrder lib tz nowLabel raw := by
  obtain ⟨rows, hrows⟩ := exists_timedItems h
  obtain ⟨summary, hsummary⟩ := summaryRows_ok_iff.mpr h.summaryIds
  have hkinds := (oneKind_iff hrows.moments).mp h.oneKind
  have hstep := h.inStep
  rw [← hrows.moments, List.pairwise_map] at hstep
  have hless : rows.Pairwise
      (fun i j => DateTime.less j.sortKey i.sortKey = some (decide (j.place < i.place))) :=
    hstep.imp_of_mem (fun hi hj hij => (inStep_iff (hkinds _ hi _ hj)).mp hij)
  refine ⟨_, rows, sortedBy CalendarListItem.place rows, summary,
    (shapeCalendar_ok_iff _).mpr ⟨rows, _, summary, hrows, sortBy_eq_sortedBy hless, hsummary, rfl⟩, hrows, hsummary,
    rfl, List.perm_insertionSort _ rows, sortedBy_pairwise rows, ?_⟩
  exact fun k => sortedBy_filter_key rows k

lemma orderable_of_rendersInOrder (h : RendersInOrder lib tz nowLabel raw)
    (hconsistent : Consistent DateTime.less (sortKeys lib tz raw)) : Orderable lib tz raw := by
  obtain ⟨r, rows, timed, summary, hr, hrows, hsummary, hitems, -, hordered, hties⟩ := h
  obtain ⟨rows', items, summary', hrows', hsort, hsummary', rfl⟩ := (shapeCalendar_ok_iff r).mp hr
  obtain rfl := hrows.unique hrows'
  obtain rfl : summary = summary' := Except.ok.inj (hsummary.symm.trans hsummary')
  obtain rfl : items = timed := List.append_cancel_right hitems
  have hkinds : ∀ i ∈ rows, ∀ j ∈ rows, i.sortKey.isAware = j.sortKey.isAware := by
    by_contra hmixed
    push Not at hmixed
    have hfails : sortBy (fun i j => DateTime.less i.sortKey j.sortKey) rows = none :=
      sortBy_mixed (fun i j : CalendarListItem => DateTime.less_eq_none i.sortKey j.sortKey) hmixed
    exact absurd (hsort.symm.trans hfails) (by simp)
  obtain ⟨stopRows, taskRows, hstops, htasks, -⟩ := id hrows
  have hstop : ∀ stop ∈ raw.stops, ∃ row, stopRow lib stop = .ok row := by
    intro stop hmem
    obtain ⟨row, -, hrow⟩ := forall₂_mem hstops hmem
    exact ⟨row, hrow⟩
  have htask : ∀ task ∈ raw.tasks, ∃ row, taskRow lib tz task = .ok row := by
    intro task hmem
    obtain ⟨row, -, hrow⟩ := forall₂_mem htasks hmem
    exact ⟨row, hrow⟩
  constructor
  · exact fun stop hmem => (stopRow_ok_iff stop).mp (hstop stop hmem)
  · exact fun task hmem => ((taskRow_ok_iff task).mp (htask task hmem)).2.2
  · exact summaryRows_ok_iff.mp ⟨summary, hsummary⟩
  · exact fun task hmem => (taskText_ok_iff task).mp ((taskRow_ok_iff task).mp (htask task hmem)).1
  · exact fun task hmem => (taskAt_ok_iff task).mp ((taskRow_ok_iff task).mp (htask task hmem)).2.1
  · exact (oneKind_iff hrows.moments).mpr hkinds
  · rw [← hrows.moments, List.pairwise_map, List.pairwise_iff_forall_sublist]
    intro i j hpair
    have haware := hkinds i (hpair.subset (by simp)) j (hpair.subset (by simp))
    refine (inStep_iff haware).mpr (less_of_sorted (fun _ _ => DateTime.less_asymm _ _)
      ((consistent_iff hrows).mp hconsistent) hsort hordered hties hpair ?_)
    exact fun hnone => (DateTime.less_eq_none _ _).mp hnone haware.symm
  · exact hconsistent

def plainLibrary : PyLibrary where
  lower := String.map Char.toLower
  title := id
  str _ := ""
  datetimeFromisoformat _ := none
  dateFromisoformat _ := none
  strptimeHms _ := none
  strptimeHm _ := none
  uuid _ := none

def utc : TimeZone := ⟨fun _ => 0⟩

lemma leapYear_valid : 1 ≤ 2024 ∧ 2024 ≤ maxYear := by decide

lemma january_valid : 1 ≤ 1 ∧ 1 ≤ 12 := by decide

def naiveMorning : DateTime :=
  ⟨((Date.toOrdinal ⟨2024, 1, 1, leapYear_valid, january_valid, by decide⟩ : ℤ) - 1) * dayMicros + 9 * 3600000000, none,
    none, by decide, by decide⟩

def pickupAt (moment : Option Stamp) : Stop := ⟨none, none, none, none, none, none, moment, none⟩

def mixedStops : CalendarRaw := ⟨none, [pickupAt (some (.datetime naiveMorning)), pickupAt none], [], none⟩

end TheCargo.Dashboard
