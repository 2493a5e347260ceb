import TheCargo.Dashboard.CalendarView
import TheCargo.Foundation.Markup

namespace TheCargo.Dashboard

open Foundation Markup

inductive PickupAt
  | text (s : String)
  | date (d : Date)
  | datetime (d : DateTime)

structure QueueItem where
  code : Option String
  stage : Option String
  status : Option String
  reason : Option String
  originCity : Option String
  destinationCity : Option String
  updatedAt : Option Stamp
  estimatedPickupAt : Option PickupAt

structure NeedsAttention where
  count : Option ℤ
  oldestAt : Option Stamp
  items : List QueueItem

structure ReadyToShip where
  count : Option ℤ
  posted : Option ℤ
  notPosted : Option ℤ
  items : List QueueItem

structure WaitingOnCustomer where
  count : Option ℤ
  followUp : Option ℤ
  depositPending : Option ℤ
  items : List QueueItem

structure QueueRaw where
  needsAttention : Option NeedsAttention
  readyToShip : Option ReadyToShip
  waitingOnCustomer : Option WaitingOnCustomer

structure QueueListItem where
  left : String
  right : String
  deriving DecidableEq

structure NeedsAttentionPanel where
  count : ℤ
  oldest : String
  items : List QueueListItem
  more : ℤ

structure ReadyToShipPanel where
  count : ℤ
  posted : ℤ
  notPosted : ℤ
  items : List QueueListItem
  more : ℤ

structure WaitingOnCustomerPanel where
  count : ℤ
  followUp : ℤ
  depositPending : ℤ
  items : List QueueListItem
  more : ℤ

structure QueueResponse where
  needsAttention : NeedsAttentionPanel
  readyToShip : ReadyToShipPanel
  waitingOnCustomer : WaitingOnCustomerPanel

/-- `_e` -/
def escaped (s : Option String) : String := escape (orElse s "")

def ageSeconds (now dt : DateTime) : ℤ :=
  PyFloat.trunc (PyFloat.nearest (((now.instant - dt.instant : ℤ) : ℚ) / 1000000))

def ageLabel (seconds : ℤ) : String :=
  if seconds < 60 then "now"
  else if seconds.toNat / 60 < 60 then toString (seconds.toNat / 60) ++ "m"
  else if seconds.toNat / 60 / 60 < 24 then toString (seconds.toNat / 60 / 60) ++ "h"
  else toString (seconds.toNat / 60 / 60 / 24) ++ "d"

/-- A reading without an offset is in UTC, which its `instant` already says. -/
def relativeAge (lib : PyLibrary) (now : DateTime) (value : Option Stamp) : String :=
  match parseIso lib value with
  | none => ""
  | some dt => ageLabel (ageSeconds now dt)

def routeLabel (item : QueueItem) : String :=
  " → ".intercalate ((given item.originCity ++ given item.destinationCity).map escape)

def stageLabel (lib : PyLibrary) (item : QueueItem) : String :=
  lib.title (orElse item.stage "") ++ " <b>#" ++ escaped item.code ++ "</b>"

def spaced (s : String) : String := String.ofList (s.toList.map (fun c => if c = '_' then ' ' else c))

def needsAttentionLeft (lib : PyLibrary) (item : QueueItem) : String :=
  if orElse item.reason "" = "" then stageLabel lib item ++ " · " ++ lib.lower (spaced (orElse item.status ""))
  else stageLabel lib item ++ " · " ++ spaced (escaped item.reason)

def pickupDate (lib : PyLibrary) : PickupAt → Option Date
  | .datetime d => some d.date
  | .date d => some d
  | .text s => (lib.datetimeFromisoformat (utcMark s)).map DateTime.date

def todayText : String := "<span class=\"dash-aq-pill\">Today</span>"

def padded (width n : ℕ) : String := String.ofList ((Nat.toDigits 10 n).leftpad width '0')

def isoformat (d : Date) : String := padded 4 d.year ++ "-" ++ padded 2 d.month ++ "-" ++ padded 2 d.day

def pickupText (today d : Date) : String := if d = today then todayText else escape (isoformat d)

def todayPill (lib : PyLibrary) (now : DateTime) (value : Option PickupAt) : String :=
  match value with
  | none => ""
  | some (.text "") => ""
  | some at_ =>
    match pickupDate lib at_ with
    | none => ""
    | some d => pickupText now.date d

def isMargin (c : Char) : Bool := c = ' ' || c = '·'

def needsRow (lib : PyLibrary) (now : DateTime) (item : QueueItem) : QueueListItem :=
  ⟨needsAttentionLeft lib item, relativeAge lib now item.updatedAt⟩

def readyRow (lib : PyLibrary) (now : DateTime) (item : QueueItem) : QueueListItem :=
  ⟨String.ofList (stripBy isMargin (escaped item.code ++ " · " ++ routeLabel item).toList),
    todayPill lib now item.estimatedPickupAt⟩

def waitingRow (lib : PyLibrary) (now : DateTime) (item : QueueItem) : QueueListItem :=
  ⟨escaped item.code ++ " · " ++ spaced (orElse item.status ""), relativeAge lib now item.updatedAt⟩

/-- `now` is what the clock shows whenever it is read. -/
def shapeQueue (lib : PyLibrary) (now : DateTime) (raw : QueueRaw) : QueueResponse :=
  let na := raw.needsAttention.getD ⟨none, none, []⟩
  let naItems := na.items.map (needsRow lib now)
  let rts := raw.readyToShip.getD ⟨none, none, none, []⟩
  let rtsItems := rts.items.map (readyRow lib now)
  let woc := raw.waitingOnCustomer.getD ⟨none, none, none, []⟩
  let wocItems := woc.items.map (waitingRow lib now)
  { needsAttention :=
      ⟨na.count.getD 0, relativeAge lib now na.oldestAt, naItems, max 0 (na.count.getD 0 - naItems.length)⟩
    readyToShip :=
      ⟨rts.count.getD 0, rts.posted.getD 0, rts.notPosted.getD 0, rtsItems, max 0 (rts.count.getD 0 - rtsItems.length)⟩
    waitingOnCustomer :=
      ⟨woc.count.getD 0, woc.followUp.getD 0, woc.depositPending.getD 0, wocItems,
        max 0 (woc.count.getD 0 - wocItems.length)⟩ }

def PlainAroundCode (code : Option String) (s : String) : Prop :=
  ∃ before after, s = before ++ ("<b>#" ++ escaped code ++ "</b>") ++ after ∧ Plain (before ++ after)

structure CarriesNoMarkup (raw : QueueRaw) (r : QueueResponse) : Prop where
  needsAttention : List.Forall₂ (fun item row => PlainAroundCode item.code row.left ∧ Plain row.right)
    ((raw.needsAttention.map NeedsAttention.items).getD []) r.needsAttention.items
  readyToShip : ∀ row ∈ r.readyToShip.items, Plain row.left ∧ (row.right = todayText ∨ Plain row.right)
  waitingOnCustomer : ∀ row ∈ r.waitingOnCustomer.items, Plain row.left ∧ Plain row.right

structure FieldsPlain (lib : PyLibrary) (raw : QueueRaw) : Prop where
  stage : ∀ na, raw.needsAttention = some na → ∀ item ∈ na.items, Plain (lib.title (orElse item.stage ""))
  status : ∀ na, raw.needsAttention = some na → ∀ item ∈ na.items, orElse item.reason "" = "" →
    Plain (lib.lower (spaced (orElse item.status "")))
  waiting : ∀ woc, raw.waitingOnCustomer = some woc → ∀ item ∈ woc.items, Plain (orElse item.status "")

variable {lib : PyLibrary} {now : DateTime} {raw : QueueRaw} {item : QueueItem} {s : String}

lemma plain_escaped (value : Option String) : Plain (escaped value) := plain_escape _

lemma plain_spaced_iff : Plain (spaced s) ↔ Plain s := by
  rw [Plain, Plain, spaced, String.toList_ofList, List.forall_mem_map]
  refine forall₂_congr (fun c _ => ?_)
  split
  · next hc =>
    rw [hc]
    exact Iff.of_eq rfl
  · rfl

lemma plain_ageLabel (seconds : ℤ) : Plain (ageLabel seconds) := by
  have hunit {n : ℕ} {unit : String} (hunit : Plain unit) : Plain (toString n ++ unit) :=
    plain_append.mpr ⟨plain_toString n, hunit⟩
  rw [ageLabel]
  split
  · exact forall_of_all (by decide)
  split
  · exact hunit (forall_of_all (by decide))
  split
  · exact hunit (forall_of_all (by decide))
  · exact hunit (forall_of_all (by decide))

lemma plain_relativeAge (lib : PyLibrary) (now : DateTime) (value : Option Stamp) :
    Plain (relativeAge lib now value) := by
  rw [relativeAge]
  split
  · exact forall_of_all (by decide)
  · exact plain_ageLabel _

lemma plain_routeLabel (item : QueueItem) : Plain (routeLabel item) := by
  apply plain_intercalate (forall_of_all (by decide))
  intro part hpart
  obtain ⟨city, -, rfl⟩ := List.mem_map.mp hpart
  exact plain_escape city

lemma todayPill_plain (lib : PyLibrary) (now : DateTime) (value : Option PickupAt) :
    todayPill lib now value = todayText ∨ Plain (todayPill lib now value) := by
  have hempty : Plain "" := forall_of_all (by decide)
  unfold todayPill
  split
  · exact .inr hempty
  · exact .inr hempty
  split
  · exact .inr hempty
  rw [pickupText]
  split
  · exact .inl rfl
  · exact .inr (plain_escape _)

lemma readyRow_plain (lib : PyLibrary) (now : DateTime) (item : QueueItem) :
    Plain (readyRow lib now item).left ∧
      ((readyRow lib now item).right = todayText ∨ Plain (readyRow lib now item).right) := by
  constructor
  · have hrow : Plain (escaped item.code ++ " · " ++ routeLabel item) :=
      plain_append.mpr ⟨plain_append.mpr ⟨plain_escaped _, forall_of_all (by decide)⟩, plain_routeLabel item⟩
    refine plain_of_subset ?_ hrow
    intro c hc
    obtain ⟨l, r, -, -, hparts⟩ := stripBy_parts isMargin (escaped item.code ++ " · " ++ routeLabel item).toList
    change c ∈ (String.ofList (stripBy isMargin _)).toList at hc
    rw [String.toList_ofList] at hc
    rw [hparts]
    exact List.mem_append_right _ (List.mem_append_left _ hc)
  · exact todayPill_plain lib now item.estimatedPickupAt

lemma waitingRow_plain_iff :
    (Plain (waitingRow lib now item).left ∧ Plain (waitingRow lib now item).right) ↔ Plain (orElse item.status "") := by
  have hleft : Plain (waitingRow lib now item).left ↔ Plain (orElse item.status "") := by
    rw [waitingRow, plain_append, plain_append, plain_spaced_iff]
    exact and_iff_right ⟨plain_escaped _, forall_of_all (by decide)⟩
  rw [hleft]
  exact and_iff_left (plain_relativeAge lib now item.updatedAt)

lemma angles_around (code : Option String) (before after : String) :
    angles (before ++ ("<b>#" ++ escaped code ++ "</b>") ++ after) = angles before + 4 + angles after := by
  have helement : angles ("<b>#" ++ escaped code ++ "</b>") = 4 := by
    rw [angles_append, angles_append, plain_iff.mp (plain_escaped code)]
    rfl
  rw [angles_append, angles_append, helement]

lemma plainAroundCode_iff {code : Option String} {before after : String} :
    PlainAroundCode code (before ++ ("<b>#" ++ escaped code ++ "</b>") ++ after) ↔ Plain before ∧ Plain after := by
  constructor
  · rintro ⟨before', after', heq, hplain⟩
    obtain ⟨hbefore', hafter'⟩ := plain_append.mp hplain
    -- Both sides have the four of the `b` element, and the right one has no more.
    have hcount := congrArg angles heq
    rw [angles_around, angles_around, plain_iff.mp hbefore', plain_iff.mp hafter'] at hcount
    rw [plain_iff, plain_iff]
    omega
  · intro hplain
    exact ⟨before, after, rfl, plain_append.mpr hplain⟩

lemma needsRow_plain_iff :
    (PlainAroundCode item.code (needsRow lib now item).left ∧ Plain (needsRow lib now item).right) ↔
      Plain (lib.title (orElse item.stage "")) ∧
        (orElse item.reason "" = "" → Plain (lib.lower (spaced (orElse item.status "")))) := by
  have hrow (tail : String) : PlainAroundCode item.code (stageLabel lib item ++ " · " ++ tail) ↔
      Plain (lib.title (orElse item.stage "")) ∧ Plain tail := by
    have hsplit : stageLabel lib item ++ " · " ++ tail =
        lib.title (orElse item.stage "") ++ " " ++ ("<b>#" ++ escaped item.code ++ "</b>") ++ (" · " ++ tail) := by
      have hopen : " <b>#" = " " ++ "<b>#" := rfl
      rw [stageLabel, hopen]
      simp only [String.append_assoc]
    have hblank : Plain " " := forall_of_all (by decide)
    have hdot : Plain " · " := forall_of_all (by decide)
    rw [hsplit, plainAroundCode_iff, plain_append, plain_append]
    tauto
  refine (and_iff_left (plain_relativeAge lib now item.updatedAt)).trans ?_
  rw [needsRow, needsAttentionLeft]
  split
  · next hreason =>
    rw [hrow]
    simp [hreason]
  · next hreason =>
    have htail : Plain (spaced (escaped item.reason)) := plain_spaced_iff.mpr (plain_escaped item.reason)
    rw [hrow]
    simp [hreason, htail]

theorem carriesNoMarkup_iff (lib : PyLibrary) (now : DateTime) (raw : QueueRaw) :
    CarriesNoMarkup raw (shapeQueue lib now raw) ↔ FieldsPlain lib raw := by
  have hneeds (items : List QueueItem) :
      List.Forall₂ (fun item row => PlainAroundCode item.code row.left ∧ Plain row.right) items
        (items.map (needsRow lib now)) ↔ ∀ item ∈ items, Plain (lib.title (orElse item.stage "")) ∧
          (orElse item.reason "" = "" → Plain (lib.lower (spaced (orElse item.status "")))) := by
    rw [List.forall₂_map_right_iff, List.forall₂_same]
    exact forall₂_congr (fun item _ => needsRow_plain_iff)
  have hwaiting (items : List QueueItem) :
      (∀ row ∈ items.map (waitingRow lib now), Plain row.left ∧ Plain row.right) ↔
        ∀ item ∈ items, Plain (orElse item.status "") := by
    rw [List.forall_mem_map]
    exact forall₂_congr (fun item _ => waitingRow_plain_iff)
  constructor
  · rintro ⟨hna, -, hwoc⟩
    refine ⟨?_, ?_, ?_⟩
    · intro na hraw item hitem
      simp only [shapeQueue, hraw, Option.map_some, Option.getD_some] at hna
      exact ((hneeds _).mp hna item hitem).1
    · intro na hraw item hitem
      simp only [shapeQueue, hraw, Option.map_some, Option.getD_some] at hna
      exact ((hneeds _).mp hna item hitem).2
    · intro woc hraw item hitem
      simp only [shapeQueue, hraw, Option.getD_some] at hwoc
      exact (hwaiting _).mp hwoc item hitem
  · rintro ⟨hstage, hstatus, hwoc⟩
    refine ⟨?_, ?_, ?_⟩
    · cases hraw : raw.needsAttention with
      | none => simp only [shapeQueue, hraw, Option.map_none, Option.getD_none, List.map_nil, List.Forall₂.nil]
      | some na =>
        simp only [shapeQueue, hraw, Option.map_some, Option.getD_some]
        exact (hneeds _).mpr (fun item hitem => ⟨hstage na hraw item hitem, hstatus na hraw item hitem⟩)
    · exact List.forall_mem_map.mpr (fun item _ => readyRow_plain lib now item)
    · cases hraw : raw.waitingOnCustomer with
      | none => simp [shapeQueue, hraw]
      | some woc =>
        simp only [shapeQueue, hraw, Option.getD_some]
        exact (hwaiting _).mpr (hwoc woc hraw)

def scriptedStatus : QueueRaw where
  needsAttention := none
  readyToShip := none
  waitingOnCustomer := some ⟨some 1, none, none, [⟨some "A1", none, some "<script>", none, none, none, none, none⟩]⟩

def morning : DateTime := { naiveMorning with utcoffset := some 0, zoned := fun _ => rfl }

theorem carriesNoMarkup_scripted :
    ¬ CarriesNoMarkup scriptedStatus (shapeQueue plainLibrary morning scriptedStatus) := by
  rintro ⟨-, -, hwaiting⟩
  have hplain := (hwaiting _ List.mem_cons_self).1
  exact absurd (hplain '<' (by decide)) (by decide)

end TheCargo.Dashboard
