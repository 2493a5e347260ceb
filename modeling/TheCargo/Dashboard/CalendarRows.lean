import TheCargo.Dashboard.Figures
import TheCargo.Foundation.DateTime
import TheCargo.Foundation.FallibleSort
import TheCargo.Foundation.PyString
import TheCargo.Models.Base

namespace TheCargo.Dashboard

open Foundation Models

/-- What the rows take from Python's library, and `uuid` from pydantic; nothing where it raises `ValueError`. -/
structure PyLibrary where
  lower : String → String
  title : String → String
  str : DateTime → String
  datetimeFromisoformat : String → Option DateTime
  dateFromisoformat : String → Option Date
  strptimeHms : String → Option TimeOfDay
  strptimeHm : String → Option TimeOfDay
  uuid : String → Option UUID

inductive CalendarError
  | typeError
  | overflowError
  | validationError
  deriving DecidableEq

inductive Stamp
  | text (s : String)
  | datetime (d : DateTime)

def Stamp.str (lib : PyLibrary) : Stamp → String
  | .text s => s
  | .datetime d => lib.str d

/-- What stands for an id; `other` is nothing that pydantic reads as a `UUID`. -/
inductive RawId
  | uuid (id : UUID)
  | text (s : String)
  | other

structure Stop where
  stopType : Option String
  city : Option String
  state : Option String
  shipmentCode : Option String
  vehicleSummary : Option String
  customerName : Option String
  scheduledAt : Option Stamp
  shipmentId : Option RawId

structure Task where
  type : Option String
  shipmentCode : Option String
  assigneeName : Option String
  daysSinceLastContact : Option ℤ
  amountCents : Option ℤ
  customerName : Option String
  title : Option String
  date : Option Stamp
  startTime : Option Stamp
  shipmentId : Option RawId
  taskId : Option RawId

structure FollowUpSummary where
  count : Option ℤ
  codes : Option (List String)
  shipmentIds : Option (List RawId)

inductive CalendarItemKind
  | stop
  | task
  | followUpSummary
  deriving DecidableEq

structure CalendarListItem where
  at_ : Option DateTime
  text : String
  meta_ : String
  tag : String
  cls : String
  kind : CalendarItemKind
  shipmentId : Option UUID
  taskId : Option UUID
  shipmentIds : Option (List UUID)
  deriving DecidableEq

def RawId.parse (lib : PyLibrary) : RawId → Option UUID
  | .uuid id => some id
  | .text s => lib.uuid s
  | .other => none

def validateUuid (lib : PyLibrary) (id : RawId) : Except CalendarError UUID :=
  match id.parse lib with
  | some u => .ok u
  | none => .error .validationError

def validateOptional (lib : PyLibrary) : Option RawId → Except CalendarError (Option UUID)
  | some id => some <$> validateUuid lib id
  | none => .ok none

/-- `value.replace("Z", "+00:00")` -/
def utcMark (s : String) : String :=
  String.ofList (s.toList.flatMap (fun c => if c = 'Z' then "+00:00".toList else [c]))

def parseIso (lib : PyLibrary) : Option Stamp → Option DateTime
  | none => none
  | some (.datetime d) => some d
  | some (.text s) => lib.datetimeFromisoformat (utcMark s)

def parseIsoDate (lib : PyLibrary) (value : Option Stamp) : Option Date :=
  value.bind (fun v => lib.dateFromisoformat (v.str lib))

def parseIsoTime (lib : PyLibrary) (value : Option Stamp) : Option TimeOfDay :=
  value.bind (fun v =>
    ((lib.datetimeFromisoformat (v.str lib)).map DateTime.time).orElse (fun _ =>
      (lib.strptimeHms (v.str lib)).orElse (fun _ => lib.strptimeHm (v.str lib))))

def taskAt (lib : PyLibrary) (tz : TimeZone) (task : Task) : Except CalendarError (Option DateTime) :=
  match parseIsoDate lib task.date, parseIsoTime lib task.startTime with
  | some d, some t =>
    match DateTime.toUtc tz (DateTime.combine d t) with
    | some moment => .ok (some moment)
    | none => .error .overflowError
  | _, _ => .ok none

def joined (parts : List String) : String := " · ".intercalate parts

def given (value : Option String) : List String := if orElse value "" = "" then [] else [orElse value ""]

def coded (sign : String) (code : String) : List String := if code = "" then [] else [sign ++ code]

def stopPillText : List (String × String) := [("pickup", "Pickup"), ("delivery", "Drop-off")]

def stopPillClass : List (String × String) := [("pickup", "pickup"), ("delivery", "dropoff")]

def stopRow (lib : PyLibrary) (stop : Stop) : Except CalendarError CalendarListItem := do
  let stopType := lib.lower (orElse stop.stopType "pickup")
  let location := ", ".intercalate (given stop.city ++ given stop.state)
  let code := orElse stop.shipmentCode ""
  let vehicle := orElse stop.vehicleSummary ""
  let tag := (stopPillText.lookup stopType).getD (lib.title stopType)
  let cls := (stopPillClass.lookup stopType).getD stopType
  let text :=
    if vehicle ≠ "" then tag ++ " · " ++ vehicle else if code ≠ "" then tag ++ " · #" ++ code else tag
  let metaParts := coded "Order #" code ++ (if stopType = "pickup" then given stop.customerName else []) ++
    (if location = "" then [] else [location])
  let shipmentId ← validateOptional lib stop.shipmentId
  return ⟨parseIso lib stop.scheduledAt, text, joined metaParts, tag, cls, .stop, shipmentId, none, none⟩

def taskPillText : List (String × String) := [("phone", "Call"), ("payment", "Deposit"), ("general", "Follow up")]

def taskPillClass : List (String × String) := [("phone", "call"), ("payment", "deposit"), ("general", "followup")]

def taskType (lib : PyLibrary) (task : Task) : String :=
  let rawType := lib.lower (orElse task.type "general")
  if (taskPillText.lookup rawType).isSome then rawType else "general"

def phoneMeta (code : String) (days : Option ℤ) : List String :=
  coded "Quote #" code ++
    match days with
    | some days => if 0 ≤ days then [toString days ++ " days since last contact"] else []
    | none => []

def taskText (lib : PyLibrary) (task : Task) : Except CalendarError (String × List String) :=
  let code := orElse task.shipmentCode ""
  match taskType lib task with
  | "phone" => .ok ("Follow up · " ++ orElse task.assigneeName "Unassigned", phoneMeta code task.daysSinceLastContact)
  | "payment" =>
    match fmtMoney (task.amountCents.getD 0) with
    | some amount => .ok ("Deposit due · " ++ amount, coded "Quote #" code ++ given task.customerName)
    | none => .error .overflowError
  | _ => .ok ("Follow up · " ++ orElse task.title "Follow up", coded "#" code ++ given task.customerName)

def taskRow (lib : PyLibrary) (tz : TimeZone) (task : Task) : Except CalendarError CalendarListItem := do
  let tag := (taskPillText.lookup (taskType lib task)).getD ""
  let cls := (taskPillClass.lookup (taskType lib task)).getD ""
  let (text, metaBits) ← taskText lib task
  let moment ← taskAt lib tz task
  let shipmentId ← validateOptional lib task.shipmentId
  let taskId ← validateOptional lib task.taskId
  return ⟨moment, text, joined metaBits, tag, cls, .task, shipmentId, taskId, none⟩

def followUpSummaryRow (lib : PyLibrary) (summary : FollowUpSummary) : Except CalendarError CalendarListItem := do
  let codes := (summary.codes.getD []).take 3
  let shipmentIds ← ((summary.shipmentIds.getD []).take 3).mapM (validateUuid lib)
  return ⟨none, toString (summary.count.getD 0) ++ " quotes need follow-up today",
    ", ".intercalate (codes.map (fun c => "Q-" ++ c)), "Follow up", "followup", .followUpSummary, none, none,
    if shipmentIds = [] then none else some shipmentIds⟩

structure CalendarRaw where
  dateLabel : Option String
  stops : List Stop
  tasks : List Task
  followUpSummary : Option FollowUpSummary

structure DashboardCalendarResponse where
  dateLabel : String
  items : List CalendarListItem

def CalendarListItem.sortKey (i : CalendarListItem) : DateTime := i.at_.getD DateTime.maxUtc

def summaryRows (lib : PyLibrary) (raw : CalendarRaw) : Except CalendarError (List CalendarListItem) :=
  match raw.followUpSummary with
  | some summary => if 0 < summary.count.getD 0 then List.singleton <$> followUpSummaryRow lib summary else .ok []
  | none => .ok []

def shapeCalendar (lib : PyLibrary) (tz : TimeZone) (nowLabel : String) (raw : CalendarRaw) :
    Except CalendarError DashboardCalendarResponse := do
  let todayLabel := orElse raw.dateLabel nowLabel
  let stopRows ← raw.stops.mapM (stopRow lib)
  let taskRows ← raw.tasks.mapM (taskRow lib tz)
  match sortBy (fun a b => DateTime.less a.sortKey b.sortKey) (stopRows ++ taskRows) with
  | none => .error .typeError
  | some items =>
    let summary ← summaryRows lib raw
    return ⟨todayLabel, items ++ summary⟩

end TheCargo.Dashboard
