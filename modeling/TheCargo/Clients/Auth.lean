import TheCargo.Foundation.Collecting
import TheCargo.Foundation.Json
import TheCargo.Utils.Timezone

/-! The organizations whose own clock reads an hour, behind every business-hour sweep. -/

namespace TheCargo.Clients

open Foundation Utils

/-- `zoneInfo` is nothing for a name `ZoneInfo` raises for, and `repr` is of what is not a string. -/
structure Runtime where
  zoneInfo : String → Option ZoneInfo
  repr : Json → String

variable (lib : Runtime) (now : DateTime) (hour : ℤ) (weekday : Option ℤ)

def str : Json → String
  | .str s => s
  | v => lib.repr v

/-- `ZoneInfo(key)` -/
def zoneOf : Json → Option ZoneInfo
  | .str name => lib.zoneInfo name
  | _ => none

def tzName (org : Payload) : Json := (org.get? "timezone").getD .null

def readsHour (clock : DateTime) : Bool :=
  clock.hour = hour && (weekday.isNone || weekday = some clock.weekday)

/-- One round of the loop; nothing where it raises. -/
def visit (matched : Finset String) (org : Payload) : Option (Finset String) :=
  if (tzName org).truthy then do
    let zone ← zoneOf lib (tzName org)
    let clock ← zone.astimezone now
    if readsHour hour weekday clock then do
      let id ← org.get? "id"
      some (insert (str lib id) matched)
    else some matched
  else some matched

def orgIdsAtLocalHour (orgs : List Payload) : Option (Finset String) := orgs.foldlM (visit lib now hour weekday) ∅

def ValidTimezone (org : Payload) : Prop := (tzName org).truthy = true ∧ ∃ zone, zoneOf lib (tzName org) = some zone

def SweepsAll (orgs : List Payload) : Prop :=
  ∃ ids, orgIdsAtLocalHour lib now hour weekday orgs = some ids ∧
    (∀ id, id ∈ ids ↔ ∃ org ∈ orgs, ValidTimezone lib org ∧
      ∃ own, orgIdsAtLocalHour lib now hour weekday [org] = some own ∧ id ∈ own) ∧
    ∀ xs ys, orgs = xs ++ ys → ∃ p q, orgIdsAtLocalHour lib now hour weekday xs = some p ∧
      orgIdsAtLocalHour lib now hour weekday ys = some q ∧ ids = p ∪ q

def Readable (org : Payload) : Prop :=
  (tzName org).truthy = true → ∃ zone clock, zoneOf lib (tzName org) = some zone ∧ zone.astimezone now = some clock ∧
    (readsHour hour weekday clock = true → ∃ id, org.get? "id" = some id)

variable {lib now hour weekday} {org : Payload} {orgs : List Payload}

lemma visit_eq (matched : Finset String) (org : Payload) :
    visit lib now hour weekday matched org = (visit lib now hour weekday ∅ org).map (matched ∪ ·) := by
  simp only [visit]
  split
  · cases zoneOf lib (tzName org) with
    | none => rfl
    | some zone =>
      cases hclock : zone.astimezone now with
      | none => simp [hclock]
      | some clock =>
        simp only [Option.bind_eq_bind, Option.bind_some, hclock]
        split
        · cases org.get? "id" with
          | none => rfl
          | some id => simp
        · simp
  · simp

lemma orgIds_eq_collect (orgs : List Payload) :
    orgIdsAtLocalHour lib now hour weekday orgs = collect (visit lib now hour weekday ∅) orgs := by
  rw [orgIdsAtLocalHour, foldlM_eq_collect visit_eq]
  simp

lemma visit_isSome (org : Payload) :
    (∃ own, visit lib now hour weekday ∅ org = some own) ↔ Readable lib now hour weekday org := by
  by_cases htruthy : (tzName org).truthy = true
  · rw [visit, if_pos htruthy, Readable]
    cases hzone : zoneOf lib (tzName org) with
    | none => simp [htruthy]
    | some zone =>
      cases hclock : zone.astimezone now with
      | none => simp [htruthy, hclock]
      | some clock =>
        by_cases hreads : readsHour hour weekday clock = true
        · cases hid : org.get? "id" <;> simp [htruthy, hclock, hreads]
        · simp [htruthy, hclock, hreads]
  · rw [visit, if_neg htruthy]
    exact iff_of_true ⟨∅, rfl⟩ (fun h => absurd h htruthy)

lemma valid_of_visit {own : Finset String} {id : String} (h : visit lib now hour weekday ∅ org = some own)
    (hid : id ∈ own) : ValidTimezone lib org := by
  rw [visit] at h
  split at h
  · next htruthy =>
    obtain ⟨zone, hzone, _⟩ := Option.bind_eq_some_iff.mp h
    exact ⟨htruthy, zone, hzone⟩
  · obtain rfl := Option.some.inj h
    exact absurd hid (Finset.notMem_empty id)

theorem sweepsAll_iff (orgs : List Payload) :
    SweepsAll lib now hour weekday orgs ↔ ∀ org ∈ orgs, Readable lib now hour weekday org := by
  simp only [SweepsAll, orgIds_eq_collect, ← visit_isSome, ← collect_isSome]
  constructor
  · rintro ⟨ids, hids, _⟩
    exact ⟨ids, hids⟩
  · rintro ⟨ids, hids⟩
    refine ⟨ids, hids, fun id => ?_, fun xs ys happend => collect_append (happend ▸ hids)⟩
    rw [mem_collect hids]
    constructor
    · rintro ⟨org, horg, own, hown, hid⟩
      exact ⟨org, horg, valid_of_visit hown hid, own, (collect_singleton _ org).trans hown, hid⟩
    · rintro ⟨org, horg, _, own, hown, hid⟩
      exact ⟨org, horg, own, (collect_singleton _ org).symm.trans hown, hid⟩

/-- 2026-08-05 13:00 UTC -/
def morning : DateTime := ⟨63921531600000000, some 0, none, by decide, by decide⟩

def eastern : Runtime := ⟨fun name => if name = "America/New_York" then some newYork else none, fun _ => ""⟩

def inNewYork : Payload := ⟨[("id", .str "a"), ("timezone", .str "America/New_York")], by decide⟩

def misspelt : Payload := ⟨[("id", .str "b"), ("timezone", .str "America/NewYork")], by decide⟩

theorem sweepsAll_misspelt :
    orgIdsAtLocalHour eastern morning 9 none [inNewYork] = some {"a"} ∧
      ¬ SweepsAll eastern morning 9 none [inNewYork, misspelt] := by
  refine ⟨rfl, ?_⟩
  rintro ⟨ids, hids, _⟩
  have hraises : orgIdsAtLocalHour eastern morning 9 none [inNewYork, misspelt] = none := rfl
  rw [hraises] at hids
  cases hids

end TheCargo.Clients
