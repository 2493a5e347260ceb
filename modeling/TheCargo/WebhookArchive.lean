import Mathlib.Algebra.Group.Nat.Defs
import TheCargo.Foundation.Runs
import TheCargo.Foundation.Versions
import TheCargo.Models.Base

/-! Stamps on archived webhook events: a read of the newest row, and an insert of the row one version up. -/

namespace TheCargo.WebhookArchive

open Foundation Foundation.Runs Foundation.Versions Models

inductive Column
  | eventType
  | status
  | receivedAt
  | eventTime
  | processedAt
  | headers
  | body
  | bodySizeBytes
  | lastError
  | subscriptionId
  deriving DecidableEq

abbrev Column.Value : Column → Type
  | .eventType => Option String
  | .status => Option String
  | .receivedAt => Instant
  | .eventTime => Option Instant
  | .processedAt => Option Instant
  | .headers => Option Payload
  | .body => Json
  | .bodySizeBytes => Option ℕ
  | .lastError => Option String
  | .subscriptionId => Option String

-- JSON texts stand as the values they are read back as; instants are whole milliseconds.
abbrev Column.Stored : Column → Type
  | .eventType => String
  | .status => {s : String // s ≠ ""}
  | .receivedAt => ℤ
  | .eventTime => Option ℤ
  | .processedAt => Option ℤ
  | .headers => Payload
  | .body => {j : Json // j ≠ .null}
  | .bodySizeBytes => ℕ
  | .lastError => String
  | .subscriptionId => String

structure WebhookRow where
  source : String
  eventId : String
  organizationId : Option UUID
  column : (c : Column) → c.Value
  extra : Payload
  version : ℕ

structure StoredRow where
  source : String
  eventId : String
  organizationId : Option UUID
  column : (c : Column) → c.Stored
  extra : Payload
  version : ℕ

def Column.initial (now : Instant) : (c : Column) → c.Value
  | .eventType => some ""
  | .status => some "received"
  | .receivedAt => now
  | .eventTime => none
  | .processedAt => none
  | .headers => some Dict.empty
  | .body => .obj []
  | .bodySizeBytes => some 0
  | .lastError => none
  | .subscriptionId => none

def WebhookRow.init (source eventId : String) (now : Instant) : WebhookRow :=
  ⟨source, eventId, none, Column.initial now, Dict.empty, 1⟩

def toMillis (t : Instant) : ℤ := t / 1000

def ofMillis (n : ℤ) : Instant := 1000 * n

def statusOr (status : Option String) : {s : String // s ≠ ""} :=
  if h : status.getD "" = "" then ⟨"received", by decide⟩ else ⟨status.getD "", h⟩

def bodyOr : Json → {j : Json // j ≠ .null}
  | .null => ⟨.obj [], by simp⟩
  | .bool b => ⟨.bool b, by simp⟩
  | .int n => ⟨.int n, by simp⟩
  | .float q => ⟨.float q, by simp⟩
  | .str s => ⟨.str s, by simp⟩
  | .arr xs => ⟨.arr xs, by simp⟩
  | .obj fields => ⟨.obj fields, by simp⟩

def orNone (s : String) : Option String := if s = "" then none else some s

def Column.write : (c : Column) → c.Value → c.Stored
  | .eventType, v => Option.getD v ""
  | .status, v => statusOr v
  | .receivedAt, v => toMillis v
  | .eventTime, v => Option.map toMillis v
  | .processedAt, v => Option.map toMillis v
  | .headers, v => Option.getD v Dict.empty
  | .body, v => bodyOr v
  | .bodySizeBytes, v => Option.getD v 0
  | .lastError, v => Option.getD v ""
  | .subscriptionId, v => Option.getD v ""

def Column.read : (c : Column) → c.Stored → c.Value
  | .eventType, v => some v
  | .status, v => some v.val
  | .receivedAt, v => ofMillis v
  | .eventTime, v => Option.map ofMillis v
  | .processedAt, v => Option.map ofMillis v
  | .headers, v => some v
  | .body, v => v.val
  | .bodySizeBytes, v => some v
  | .lastError, v => orNone v
  | .subscriptionId, v => orNone v

def WebhookRow.values (row : WebhookRow) : StoredRow where
  source := row.source
  eventId := row.eventId
  organizationId := row.organizationId
  column c := c.write (row.column c)
  extra := row.extra
  version := row.version

def fromValues (row : StoredRow) : WebhookRow where
  source := row.source
  eventId := row.eventId
  organizationId := row.organizationId
  column c := c.read (row.column c)
  extra := row.extra
  version := row.version

def StoredRow.fits (row : StoredRow) : Bool := row.column .bodySizeBytes < 2 ^ 32 && row.version < 2 ^ 32

/-- A keyword argument of `stamp` or `restamp` beside those that their signatures name. -/
inductive Change
  | column (c : Column) (value : c.Value)
  | error (value : Option String)
  | extra (keys : Payload)
  | version (n : ℤ)
  | other (name : String)

/-- `_COLUMN_OF` -/
def Change.rename : Change → Change
  | .error value => .column .lastError value
  | ch => ch

def Change.inColumns : Change → Bool
  | .column _ _ => true
  | .extra _ => true
  | .version _ => true
  | _ => false

/-- `replace` is given it twice, or `WebhookRow` has no such field. -/
def Change.refused : Change → Bool
  | .column _ _ => false
  | .extra _ => false
  | _ => true

def Change.at (c : Column) : Change → Option c.Value
  | .column c' value => if h : c' = c then some (h ▸ value) else none
  | _ => none

def Change.extraKeys : Change → Option Payload
  | .extra keys => some keys
  | _ => none

def given (changes : List Change) (c : Column) : Option c.Value := changes.reverse.findSome? (Change.at c)

def extraOf (changes : List Change) : Payload := (changes.reverse.findSome? Change.extraKeys).getD Dict.empty

def WebhookRow.replaced (row : WebhookRow) (changes : List Change) : WebhookRow :=
  { row with
    column := fun c => (given changes c).getD (row.column c)
    extra := row.extra.merge (extraOf changes)
    version := row.version + 1 }

/-- `none` where it raises -/
def WebhookRow.changed (row : WebhookRow) (changes : List Change) : Option WebhookRow :=
  if changes.any Change.refused then none else some (row.replaced changes)

inductive OrgRef
  | uuid (id : UUID)
  | str (s : String)

def uuidOrNone : OrgRef → Option UUID
  | .uuid id => some id
  | .str s => if s = "" then none else UUID.parse s

structure Call where
  source : Option String
  eventId : String
  organizationId : Option OrgRef
  row : Option WebhookRow
  restamps : Bool
  kwargs : List Change

def Call.changes (call : Call) : List Change :=
  if call.restamps then call.kwargs else (call.kwargs.map Change.rename).filter Change.inColumns

/-- The `WHERE` clause of `fetch`; nothing equals `NULL`. -/
def Call.selects (call : Call) (row : StoredRow) : Bool :=
  row.eventId = call.eventId && call.source.all (fun source => row.source = source) &&
    call.organizationId.all (fun org => (uuidOrNone org).any (fun id => row.organizationId = some id))

/-- Where a call stands; `landed` tells whether its insert took effect. -/
inductive Phase
  | fetching
  | holding (row : WebhookRow)
  | returned (updated : WebhookRow) (landed : Bool)
  | returnedNone
  | raised

structure Task where
  call : Call
  phase : Phase

def Call.start (call : Call) : Task :=
  ⟨call, match call.row with
    | some row => .holding row
    | none => .fetching⟩

structure World where
  table : List StoredRow
  tasks : List Task

def World.advance (w : World) (i : ℕ) (task : Task) (phase : Phase) : World :=
  { w with tasks := w.tasks.set i { task with phase := phase } }

inductive Event
  | fetch (i j : ℕ)
  | fetchNone (i : ℕ)
  | fails (i : ℕ)
  | insert (i : ℕ) (lands : Bool)
  | merge (j k : ℕ)
  deriving DecidableEq

def sameKey (a b : StoredRow) : Bool :=
  a.source = b.source && a.column .receivedAt = b.column .receivedAt && a.eventId = b.eventId

def World.insert (w : World) (i : ℕ) (task : Task) (held : WebhookRow) (lands : Bool) : Option World :=
  match held.changed task.call.changes with
  | none => some (w.advance i task .raised)
  | some updated =>
    if lands then
      if updated.values.fits then
        some { w.advance i task (.returned updated true) with table := w.table ++ [updated.values] }
      else none
    else some (w.advance i task (.returned updated false))

def step (w : World) : Event → Option World
  | .fetch i j =>
    match w.tasks[i]?, w.table[j]? with
    | some task, some row =>
      match task.phase with
      | .fetching =>
        if task.call.selects row ∧ ∀ r ∈ w.table, task.call.selects r → r.version ≤ row.version then
          some (w.advance i task (.holding (fromValues row)))
        else none
      | _ => none
    | _, _ => none
  | .fetchNone i =>
    match w.tasks[i]? with
    | some task =>
      match task.phase with
      | .fetching =>
        if ∀ r ∈ w.table, task.call.selects r = false then some (w.advance i task .returnedNone) else none
      | _ => none
    | none => none
  | .fails i =>
    match w.tasks[i]? with
    | some task =>
      match task.phase with
      | .fetching => some (w.advance i task .raised)
      | _ => none
    | none => none
  | .insert i lands =>
    match w.tasks[i]? with
    | some task =>
      match task.phase with
      | .holding held => w.insert i task held lands
      | _ => none
    | none => none
  -- One row of two with equal sorting keys goes, never the one with the larger version.
  | .merge j k =>
    match w.table[j]?, w.table[k]? with
    | some a, some b =>
      if j ≠ k ∧ sameKey a b ∧ a.version ≤ b.version then some { w with table := w.table.eraseIdx j } else none
    | _, _ => none

def StoredRow.isOf (source eventId : String) (row : StoredRow) : Prop := row.source = source ∧ row.eventId = eventId

instance (source eventId : String) : DecidablePred (StoredRow.isOf source eventId) :=
  fun row => inferInstanceAs (Decidable (row.source = source ∧ row.eventId = eventId))

abbrev Newest (source eventId : String) (table : List StoredRow) (row : StoredRow) : Prop :=
  Highest StoredRow.version (StoredRow.isOf source eventId) table row

structure StoredRow.Carries (row : StoredRow) (call : Call) : Prop where
  columns : ∀ c value, given call.changes c = some value → row.column c = c.write value
  extra : ∀ key j, (extraOf call.changes).get? key = some j → row.extra.get? key = some j

structure Apart (a b : Call) : Prop where
  columns : ∀ c, given a.changes c = none ∨ given b.changes c = none
  extra : ∀ key, (extraOf a.changes).get? key = none ∨ (extraOf b.changes).get? key = none

def Task.Returned (task : Task) : Prop := ∃ updated landed, task.phase = .returned updated landed

def Task.Landed (task : Task) : Prop := ∃ updated, task.phase = .returned updated true

def World.start (table : List StoredRow) (calls : List Call) : World := ⟨table, calls.map Call.start⟩

def OverwritesNewest (source eventId : String) (w : World) : Event → Prop
  | .insert i true => ∀ task held, w.tasks[i]? = some task → task.phase = .holding held →
      Newest source eventId w.table held.values
  | _ => True

structure Inv (source eventId : String) (w : World) : Prop where
  own : (w.tasks.map Task.call).Pairwise Apart
  stored : ∃ row ∈ w.table, row.isOf source eventId
  carries : ∀ row, Newest source eventId w.table row → ∀ task ∈ w.tasks, task.Landed → row.Carries task.call

lemma Column.write_read (c : Column) (v : c.Stored) : c.write (c.read v) = v := by
  have hmillis : ∀ n : ℤ, toMillis (ofMillis n) = n := fun n => by
    rw [toMillis, ofMillis, Int.mul_ediv_cancel_left n (by decide)]
  have horNone : ∀ s : String, (orNone s).getD "" = s := fun s => by
    rw [orNone]
    split
    · rename_i hs
      exact hs.symm
    · rfl
  cases c with
  | eventType => rfl
  | status => exact dif_neg v.property
  | receivedAt => exact hmillis v
  | eventTime => cases v with
    | none => rfl
    | some n => exact congrArg some (hmillis n)
  | processedAt => cases v with
    | none => rfl
    | some n => exact congrArg some (hmillis n)
  | headers => rfl
  | body =>
    obtain ⟨j, hj⟩ := v
    cases j with
    | null => exact absurd rfl hj
    | _ => rfl
  | bodySizeBytes => rfl
  | lastError => exact horNone v
  | subscriptionId => exact horNone v

lemma values_fromValues (row : StoredRow) : (fromValues row).values = row := by
  have hcolumn : (fun c => Column.write c (Column.read c (row.column c))) = row.column :=
    funext (fun c => c.write_read (row.column c))
  rw [WebhookRow.values]
  simp only [fromValues, hcolumn]

lemma Apart.symm {a b : Call} (h : Apart a b) : Apart b a :=
  ⟨fun c => (h.columns c).symm, fun key => (h.extra key).symm⟩

variable {source eventId : String} {w t : World} {i : ℕ} {task : Task} {held updated : WebhookRow} {phase : Phase}

lemma changed_eq {changes : List Change} (h : held.changed changes = some updated) :
    updated = held.replaced changes := by
  rw [WebhookRow.changed] at h
  split at h
  · cases h
  · exact (Option.some.inj h).symm

lemma changed_carries {call : Call} (h : held.changed call.changes = some updated) : updated.values.Carries call := by
  obtain rfl := changed_eq h
  constructor
  · intro c value hc
    simp only [WebhookRow.values, WebhookRow.replaced, hc, Option.getD_some]
  · intro key j hj
    simp only [WebhookRow.values, WebhookRow.replaced, Dict.get?_merge, hj, Option.some_or]

lemma changed_keeps {call other : Call} (h : held.changed call.changes = some updated) (hapart : Apart call other)
    (hcarries : held.values.Carries other) : updated.values.Carries other := by
  obtain rfl := changed_eq h
  constructor
  · intro c value hc
    have hnone : given call.changes c = none := by
      rcases hapart.columns c with hn | hn
      · exact hn
      · rw [hc] at hn
        cases hn
    simp only [WebhookRow.values, WebhookRow.replaced, hnone, Option.getD_none]
    exact hcarries.columns c value hc
  · intro key j hj
    have hnone : (extraOf call.changes).get? key = none := by
      rcases hapart.extra key with hn | hn
      · exact hn
      · rw [hj] at hn
        cases hn
    simp only [WebhookRow.values, WebhookRow.replaced, Dict.get?_merge, hnone, Option.none_or]
    exact hcarries.extra key j hj

inductive Effect (w : World) (e : Event) (t : World) : Prop
  | quiet (i : ℕ) (task : Task) (phase : Phase) (get : w.tasks[i]? = some task)
      (landed : ∀ updated, phase ≠ .returned updated true) (eq : t = w.advance i task phase)
  | lands (i : ℕ) (task : Task) (held updated : WebhookRow) (event : e = .insert i true) (get : w.tasks[i]? = some task)
      (holds : task.phase = .holding held) (changed : held.changed task.call.changes = some updated)
      (eq : t = { w.advance i task (.returned updated true) with table := w.table ++ [updated.values] })
  | merges (j k : ℕ) (a b : StoredRow) (dropped : w.table[j]? = some a) (kept : w.table[k]? = some b) (ne : j ≠ k)
      (key : sameKey a b = true) (le : a.version ≤ b.version) (eq : t = { w with table := w.table.eraseIdx j })

lemma insert_effect {lands : Bool} (hget : w.tasks[i]? = some task) (hphase : task.phase = .holding held)
    (h : w.insert i task held lands = some t) : Effect w (.insert i lands) t := by
  rw [World.insert] at h
  split at h
  · exact .quiet i task .raised hget (by simp) (Option.some.inj h).symm
  · rename_i updated hchanged
    split at h
    · rename_i hlands
      subst hlands
      split at h
      · exact .lands i task held updated rfl hget hphase hchanged (Option.some.inj h).symm
      · cases h
    · exact .quiet i task (.returned updated false) hget (by simp) (Option.some.inj h).symm

lemma step_effect {e : Event} (h : step w e = some t) : Effect w e t := by
  cases e with
  | fetch i j =>
    simp only [step] at h
    split at h
    · rename_i task row hget _
      split at h
      · split at h
        · exact .quiet i task _ hget (by simp) (Option.some.inj h).symm
        · cases h
      · cases h
    · cases h
  | fetchNone i =>
    simp only [step] at h
    split at h
    · rename_i task hget
      split at h
      · split at h
        · exact .quiet i task _ hget (by simp) (Option.some.inj h).symm
        · cases h
      · cases h
    · cases h
  | fails i =>
    simp only [step] at h
    split at h
    · rename_i task hget
      split at h
      · exact .quiet i task _ hget (by simp) (Option.some.inj h).symm
      · cases h
    · cases h
  | insert i lands =>
    simp only [step] at h
    split at h
    · rename_i task hget
      split at h
      · rename_i held hphase
        exact insert_effect hget hphase h
      · cases h
    · cases h
  | merge j k =>
    simp only [step] at h
    split at h
    · rename_i a b ha hb
      split at h
      · rename_i hmerge
        exact .merges j k a b ha hb hmerge.1 hmerge.2.1 hmerge.2.2 (Option.some.inj h).symm
      · cases h
    · cases h

lemma advance_calls (hget : w.tasks[i]? = some task) :
    (w.advance i task phase).tasks.map Task.call = w.tasks.map Task.call := by
  obtain ⟨hlt, rfl⟩ := List.getElem?_eq_some_iff.mp hget
  have hlt' : i < (w.tasks.map Task.call).length := by rw [List.length_map]; exact hlt
  have hself := List.set_getElem_self hlt'
  rw [List.getElem_map] at hself
  rw [World.advance, List.map_set]
  exact hself

lemma advance_mem {other : Task} (hmem : other ∈ (w.advance i task phase).tasks) :
    other = { task with phase := phase } ∨ ∃ k, k ≠ i ∧ w.tasks[k]? = some other := by
  obtain ⟨k, hk⟩ := List.mem_iff_getElem?.mp hmem
  rw [World.advance, List.getElem?_set] at hk
  split at hk
  · split at hk
    · exact Or.inl (Option.some.inj hk).symm
    · cases hk
  · rename_i hne
    exact Or.inr ⟨k, fun he => hne he.symm, hk⟩

lemma Inv.apart (hinv : Inv source eventId w) {k : ℕ} {other : Task} (hi : w.tasks[i]? = some task)
    (hk : w.tasks[k]? = some other) (hne : k ≠ i) : Apart task.call other.call := by
  have hci : (w.tasks.map Task.call)[i]? = some task.call := by rw [List.getElem?_map, hi]; rfl
  have hck : (w.tasks.map Task.call)[k]? = some other.call := by rw [List.getElem?_map, hk]; rfl
  obtain ⟨hilt, hieq⟩ := List.getElem?_eq_some_iff.mp hci
  obtain ⟨hklt, hkeq⟩ := List.getElem?_eq_some_iff.mp hck
  rw [← hieq, ← hkeq]
  rcases Nat.lt_or_gt_of_ne hne with hlt | hgt
  · exact (List.pairwise_iff_getElem.mp hinv.own k i hklt hilt hlt).symm
  · exact List.pairwise_iff_getElem.mp hinv.own i k hilt hklt hgt

lemma Inv.quiet (hinv : Inv source eventId w) (hget : w.tasks[i]? = some task)
    (hlanded : ∀ updated, phase ≠ .returned updated true) : Inv source eventId (w.advance i task phase) := by
  refine ⟨?_, hinv.stored, ?_⟩
  · rw [advance_calls hget]
    exact hinv.own
  · rintro row hrow other hmem ⟨updated, hother⟩
    rcases advance_mem hmem with rfl | ⟨k, _, hk⟩
    · exact absurd hother (hlanded updated)
    · exact hinv.carries row hrow other (List.mem_of_getElem? hk) ⟨updated, hother⟩

lemma Inv.lands (hinv : Inv source eventId w) (hget : w.tasks[i]? = some task)
    (hchanged : held.changed task.call.changes = some updated) (hnew : Newest source eventId w.table held.values) :
    Inv source eventId
      { w.advance i task (.returned updated true) with table := w.table ++ [updated.values] } := by
  refine ⟨?_, ?_, ?_⟩
  · have hcalls : (w.advance i task (.returned updated true)).tasks.map Task.call = w.tasks.map Task.call :=
      advance_calls hget
    exact hcalls ▸ hinv.own
  · obtain ⟨row, hrow, hof⟩ := hinv.stored
    exact ⟨row, List.mem_append_left _ hrow, hof⟩
  · intro row hrow other hmem hlanded
    have hof : updated.values.isOf source eventId := by
      obtain rfl := changed_eq hchanged
      exact hnew.holds
    have hlt : held.values.version < updated.values.version := by
      obtain rfl := changed_eq hchanged
      exact Nat.lt_succ_self _
    have hlast : Newest source eventId (w.table ++ [updated.values]) row ↔ row = updated.values :=
      highest_concat hof (fun r hr hp => (hnew.le r hr hp).trans_lt hlt)
    obtain rfl := hlast.mp hrow
    rcases advance_mem hmem with rfl | ⟨k, hne, hk⟩
    · exact changed_carries hchanged
    · have hcarries := hinv.carries held.values hnew other (List.mem_of_getElem? hk) hlanded
      exact changed_keeps hchanged (hinv.apart hget hk hne) hcarries

lemma sameKey_isOf {a b : StoredRow} (h : sameKey a b = true) (ha : a.isOf source eventId) : b.isOf source eventId := by
  simp only [sameKey, Bool.and_eq_true, decide_eq_true_eq] at h
  obtain ⟨⟨hsource, _⟩, hid⟩ := h
  exact ⟨hsource ▸ ha.1, hid ▸ ha.2⟩

lemma Inv.merges (hinv : Inv source eventId w) {j k : ℕ} {a b : StoredRow} (ha : w.table[j]? = some a)
    (hb : w.table[k]? = some b) (hne : j ≠ k) (hkey : sameKey a b = true) (hle : a.version ≤ b.version) :
    Inv source eventId { w with table := w.table.eraseIdx j } := by
  refine ⟨hinv.own, ?_, ?_⟩
  · obtain ⟨row, hrow, hof⟩ := hinv.stored
    rcases mem_eraseIdx_or ha hrow with rfl | hmem
    · exact ⟨b, List.mem_eraseIdx_iff_getElem?.mpr ⟨k, hne.symm, hb⟩, sameKey_isOf hkey hof⟩
    · exact ⟨row, hmem, hof⟩
  · intro row hrow
    exact hinv.carries row (hrow.of_eraseIdx ha hb hne (sameKey_isOf hkey) hle)

lemma inv_step {e : Event} (hinv : Inv source eventId w) (hover : OverwritesNewest source eventId w e)
    (h : step w e = some t) : Inv source eventId t := by
  cases step_effect h with
  | quiet i task phase hget hlanded heq => exact heq ▸ hinv.quiet hget hlanded
  | lands i task held updated hevent hget hholds hchanged heq =>
    subst hevent
    exact heq ▸ hinv.lands hget hchanged (hover task held hget hholds)
  | merges j k a b ha hb hne hkey hle heq => exact heq ▸ hinv.merges ha hb hne hkey hle

lemma start_inv {table : List StoredRow} {calls : List Call} (hstored : ∃ row ∈ table, row.isOf source eventId)
    (hown : calls.Pairwise Apart) : Inv source eventId (World.start table calls) := by
  refine ⟨?_, hstored, ?_⟩
  · have hcalls : (calls.map Call.start).map Task.call = calls := by
      rw [List.map_map]
      exact List.map_id calls
    exact hcalls.symm ▸ hown
  · rintro row _ task hmem ⟨updated, hphase⟩
    obtain ⟨call, _, rfl⟩ := List.mem_map.mp hmem
    simp only [Call.start] at hphase
    split at hphase <;> cases hphase

theorem sequential_stamps_survive {table : List StoredRow} {calls : List Call} {events : List Event}
    (hstored : ∃ row ∈ table, row.isOf source eventId) (hown : calls.Pairwise Apart)
    (hover : Along step (OverwritesNewest source eventId) (World.start table calls) events)
    (h : run step (World.start table calls) events = some t) :
    (∃ row, Newest source eventId t.table row) ∧
      ∀ row, Newest source eventId t.table row → ∀ task ∈ t.tasks, task.Landed → row.Carries task.call := by
  have hinv : Inv source eventId t :=
    run_along (fun _ _ _ hinv hover h => inv_step hinv hover h) (start_inv hstored hown) hover h
  obtain ⟨row, hrow, hof⟩ := hinv.stored
  exact ⟨exists_highest hrow hof, hinv.carries⟩

def received : WebhookRow := .init "stripe" "evt_1" 0

def stampCall (kwargs : List Change) (row : Option WebhookRow) : Call :=
  ⟨some "stripe", "evt_1", none, row, false, kwargs⟩

def processed : List Change := [.column .status (some "processed")]

def failed : List Change := [.error (some "timeout")]

lemma stamps_apart (row row' : Option WebhookRow) :
    [stampCall processed row, stampCall failed row'].Pairwise Apart := by
  refine .cons ?_ (.cons (by simp) .nil)
  intro b hb
  obtain rfl := List.mem_singleton.mp hb
  refine ⟨?_, fun key => Or.inl rfl⟩
  intro c
  cases c with
  | status => exact Or.inr rfl
  | _ => exact Or.inl rfl

theorem sequential_stamps_survive_two :
    ∃ t, run step (World.start [received.values] [stampCall processed (some received), stampCall failed none])
        [.insert 0 true, .fetch 1 1, .insert 1 true] = some t ∧
      (∃ row, Newest "stripe" "evt_1" t.table row) ∧
      ∀ row, Newest "stripe" "evt_1" t.table row → ∀ task ∈ t.tasks, task.Landed → row.Carries task.call := by
  have hover : Along step (OverwritesNewest "stripe" "evt_1")
      (World.start [received.values] [stampCall processed (some received), stampCall failed none])
      [.insert 0 true, .fetch 1 1, .insert 1 true] := by
    refine ⟨?_, ?_⟩
    · intro task held htask hphase
      obtain rfl := Option.some.inj htask
      obtain rfl := Phase.holding.inj hphase
      exact ⟨by simp [World.start], ⟨rfl, rfl⟩, by simp [World.start]⟩
    intro u hu
    obtain rfl := Option.some.inj hu
    refine ⟨trivial, ?_⟩
    intro u hu
    obtain rfl := Option.some.inj hu
    refine ⟨?_, fun _ _ => trivial⟩
    intro task held htask hphase
    obtain rfl := Option.some.inj htask
    obtain rfl := Phase.holding.inj hphase
    rw [values_fromValues]
    refine ⟨List.mem_append_right _ (List.mem_singleton_self _), ⟨rfl, rfl⟩, ?_⟩
    intro row hrow _
    rcases List.mem_append.mp hrow with hrow | hrow
    · obtain rfl := List.mem_singleton.mp hrow
      decide
    · exact (congrArg StoredRow.version (List.mem_singleton.mp hrow)).le
  refine ⟨_, rfl, sequential_stamps_survive ⟨received.values, by simp, rfl, rfl⟩ (stamps_apart _ _) hover rfl⟩

def Loses (w : World) (events : List Event) : Prop :=
  ∃ t, run step w events = some t ∧ ∃ row, (∀ r, Newest "stripe" "evt_1" t.table r ↔ r = row) ∧
    ∃ task ∈ t.tasks, task.Returned ∧ ¬ row.Carries task.call

theorem stamps_are_lost :
    [stampCall processed none, stampCall failed none].Pairwise Apart ∧
    Loses (World.start [received.values] [stampCall processed none, stampCall failed none])
      [.fetch 0 0, .fetch 1 0, .insert 0 true, .insert 1 true, .merge 1 2] ∧
    Loses (World.start [received.values] [stampCall processed none, stampCall failed (some received)])
      [.fetch 0 0, .insert 0 true, .insert 1 true, .merge 1 2] ∧
    Loses (World.start [received.values] [stampCall processed none]) [.fetch 0 0, .insert 0 false] := by
  have hlost : ∀ {row : StoredRow} {call : Call}, given call.changes .status = some (some "processed") →
      row.column .status = statusOr (some "received") → ¬ row.Carries call := by
    intro row call hgiven hrow hcarries
    have hstatus := (hcarries.columns .status _ hgiven).symm.trans hrow
    exact absurd (congrArg Subtype.val hstatus) (by decide)
  have hnewest : ∀ {a b : StoredRow}, b.isOf "stripe" "evt_1" → a.version < b.version →
      ∀ r, Newest "stripe" "evt_1" [a, b] r ↔ r = b := by
    intro a b hb hlt r
    have hlast : Newest "stripe" "evt_1" ([a] ++ [b]) r ↔ r = b :=
      highest_concat hb (fun x hx _ => List.mem_singleton.mp hx ▸ hlt)
    exact hlast
  refine ⟨stamps_apart _ _, ?_, ?_, ?_⟩
  · refine ⟨_, rfl, ((fromValues received.values).replaced (stampCall failed none).changes).values, ?_, _,
      List.mem_cons_self, ⟨_, _, rfl⟩, hlost rfl rfl⟩
    exact hnewest ⟨rfl, rfl⟩ (by decide)
  · refine ⟨_, rfl, (received.replaced (stampCall failed (some received)).changes).values, ?_, _,
      List.mem_cons_self, ⟨_, _, rfl⟩, hlost rfl rfl⟩
    exact hnewest ⟨rfl, rfl⟩ (by decide)
  · refine ⟨_, rfl, received.values, ?_, _, List.mem_cons_self, ⟨_, _, rfl⟩, hlost rfl rfl⟩
    intro r
    have hlast : Newest "stripe" "evt_1" ([] ++ [received.values]) r ↔ r = received.values :=
      highest_concat ⟨rfl, rfl⟩ (by simp)
    exact hlast

end TheCargo.WebhookArchive
