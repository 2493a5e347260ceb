import TheCargo.Foundation.Replacing
import TheCargo.WebhookArchive

/-! The webhook table as a map from events to rows: what is stored, stamped and purged, whatever is merged meanwhile. -/

namespace TheCargo.WebhookTable

open Foundation Foundation.Runs Foundation.Versions Foundation.Replacing Models
open WebhookArchive hiding World Event step Inv

-- What an insert has written is in the buffer until it can be read.
structure World where
  table : List StoredRow
  buffer : List StoredRow

inductive Op
  | store (row : WebhookRow) (lands : Bool)
  -- Without a row in the call it is the one at `j` that is read.
  | stamp (call : Call) (j : ℕ) (lands : Bool)
  | purge (org : OrgRef)
  | flush (n : ℕ)
  | merge (j k : ℕ)

def start : World := ⟨[], []⟩

def World.insert (w : World) (row : WebhookRow) (lands : Bool) : Option World :=
  if lands then
    if row.values.fits then some { w with buffer := w.buffer ++ [row.values] } else none
  else some w

def World.restamp (w : World) (held : WebhookRow) (call : Call) (lands : Bool) : Option World :=
  match held.changed call.changes with
  | none => some w
  | some updated => w.insert updated lands

def belongs (org : OrgRef) (row : StoredRow) : Bool := (uuidOrNone org).any (fun id => row.organizationId = some id)

def step (w : World) : Op → Option World
  | .store row lands => w.insert row lands
  | .stamp call j lands =>
    match call.row with
    | some held => w.restamp held call lands
    | none =>
      match w.table[j]? with
      | some row =>
        if call.selects row ∧ ∀ r ∈ w.table, call.selects r → r.version ≤ row.version then
          w.restamp (fromValues row) call lands
        else none
      | none => if ∀ r ∈ w.table, call.selects r = false then some w else none
  | .purge org => some { w with table := w.table.filter (fun row => !belongs org row) }
  | .flush n => some ⟨w.table ++ w.buffer.take n, w.buffer.drop n⟩
  | .merge j k =>
    match w.table[j]?, w.table[k]? with
    | some a, some b =>
      if j ≠ k ∧ sameKey a b ∧ a.version ≤ b.version then some { w with table := w.table.eraseIdx j } else none
    | _, _ => none

def sortingKey (row : StoredRow) : String × ℤ × String := (row.source, row.column .receivedAt, row.eventId)

def query (w : World) : List StoredRow := final sortingKey StoredRow.version w.table

def count (w : World) (org : OrgRef) : ℕ := ((query w).filter (belongs org)).length

def event (row : StoredRow) : String × String := (row.source, row.eventId)

-- The archive is what the table stands for: one row to an event.
def stamped (call : Call) (row : StoredRow) : StoredRow :=
  (((fromValues row).changed call.changes).map WebhookRow.values).getD row

def about (call : Call) (row : StoredRow) : Bool :=
  match call.row with
  | some held => event row = event held.values
  | none => call.selects row

def record (archive : List StoredRow) : Op → List StoredRow
  | .store row true => archive ++ [row.values]
  | .stamp call _ true => archive.map (fun row => if about call row then stamped call row else row)
  | .purge org => archive.filter (fun row => !belongs org row)
  | _ => archive

def both (s : World × List StoredRow) (op : Op) : Option (World × List StoredRow) :=
  (step s.1 op).map (fun w => (w, record s.2 op))

def Orderly (s : World × List StoredRow) : Op → Prop
  | .store row true => ∀ r ∈ s.2, event r ≠ event row.values
  | .stamp call _ true => given call.changes .receivedAt = none ∧
      match call.row with
      | some held => held.values ∈ s.2
      | none => (∀ a ∈ s.2, ∀ b ∈ s.2, call.selects a → call.selects b → a = b) ∧
          ∀ r ∈ s.1.buffer, call.selects r = false
  | .purge org => ∀ r ∈ s.1.buffer, belongs org r = false
  | _ => True

structure Behind (a r : StoredRow) : Prop where
  event : event r = event a
  organizationId : r.organizationId = a.organizationId
  receivedAt : r.column .receivedAt = a.column .receivedAt
  version : r.version ≤ a.version
  last : a.version ≤ r.version → r = a

structure Inv (s : World × List StoredRow) : Prop where
  backed : ∀ r ∈ s.1.table ++ s.1.buffer, ∃ a ∈ s.2, Behind a r
  stored : s.2 ⊆ s.1.table ++ s.1.buffer
  events : (s.2.map event).Nodup

variable {w t : World} {archive : List StoredRow} {a b r : StoredRow} {call : Call} {held updated : WebhookRow}

lemma behind_self (a : StoredRow) : Behind a a := ⟨rfl, rfl, rfl, Nat.le_refl _, fun _ => rfl⟩

lemma Behind.trans_lt (h : Behind a r) (hab : Behind b a) (hlt : a.version < b.version) : Behind b r where
  event := h.event.trans hab.event
  organizationId := h.organizationId.trans hab.organizationId
  receivedAt := h.receivedAt.trans hab.receivedAt
  version := h.version.trans hab.version
  last hle := absurd (hle.trans h.version) (Nat.not_le.mpr hlt)

lemma Behind.sortingKey_eq (h : Behind a r) : sortingKey r = sortingKey a := by
  obtain ⟨hsource, hid⟩ := Prod.mk.inj h.event
  rw [sortingKey, sortingKey, hsource, hid, h.receivedAt]

lemma Behind.selects_eq (h : Behind a r) : call.selects r = call.selects a := by
  obtain ⟨hsource, hid⟩ := Prod.mk.inj h.event
  simp only [Call.selects, hsource, hid, h.organizationId]

lemma Behind.belongs_eq (h : Behind a r) (org : OrgRef) : belongs org r = belongs org a := by
  rw [belongs, belongs, h.organizationId]

lemma event_of_sameKey (h : sameKey a b = true) : event a = event b := by
  simp only [sameKey, Bool.and_eq_true, decide_eq_true_eq] at h
  exact Prod.ext h.1.1 h.2

lemma Inv.unique (h : Inv (w, archive)) (ha : a ∈ archive) (hb : b ∈ archive) (he : event a = event b) : a = b :=
  List.inj_on_of_nodup_map h.events ha hb he

lemma inv_start : Inv (start, []) := ⟨nofun, List.nil_subset _, List.nodup_nil⟩

lemma inv_store (h : Inv (w, archive)) {row : StoredRow} (hnew : ∀ r ∈ archive, event r ≠ event row) :
    Inv ({ w with buffer := w.buffer ++ [row] }, archive ++ [row]) := by
  refine ⟨?_, ?_, ?_⟩
  · intro r hr
    rw [← List.append_assoc] at hr
    rcases List.mem_append.mp hr with hr | hr
    · obtain ⟨a, ha, hbehind⟩ := h.backed r hr
      exact ⟨a, List.mem_append_left _ ha, hbehind⟩
    · obtain rfl := List.mem_singleton.mp hr
      exact ⟨r, List.mem_append_right _ hr, behind_self r⟩
  · rw [← List.append_assoc]
    exact List.append_subset.mpr
      ⟨fun a ha => List.mem_append_left _ (h.stored ha), fun a ha => List.mem_append_right _ ha⟩
  · rw [List.map_append, List.map_singleton, List.nodup_append]
    refine ⟨h.events, List.nodup_singleton _, ?_⟩
    intro e he e' he'
    obtain ⟨r, hr, rfl⟩ := List.mem_map.mp he
    obtain rfl := List.mem_singleton.mp he'
    exact hnew r hr

lemma values_replaced (held : WebhookRow) (changes : List Change) :
    (held.replaced changes).values = ((fromValues held.values).replaced changes).values := by
  have hcolumn : ∀ c : WebhookArchive.Column, c.write ((given changes c).getD (held.column c)) =
      c.write ((given changes c).getD (c.read (c.write (held.column c)))) := by
    intro c
    cases given changes c with
    | none => exact (c.write_read _).symm
    | some value => rfl
  simp only [WebhookRow.values, WebhookRow.replaced, fromValues, hcolumn]

lemma stamped_eq (hchanged : held.changed call.changes = some updated) : stamped call held.values = updated.values := by
  obtain rfl := changed_eq hchanged
  have hok : call.changes.any Change.refused = false := by
    by_contra hrefused
    rw [WebhookRow.changed, if_pos (Bool.not_eq_false _ ▸ hrefused)] at hchanged
    cases hchanged
  rw [values_replaced, stamped, WebhookRow.changed, hok]
  rfl

lemma stamped_refused (hchanged : held.changed call.changes = none) (row : StoredRow) : stamped call row = row := by
  have hrefused : call.changes.any Change.refused = true := by
    by_contra hok
    rw [WebhookRow.changed, if_neg hok] at hchanged
    cases hchanged
  rw [stamped, WebhookRow.changed, hrefused]
  rfl

lemma stamped_behind (hchanged : held.changed call.changes = some updated)
    (hreceived : given call.changes .receivedAt = none) :
    Behind updated.values held.values ∧ held.values.version < updated.values.version := by
  obtain rfl := changed_eq hchanged
  have hlt : held.values.version < (held.replaced call.changes).values.version := Nat.lt_succ_self _
  refine ⟨⟨rfl, rfl, ?_, hlt.le, fun hle => absurd hle (Nat.not_le.mpr hlt)⟩, hlt⟩
  simp only [WebhookRow.values, WebhookRow.replaced, hreceived, Option.getD_none]

lemma inv_stamp (h : Inv (w, archive)) (ha : held.values ∈ archive)
    (habout : ∀ r ∈ archive, about call r = true ↔ r = held.values)
    (hchanged : held.changed call.changes = some updated) (hreceived : given call.changes .receivedAt = none) :
    Inv ({ w with buffer := w.buffer ++ [updated.values] },
      archive.map (fun row => if about call row then stamped call row else row)) := by
  obtain ⟨hbehind, hlt⟩ := stamped_behind hchanged hreceived
  have hheld : (if about call held.values then stamped call held.values else held.values) = updated.values := by
    rw [if_pos ((habout _ ha).mpr rfl), stamped_eq hchanged]
  have hother : ∀ r ∈ archive, r ≠ held.values → (if about call r then stamped call r else r) = r := by
    intro r hr hne
    exact if_neg (fun hr' => hne ((habout r hr).mp hr'))
  have hupdated : updated.values ∈ archive.map (fun row => if about call row then stamped call row else row) :=
    List.mem_map.mpr ⟨_, ha, hheld⟩
  refine ⟨?_, ?_, ?_⟩
  · intro r hr
    rw [← List.append_assoc] at hr
    rcases List.mem_append.mp hr with hr | hr
    · obtain ⟨a, haa, hra⟩ := h.backed r hr
      by_cases hsame : a = held.values
      · subst hsame
        exact ⟨_, hupdated, hra.trans_lt hbehind hlt⟩
      · exact ⟨a, List.mem_map.mpr ⟨a, haa, hother a haa hsame⟩, hra⟩
    · obtain rfl := List.mem_singleton.mp hr
      exact ⟨_, hupdated, behind_self _⟩
  · intro r hr
    rw [← List.append_assoc]
    obtain ⟨a, haa, rfl⟩ := List.mem_map.mp hr
    by_cases hsame : a = held.values
    · subst hsame
      rw [hheld]
      exact List.mem_append_right _ (List.mem_singleton_self _)
    · rw [hother a haa hsame]
      exact List.mem_append_left _ (h.stored haa)
  · have hevents : (archive.map (fun row => if about call row then stamped call row else row)).map event =
        archive.map event := by
      rw [List.map_map]
      refine List.map_congr_left (fun r hr => ?_)
      rw [Function.comp_apply]
      by_cases hsame : r = held.values
      · subst hsame
        rw [hheld]
        exact hbehind.event.symm
      · rw [hother r hr hsame]
    rw [hevents]
    exact h.events

lemma inv_quiet (h : Inv (w, archive)) (hkeeps : ∀ r ∈ archive, about call r = true → stamped call r = r) :
    Inv (w, archive.map (fun row => if about call row then stamped call row else row)) := by
  have hsame : archive.map (fun row => if about call row then stamped call row else row) = archive := by
    refine (List.map_congr_left (g := id) (fun r hr => ?_)).trans (List.map_id archive)
    split
    · rename_i habout
      exact hkeeps r hr habout
    · rfl
  rw [hsame]
  exact h

lemma insert_eq {row : WebhookRow} (h : w.insert row true = some t) :
    t = { w with buffer := w.buffer ++ [row.values] } := by
  rw [World.insert, if_pos rfl] at h
  split at h
  · exact (Option.some.inj h).symm
  · cases h

lemma inv_restamp (h : Inv (w, archive)) (ha : held.values ∈ archive)
    (habout : ∀ r ∈ archive, about call r = true ↔ r = held.values)
    (hreceived : given call.changes .receivedAt = none) (hstep : w.restamp held call true = some t) :
    Inv (t, archive.map (fun row => if about call row then stamped call row else row)) := by
  rw [World.restamp] at hstep
  cases hchanged : held.changed call.changes with
  | none =>
    rw [hchanged] at hstep
    obtain rfl := Option.some.inj hstep
    exact inv_quiet h (fun r _ _ => stamped_refused hchanged r)
  | some updated =>
    rw [hchanged] at hstep
    obtain rfl := insert_eq hstep
    exact inv_stamp h ha habout hchanged hreceived

lemma Inv.read (h : Inv (w, archive)) (hr : r ∈ w.table) (hselects : call.selects r = true)
    (hhighest : ∀ s ∈ w.table, call.selects s → s.version ≤ r.version)
    (hvisible : ∀ s ∈ w.buffer, call.selects s = false) : r ∈ archive := by
  obtain ⟨a, ha, hbehind⟩ := h.backed r (List.mem_append_left _ hr)
  have hselected : call.selects a = true := hbehind.selects_eq ▸ hselects
  have hmem : a ∈ w.table := by
    rcases List.mem_append.mp (h.stored ha) with hmem | hmem
    · exact hmem
    · rw [hvisible a hmem] at hselected
      cases hselected
  exact hbehind.last (hhighest a hmem hselected) ▸ ha

lemma inv_purge (h : Inv (w, archive)) {org : OrgRef} (hvisible : ∀ r ∈ w.buffer, belongs org r = false) :
    Inv ({ w with table := w.table.filter (fun row => !belongs org row) },
      archive.filter (fun row => !belongs org row)) := by
  refine ⟨?_, ?_, ?_⟩
  · intro r hr
    have hkept : r ∈ w.table ++ w.buffer ∧ belongs org r = false := by
      rcases List.mem_append.mp hr with hr | hr
      · obtain ⟨hmem, hnot⟩ := List.mem_filter.mp hr
        exact ⟨List.mem_append_left _ hmem, (Bool.not_eq_true' _).mp hnot⟩
      · exact ⟨List.mem_append_right _ hr, hvisible r hr⟩
    obtain ⟨a, ha, hbehind⟩ := h.backed r hkept.1
    refine ⟨a, List.mem_filter.mpr ⟨ha, ?_⟩, hbehind⟩
    rw [← hbehind.belongs_eq, hkept.2]
    rfl
  · intro a ha
    obtain ⟨hmem, hnot⟩ := List.mem_filter.mp ha
    rcases List.mem_append.mp (h.stored hmem) with hmem | hmem
    · exact List.mem_append_left _ (List.mem_filter.mpr ⟨hmem, hnot⟩)
    · exact List.mem_append_right _ hmem
  · exact h.events.sublist (List.filter_sublist.map event)

lemma inv_flush (h : Inv (w, archive)) (n : ℕ) :
    Inv (⟨w.table ++ w.buffer.take n, w.buffer.drop n⟩, archive) := by
  have hsame : (w.table ++ w.buffer.take n) ++ w.buffer.drop n = w.table ++ w.buffer := by
    rw [List.append_assoc, List.take_append_drop]
  exact ⟨fun r hr => h.backed r (hsame ▸ hr), fun a ha => hsame.symm ▸ h.stored ha, h.events⟩

lemma inv_merge (h : Inv (w, archive)) {j k : ℕ} (ha : w.table[j]? = some a) (hb : w.table[k]? = some b) (hne : j ≠ k)
    (hkey : sameKey a b = true) (hle : a.version ≤ b.version) :
    Inv ({ w with table := w.table.eraseIdx j }, archive) := by
  refine ⟨?_, ?_, h.events⟩
  · intro r hr
    refine h.backed r ?_
    rcases List.mem_append.mp hr with hr | hr
    · exact List.mem_append_left _ (List.mem_of_mem_eraseIdx hr)
    · exact List.mem_append_right _ hr
  · intro r hr
    rcases List.mem_append.mp (h.stored hr) with hmem | hmem
    · refine List.mem_append_left _ ?_
      rcases mem_eraseIdx_or ha hmem with rfl | hmem
      · obtain ⟨c, hc, hbehind⟩ := h.backed b (List.mem_append_left _ (List.mem_of_getElem? hb))
        obtain rfl := h.unique hr hc ((event_of_sameKey hkey).trans hbehind.event)
        obtain rfl := hbehind.last hle
        exact List.mem_eraseIdx_iff_getElem?.mpr ⟨k, hne.symm, hb⟩
      · exact hmem
    · exact List.mem_append_right _ hmem

lemma about_held (hrow : call.row = some held) : about call r = true ↔ event r = event held.values := by
  rw [about, hrow]
  exact decide_eq_true_iff

lemma about_read (hrow : call.row = none) : about call r = call.selects r := by
  rw [about, hrow]

lemma step_stamp (h : Inv (w, archive)) {j : ℕ} (hop : Orderly (w, archive) (.stamp call j true))
    (hstep : step w (.stamp call j true) = some t) :
    Inv (t, archive.map (fun row => if about call row then stamped call row else row)) := by
  obtain ⟨hreceived, hrest⟩ := hop
  cases hrow : call.row with
  | some held =>
    simp only [hrow] at hrest
    simp only [step, hrow] at hstep
    refine inv_restamp h hrest (fun r hr => ?_) hreceived hstep
    rw [about_held hrow]
    exact ⟨fun he => h.unique hr hrest he, fun he => he ▸ rfl⟩
  | none =>
    simp only [hrow] at hrest
    simp only [step, hrow] at hstep
    obtain ⟨hone, hvisible⟩ := hrest
    cases hget : w.table[j]? with
    | some row =>
      simp only [hget] at hstep
      split at hstep
      · rename_i hread
        have harchived := h.read (List.mem_of_getElem? hget) hread.1 hread.2 hvisible
        refine inv_restamp h ?_ (fun r hr => ?_) hreceived hstep
        · rw [values_fromValues]
          exact harchived
        · rw [about_read hrow, values_fromValues]
          exact ⟨fun hselects => hone r hr row harchived hselects hread.1, fun he => he ▸ hread.1⟩
      · cases hstep
    | none =>
      simp only [hget] at hstep
      split at hstep
      · rename_i hnone
        obtain rfl := Option.some.inj hstep
        refine inv_quiet h (fun r hr habout => ?_)
        rw [about_read hrow] at habout
        rcases List.mem_append.mp (h.stored hr) with hmem | hmem
        · rw [hnone r hmem] at habout
          cases habout
        · rw [hvisible r hmem] at habout
          cases habout
      · cases hstep

lemma restamp_lost (hstep : w.restamp held call false = some t) : t = w := by
  rw [World.restamp] at hstep
  split at hstep <;> exact (Option.some.inj hstep).symm

lemma stamp_lost {j : ℕ} (hstep : step w (.stamp call j false) = some t) : t = w := by
  simp only [step] at hstep
  split at hstep
  · exact restamp_lost hstep
  · split at hstep
    · split at hstep
      · exact restamp_lost hstep
      · cases hstep
    · split at hstep
      · exact (Option.some.inj hstep).symm
      · cases hstep

lemma step_inv (h : Inv (w, archive)) {op : Op} (hop : Orderly (w, archive) op) (hstep : step w op = some t) :
    Inv (t, record archive op) := by
  cases op with
  | store row lands =>
    cases lands with
    | true =>
      obtain rfl := insert_eq hstep
      exact inv_store h hop
    | false =>
      obtain rfl := Option.some.inj hstep
      exact h
  | stamp call j lands =>
    cases lands with
    | true => exact step_stamp h hop hstep
    | false =>
      obtain rfl := stamp_lost hstep
      exact h
  | purge org =>
    obtain rfl := Option.some.inj hstep
    exact inv_purge h hop
  | flush n =>
    obtain rfl := Option.some.inj hstep
    exact inv_flush h n
  | merge j k =>
    simp only [step] at hstep
    split at hstep
    · rename_i a b ha hb
      split at hstep
      · rename_i hmerge
        obtain rfl := Option.some.inj hstep
        exact inv_merge h ha hb hmerge.1 hmerge.2.1 hmerge.2.2
      · cases hstep
    · cases hstep

lemma both_inv {s u : World × List StoredRow} {op : Op} (h : Inv s) (hop : Orderly s op) (hstep : both s op = some u) :
    Inv u := by
  obtain ⟨t, ht, rfl⟩ := Option.map_eq_some_iff.mp hstep
  exact step_inv h hop ht

lemma Inv.newest {p : StoredRow → Prop} (h : Inv (⟨w.table, []⟩, archive)) (ha : a ∈ archive)
    (hp : ∀ r ∈ w.table, p r ↔ event r = event a) : Highest StoredRow.version p w.table r ↔ r = a := by
  have hstored : ∀ b ∈ archive, b ∈ w.table := fun b hb => (List.append_nil w.table) ▸ h.stored hb
  have hbacked : ∀ s ∈ w.table, event s = event a → Behind a s := by
    intro s hs he
    obtain ⟨b, hb, hbehind⟩ := h.backed s (List.mem_append_left _ hs)
    obtain rfl := h.unique hb ha (hbehind.event.symm.trans he)
    exact hbehind
  constructor
  · intro hr
    have hle := hr.le a (hstored a ha) ((hp a (hstored a ha)).mpr rfl)
    exact (hbacked r hr.mem ((hp r hr.mem).mp hr.holds)).last hle
  · rintro rfl
    refine ⟨hstored r ha, (hp r (hstored r ha)).mpr rfl, fun s hs hps => ?_⟩
    exact (hbacked s hs ((hp s hs).mp hps)).version

lemma Inv.same_key (h : Inv (⟨w.table, []⟩, archive)) (ha : a ∈ archive) (hr : r ∈ w.table) :
    sortingKey r = sortingKey a ↔ event r = event a := by
  constructor
  · intro hkey
    obtain ⟨hsource, hrest⟩ := Prod.mk.inj hkey
    exact Prod.ext hsource (Prod.mk.inj hrest).2
  · intro he
    obtain ⟨b, hb, hbehind⟩ := h.backed r (List.mem_append_left _ hr)
    obtain rfl := h.unique hb ha (hbehind.event.symm.trans he)
    exact hbehind.sortingKey_eq

lemma Inv.mem_query (h : Inv (⟨w.table, []⟩, archive)) : r ∈ query w ↔ r ∈ archive := by
  have hnewest : ∀ {x a : StoredRow}, a ∈ archive → sortingKey x = sortingKey a →
      ∀ z, Highest StoredRow.version (fun y => sortingKey y = sortingKey x) w.table z ↔ z = a := by
    intro x a ha hkey z
    refine h.newest ha (fun s hs => ?_)
    rw [hkey]
    exact h.same_key ha hs
  have hone : ∀ x z, Highest StoredRow.version (fun y => sortingKey y = sortingKey x) w.table x →
      Highest StoredRow.version (fun y => sortingKey y = sortingKey x) w.table z → x = z := by
    intro x z hx hz
    obtain ⟨a, ha, hbehind⟩ := h.backed x (List.mem_append_left _ hx.mem)
    have hall := hnewest ha hbehind.sortingKey_eq
    exact ((hall x).mp hx).trans ((hall z).mp hz).symm
  rw [query, mem_final (fun z hr hz => hone r z hr hz)]
  constructor
  · intro hr
    obtain ⟨a, ha, hbehind⟩ := h.backed r (List.mem_append_left _ hr.mem)
    exact (hnewest ha hbehind.sortingKey_eq r).mp hr ▸ ha
  · intro hr
    exact (hnewest hr rfl r).mpr rfl

theorem table_is_archive {ops : List Op} (horderly : Along both Orderly (start, []) ops)
    (h : run both (start, []) ops = some (w, archive)) (hvisible : w.buffer = []) :
    (query w).Perm archive ∧ (∀ org, count w org = (archive.filter (belongs org)).length) ∧
      ∀ a ∈ archive, ∀ r, Newest a.source a.eventId w.table r ↔ r = a := by
  have hinv : Inv (w, archive) := run_along (fun _ _ _ hs hop ht => both_inv hs hop ht) inv_start horderly h
  obtain ⟨table, buffer⟩ := w
  obtain rfl : buffer = [] := hvisible
  have hquery : (query ⟨table, []⟩).Perm archive := by
    refine (List.perm_ext_iff_of_nodup ?_ ?_).mpr (fun r => hinv.mem_query)
    · exact List.Nodup.of_map _ final_keys_nodup
    · exact List.Nodup.of_map _ hinv.events
  refine ⟨hquery, fun org => (hquery.filter _).length_eq, fun a ha r => ?_⟩
  exact hinv.newest ha (fun s _ => ⟨fun hs => Prod.ext hs.1 hs.2, Prod.mk.inj⟩)

-- The first stamp holds the row that was stored, the second reads what a merge has left.
def stampedTwice : List Op :=
  [.store received true, .stamp (stampCall processed (some received)) 0 true, .flush 2, .merge 0 1,
    .stamp (stampCall failed none) 0 true, .flush 1]

theorem two_stamps_kept : ∃ w archive, run both (start, []) stampedTwice = some (w, archive) ∧
    (query w).Perm archive ∧ (∀ org, count w org = (archive.filter (belongs org)).length) ∧
      ∀ a ∈ archive, ∀ r, Newest a.source a.eventId w.table r ↔ r = a := by
  have horderly : Along both Orderly (start, []) stampedTwice := by
    refine ⟨nofun, fun s₁ h₁ => ?_⟩
    cases h₁
    refine ⟨⟨rfl, List.mem_singleton_self _⟩, fun s₂ h₂ => ?_⟩
    cases h₂
    refine ⟨trivial, fun s₃ h₃ => ?_⟩
    cases h₃
    refine ⟨trivial, fun s₄ h₄ => ?_⟩
    cases h₄
    refine ⟨⟨rfl, ?_, nofun⟩, fun s₅ h₅ => ?_⟩
    · intro a ha b hb _ _
      exact (List.mem_singleton.mp ha).trans (List.mem_singleton.mp hb).symm
    · cases h₅
      exact ⟨trivial, fun s₆ h₆ => trivial⟩
  exact ⟨_, _, rfl, table_is_archive horderly rfl rfl⟩

end TheCargo.WebhookTable
