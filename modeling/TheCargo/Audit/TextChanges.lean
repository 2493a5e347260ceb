import TheCargo.Audit.Payload

namespace TheCargo.Audit

open Foundation Listeners

def SameDecimal (old new : String) : Prop :=
  (Decimal.parse old).bind (fun a => (Decimal.parse new).bind (fun b => a.eq b)) = some true

instance (old new : String) : Decidable (SameDecimal old new) :=
  inferInstanceAs (Decidable (_ = some true))

structure TextChange (f : Flush) (o : Obj) (key old new : String) : Prop where
  flushed : ⟨.dirty, o⟩ ∈ f.changes
  auditable : o.auditable = true
  column : key ∈ o.cls.columns
  audited : o.cls.ignore.contains key = false
  plain : isSensitive key = false
  committed : o.committed (o.cls.mappedAs key) = some (.str old)
  attr : o.attr (o.cls.mappedAs key) = .ok (.str new)
  differ : old ≠ new
  nonempty : old ≠ "" ∧ new ≠ ""

structure Reports (p : Payload) (key old new : String) : Prop where
  action : p.action = "update"
  changed : ∃ changed, p.changedFields = some changed ∧ key ∈ changed
  old : p.oldData.bind (lookup key) = some (.of (.str (cut maxValueLen old)))
  new : p.newData.bind (lookup key) = some (.of (.str (cut maxValueLen new)))

variable (eq : Val → Val → Bool) (serviceName : Option String)

def Reported (f : Flush) (o : Obj) (key old new : String) : Prop :=
  ∃ p ∈ capture (hooks eq serviceName f.ctx) f.changes, updatePayload eq serviceName f.ctx o = .ok p ∧
    Reports p key old new

def captureOrder (changes : List (Change Obj)) : List (Change Obj) :=
  changes.filter (fun c => c.kind = .new) ++ changes.filter (fun c => c.kind = .dirty) ++
    changes.filter (fun c => c.kind = .deleted)

def leftOut (o : Obj) (key : String) : Bool := o.cls.ignore.contains key || isSensitive key

def changedColumns (o : Obj) (keys : List String) : List String :=
  keys.filter (fun key => !leftOut o key &&
    match o.committed key, o.attr key with
    | some before, .ok after => !valuesEquivalent eq before after
    | _, _ => false)

def refReads (o : Obj) (action : String) (changed : Option (List String)) : List String :=
  (o.cls.refs.filter (fun ref =>
    !(action = "update" && ref.1 ∉ changed.getD []) && (o.cls.targetClass ref.2).isSome)).map Prod.fst

def payloadReads (o : Obj) (action : String) (changed : Option (List String)) : List String :=
  ["organization_id", "id", "company_id"] ++ (o.cls.lifecycleField.filter (fun field => field ≠ "")).toList ++
    refReads o action changed

def snapshotReads (o : Obj) : List String := o.cls.columns.filter (fun key => !(o.unloaded key || leftOut o key))

def diffReads (o : Obj) : List String :=
  o.cls.columns.filter (fun key => !leftOut o key && (o.committed key).isSome)

def reads (c : Change Obj) : List String :=
  match c.kind with
  | .new => snapshotReads c.obj ++ payloadReads c.obj "create" none
  | .deleted => snapshotReads c.obj ++ payloadReads c.obj "delete" none
  | .dirty =>
    let changed := changedColumns eq c.obj c.obj.cls.columns
    diffReads c.obj ++ if changed.isEmpty then [] else payloadReads c.obj "update" (some changed)

def Readable (c : Change Obj) : Prop :=
  c.obj.auditable = true → ∀ key ∈ reads eq c, (c.obj.attr key).isOk = true

def Flush.Reaches (f : Flush) (o : Obj) : Prop :=
  ∃ before after, captureOrder f.changes = before ++ ⟨.dirty, o⟩ :: after ∧ (∀ c ∈ before, Readable eq c) ∧
    Readable eq ⟨.dirty, o⟩

/-- The attribute that bears the column's key as its name was changed, in a way that shows the same two texts. -/
def NamesakeShows (o : Obj) (key old new : String) : Prop :=
  ∃ before after, o.committed key = some before ∧ o.attr key = .ok after ∧
    valuesEquivalent eq before after = false ∧ jsonify before = .of (.str (cut maxValueLen old)) ∧
    jsonify after = .of (.str (cut maxValueLen new))

def Noticed (o : Obj) (key old new : String) : Prop :=
  (o.cls.mappedAs key = key ∧ ¬ SameDecimal old new) ∨ (o.cls.mappedAs key ≠ key ∧ NamesakeShows eq o key old new)

variable {eq serviceName} {o : Obj} {key old new : String}

lemma valuesEquivalent_texts (h : old ≠ new) :
    valuesEquivalent eq (.str old) (.str new) = true ↔ SameDecimal old new := by
  have hequal : equal eq (.str old) (.str new) = false := decide_eq_false h
  rw [SameDecimal]
  simp only [valuesEquivalent, Val.isNone, Val.isTemporal, hequal, Bool.and_self, Bool.false_and, Bool.or_self,
    Bool.false_eq_true, if_false, Val.text]
  cases (Decimal.parse old).bind (fun a => (Decimal.parse new).bind (fun b => a.eq b)) with
  | none => simp [h]
  | some same => simp

lemma snapshotColumns_isOk (keys : List String) : (snapshotColumns o keys).isOk = true ↔
    ∀ key ∈ keys.filter (fun key => !(o.unloaded key || leftOut o key)), (o.attr key).isOk = true := by
  induction keys with
  | nil => exact iff_of_true rfl (fun _ h => absurd h List.not_mem_nil)
  | cons key keys ih =>
    rw [snapshotColumns, Bool.or_assoc, ← leftOut]
    cases hleft : o.unloaded key || leftOut o key with
    | true =>
      rw [if_pos rfl, List.filter_cons_of_neg (by simp [hleft])]
      exact ih
    | false =>
      rw [if_neg Bool.false_ne_true, List.filter_cons_of_pos (by simp [hleft]), List.forall_mem_cons, ← ih]
      exact isOk_bind_iff (fun _ => isOk_bind_pure)

lemma diffColumns_isOk (keys : List String) : (diffColumns eq o keys).isOk = true ↔
    ∀ key ∈ keys.filter (fun key => !leftOut o key && (o.committed key).isSome), (o.attr key).isOk = true := by
  induction keys with
  | nil => exact iff_of_true rfl (fun _ h => absurd h List.not_mem_nil)
  | cons key keys ih =>
    rw [diffColumns, ← leftOut]
    cases hleft : leftOut o key with
    | true =>
      rw [if_pos rfl, List.filter_cons_of_neg (by simp [hleft])]
      exact ih
    | false =>
      rw [if_neg Bool.false_ne_true]
      cases hcommitted : o.committed key with
      | none =>
        rw [List.filter_cons_of_neg (by simp [hcommitted])]
        exact ih
      | some before =>
        rw [List.filter_cons_of_pos (by simp [hleft, hcommitted]), List.forall_mem_cons, ← ih]
        cases hattr : o.attr key with
        | error e => exact iff_of_false (by rintro ⟨⟩) (fun h => absurd h.1 (by rintro ⟨⟩))
        | ok after =>
          refine Iff.trans ?_ (and_iff_right (a := (Except.ok after : Except String Val).isOk = true) rfl).symm
          change (if valuesEquivalent eq before after then diffColumns eq o keys
            else (diffColumns eq o keys).map _).isOk = true ↔ _
          split
          · exact Iff.rfl
          · rw [isOk_map]

lemma pendingRefsOf_isOk (action : String) (changed : Option (List String)) (refs : List (String × String)) :
    (pendingRefsOf o action changed refs).isOk = true ↔
      ∀ key ∈ (refs.filter (fun ref => !(action = "update" && ref.1 ∉ changed.getD []) &&
        (o.cls.targetClass ref.2).isSome)).map Prod.fst, (o.attr key).isOk = true := by
  induction refs with
  | nil => exact iff_of_true rfl (fun _ h => absurd h List.not_mem_nil)
  | cons ref refs ih =>
    obtain ⟨col, relName⟩ := ref
    rw [pendingRefsOf]
    by_cases hskip : action = "update" ∧ col ∉ changed.getD []
    · rw [if_pos hskip, List.filter_cons_of_neg (by simp [hskip]), ih]
    · rw [if_neg hskip]
      cases htarget : o.cls.targetClass relName with
      | none =>
        rw [List.filter_cons_of_neg (by simp [htarget]), ih]
      | some targetClass =>
        rw [List.filter_cons_of_pos (by simpa [htarget, ← imp_iff_not_or] using hskip), List.map_cons,
          List.forall_mem_cons, ← ih]
        exact isOk_bind_iff (fun _ => isOk_bind_pure)

lemma lifecycleState_isOk : (lifecycleState o).isOk = true ↔
    ∀ field ∈ (o.cls.lifecycleField.filter (fun field => field ≠ "")).toList, (o.attr field).isOk = true := by
  rw [lifecycleState]
  cases o.cls.lifecycleField with
  | none => simp [pure, Except.pure, Except.isOk, Except.toBool]
  | some field =>
    by_cases hempty : field = ""
    · simp [hempty, pure, Except.pure, Except.isOk, Except.toBool]
    · simp only [hempty, if_false, isOk_bind_pure]
      simp [hempty]

lemma resolveCompanyId_isOk (ctx : AuditContext) :
    (resolveCompanyId ctx o).isOk = true ↔ (o.attr "company_id").isOk = true := by
  rw [resolveCompanyId]
  refine (isOk_bind_iff (fun companyId => iff_true_intro ?_)).trans (iff_of_eq (and_true _))
  split <;> rfl

lemma buildPayload_isOk (ctx : AuditContext) (action : String) (old new : Option (List (String × Out)))
    (changed : Option (List String)) : (buildPayload serviceName ctx action o old new changed).isOk = true ↔
      ∀ key ∈ payloadReads o action changed, (o.attr key).isOk = true := by
  have hreads : (∀ key ∈ payloadReads o action changed, (o.attr key).isOk = true) ↔
      (o.attr "organization_id").isOk = true ∧ (o.attr "id").isOk = true ∧ (resolveCompanyId ctx o).isOk = true ∧
        (lifecycleState o).isOk = true ∧ (pendingRefs o action changed).isOk = true := by
    rw [payloadReads, List.forall_mem_append, List.forall_mem_append, ← lifecycleState_isOk, resolveCompanyId_isOk,
      pendingRefs, pendingRefsOf_isOk, refReads]
    simp only [List.forall_mem_cons, List.not_mem_nil, false_implies, implies_true, and_true, and_assoc]
  rw [hreads, buildPayload]
  refine isOk_bind_iff (fun _ => isOk_bind_iff (fun id => ?_))
  rcases rootOf o o.cls.resource (strOrNone id) with ⟨rootResource, rootId⟩
  exact isOk_bind_iff (fun _ => isOk_bind_iff (fun _ => isOk_bind_pure))

lemma buildPayload_fields {ctx : AuditContext} {action : String} {old new : Option (List (String × Out))}
    {changed : Option (List String)} {p : Payload}
    (h : buildPayload serviceName ctx action o old new changed = .ok p) :
    p.auditId = o.auditId ∧ p.action = action ∧ p.changedFields = changed ∧ p.oldData = old ∧ p.newData = new := by
  obtain ⟨_, _, h⟩ := bind_ok_iff.mp h
  obtain ⟨_, _, h⟩ := bind_ok_iff.mp h
  obtain ⟨_, _, h⟩ := bind_ok_iff.mp h
  obtain ⟨_, _, h⟩ := bind_ok_iff.mp h
  obtain ⟨_, _, h⟩ := bind_ok_iff.mp h
  obtain rfl := Except.ok.inj h
  exact ⟨rfl, rfl, rfl, rfl, rfl⟩

structure Written (o : Obj) (key : String) (before after : Val) : Prop where
  audited : o.cls.ignore.contains key = false
  plain : isSensitive key = false
  committed : o.committed key = some before
  attr : o.attr key = .ok after

lemma Written.unique {before after before' after' : Val} (h : Written o key before after)
    (h' : Written o key before' after') : before = before' ∧ after = after' :=
  ⟨Option.some.inj (h.committed.symm.trans h'.committed), Except.ok.inj (h.attr.symm.trans h'.attr)⟩

lemma diffColumns_cases {keys : List String} {ds : List Difference} (h : diffColumns eq o (key :: keys) = .ok ds) :
    ∃ rest, diffColumns eq o keys = .ok rest ∧
      ((ds = rest ∧ ∀ before after, Written o key before after → valuesEquivalent eq before after = true) ∨
        ∃ before after, Written o key before after ∧ valuesEquivalent eq before after = false ∧
          ds = ⟨key, jsonify before, jsonify after⟩ :: rest) := by
  rw [diffColumns] at h
  split at h
  · rename_i hleft
    refine ⟨ds, h, Or.inl ⟨rfl, ?_⟩⟩
    intro before after hw
    rw [hw.audited, hw.plain] at hleft
    cases hleft
  rename_i hkept
  obtain ⟨haudited, hplain⟩ := Bool.or_eq_false_iff.mp (Bool.not_eq_true _ ▸ hkept)
  cases hcommitted : o.committed key with
  | none =>
    rw [hcommitted] at h
    refine ⟨ds, h, Or.inl ⟨rfl, ?_⟩⟩
    intro before after hw
    cases hcommitted.symm.trans hw.committed
  | some before =>
    cases hattr : o.attr key with
    | error e =>
      rw [hcommitted, hattr] at h
      cases h
    | ok after =>
      have hw : Written o key before after := ⟨haudited, hplain, hcommitted, hattr⟩
      rw [hcommitted, hattr] at h
      replace h : (if valuesEquivalent eq before after then diffColumns eq o keys
        else (diffColumns eq o keys).map (fun rest => ⟨key, jsonify before, jsonify after⟩ :: rest)) = .ok ds := h
      split at h
      · rename_i hsame
        refine ⟨ds, h, Or.inl ⟨rfl, ?_⟩⟩
        intro before' after' hw'
        obtain ⟨rfl, rfl⟩ := hw.unique hw'
        exact hsame
      · rename_i hchanged
        cases hrest : diffColumns eq o keys with
        | error e =>
          rw [hrest] at h
          cases h
        | ok rest =>
          rw [hrest] at h
          exact ⟨rest, rfl, Or.inr ⟨before, after, hw, Bool.not_eq_true _ ▸ hchanged, (Except.ok.inj h).symm⟩⟩

lemma diffColumns_sound {keys : List String} {ds : List Difference} (h : diffColumns eq o keys = .ok ds) :
    ∀ d ∈ ds, ∃ before after, Written o d.key before after ∧ valuesEquivalent eq before after = false ∧
      d.old = jsonify before ∧ d.new = jsonify after := by
  induction keys generalizing ds with
  | nil =>
    obtain rfl := Except.ok.inj h
    simp
  | cons key keys ih =>
    obtain ⟨rest, hrest, ⟨rfl, _⟩ | ⟨before, after, hw, hchanged, rfl⟩⟩ := diffColumns_cases h
    · exact ih hrest
    · exact List.forall_mem_cons.mpr ⟨⟨before, after, hw, hchanged, rfl, rfl⟩, ih hrest⟩

lemma diffColumns_complete {before after : Val} (hw : Written o key before after)
    (hchanged : valuesEquivalent eq before after = false) {keys : List String} (hkey : key ∈ keys)
    {ds : List Difference} (h : diffColumns eq o keys = .ok ds) : key ∈ ds.map Difference.key := by
  induction keys generalizing ds with
  | nil => cases hkey
  | cons first keys ih =>
    obtain ⟨rest, hrest, ⟨rfl, hsame⟩ | ⟨_, _, _, _, rfl⟩⟩ := diffColumns_cases h
    · rcases List.mem_cons.mp hkey with rfl | hkey
      · cases hchanged.symm.trans (hsame before after hw)
      · exact ih hkey hrest
    · rcases List.mem_cons.mp hkey with rfl | hkey
      · exact List.mem_cons_self
      · exact List.mem_cons_of_mem _ (ih hkey hrest)

lemma diff_values {before after : Val} (hw : Written o key before after) {ds : List Difference}
    (h : diff eq o = .ok ds) (hkey : key ∈ ds.map Difference.key) :
    lookup key (ds.map (fun d => (d.key, d.old))) = some (jsonify before) ∧
      lookup key (ds.map (fun d => (d.key, d.new))) = some (jsonify after) := by
  have hsound : ∀ d ∈ ds, d.key = key → d.old = jsonify before ∧ d.new = jsonify after := by
    rintro d hd rfl
    obtain ⟨before', after', hw', _, hold, hnew⟩ := diffColumns_sound h d hd
    obtain ⟨rfl, rfl⟩ := hw.unique hw'
    exact ⟨hold, hnew⟩
  have hkeys (f : Difference → Out) : (ds.map (fun d => (d.key, f d))).map Prod.fst = ds.map Difference.key := by
    rw [List.map_map]
    rfl
  constructor
  · apply lookup_of_same
    · rwa [hkeys]
    · intro e he hk
      obtain ⟨d, hd, rfl⟩ := List.mem_map.mp he
      exact (hsound d hd hk).1
  · apply lookup_of_same
    · rwa [hkeys]
    · intro e he hk
      obtain ⟨d, hd, rfl⟩ := List.mem_map.mp he
      exact (hsound d hd hk).2

lemma diffColumns_keys {keys : List String} {ds : List Difference} (h : diffColumns eq o keys = .ok ds) :
    ds.map Difference.key = changedColumns eq o keys := by
  induction keys generalizing ds with
  | nil =>
    obtain rfl := Except.ok.inj h
    rfl
  | cons key keys ih =>
    obtain ⟨rest, hrest, ⟨rfl, hsame⟩ | ⟨before, after, hw, hchanged, rfl⟩⟩ := diffColumns_cases h
    · rw [ih hrest, changedColumns, changedColumns, List.filter_cons_of_neg]
      intro hkept
      obtain ⟨hleft, hdiffers⟩ := Bool.and_eq_true_iff.mp hkept
      obtain ⟨haudited, hplain⟩ := Bool.or_eq_false_iff.mp ((Bool.not_eq_true' _).mp hleft)
      split at hdiffers
      · rename_i before after hcommitted hattr
        rw [hsame before after ⟨haudited, hplain, hcommitted, hattr⟩] at hdiffers
        cases hdiffers
      · cases hdiffers
    · rw [List.map_cons, ih hrest, changedColumns, changedColumns, List.filter_cons_of_pos]
      simp only [leftOut, hw.audited, hw.plain, hw.committed, hw.attr, hchanged]
      rfl

lemma createPayload_isOk (ctx : AuditContext) : (createPayload serviceName ctx o).isOk = true ↔
    ∀ key ∈ snapshotReads o ++ payloadReads o "create" none, (o.attr key).isOk = true := by
  rw [List.forall_mem_append, createPayload, snapshotReads, ← snapshotColumns_isOk]
  exact isOk_bind_iff (fun _ => buildPayload_isOk ctx _ _ _ _)

lemma deletePayload_isOk (ctx : AuditContext) : (deletePayload serviceName ctx o).isOk = true ↔
    ∀ key ∈ snapshotReads o ++ payloadReads o "delete" none, (o.attr key).isOk = true := by
  rw [List.forall_mem_append, deletePayload, snapshotReads, ← snapshotColumns_isOk]
  exact isOk_bind_iff (fun _ => buildPayload_isOk ctx _ _ _ _)

lemma updatePayload_isOk (ctx : AuditContext) {ds : List Difference} (hds : diff eq o = .ok ds) :
    (updatePayload eq serviceName ctx o).isOk = true ↔
      ∀ key ∈ payloadReads o "update" (some (changedColumns eq o o.cls.columns)), (o.attr key).isOk = true := by
  have hkeys : ds.map Difference.key = changedColumns eq o o.cls.columns := diffColumns_keys hds
  rw [updatePayload, hds, ← hkeys]
  exact buildPayload_isOk ctx _ _ _ _

lemma captureChange_dirty (ha : o.auditable = true) (ctx : AuditContext) :
    captureChange (hooks eq serviceName ctx) ⟨.dirty, o⟩ =
      diff eq o >>= fun ds => if ds.isEmpty then .ok none else some <$> updatePayload eq serviceName ctx o := by
  simp only [captureChange, hooks, ha, if_true]
  cases diff eq o with
  | error e => rfl
  | ok ds => cases ds <;> rfl

lemma captureChange_isOk (ctx : AuditContext) (c : Change Obj) :
    (captureChange (hooks eq serviceName ctx) c).isOk = true ↔ Readable eq c := by
  obtain ⟨kind, o⟩ := c
  rw [Readable]
  cases ha : o.auditable with
  | false =>
    refine iff_of_true ?_ (fun h => by cases h)
    simp [captureChange, hooks, ha, Except.isOk, Except.toBool]
  | true =>
    rw [forall_prop_of_true rfl]
    cases kind with
    | new =>
      have hcapture : captureChange (hooks eq serviceName ctx) ⟨.new, o⟩ =
          some <$> createPayload serviceName ctx o := by
        simp only [captureChange, hooks, ha, if_true]
      rw [hcapture]
      exact (Bool.eq_iff_iff.mp isOk_map).trans (createPayload_isOk ctx)
    | deleted =>
      have hkind : ¬ ("delete" : String) = "create" := by decide
      have hcapture : captureChange (hooks eq serviceName ctx) ⟨.deleted, o⟩ =
          some <$> deletePayload serviceName ctx o := by
        simp only [captureChange, hooks, ha, if_true, hkind, if_false]
      rw [hcapture]
      exact (Bool.eq_iff_iff.mp isOk_map).trans (deletePayload_isOk ctx)
    | dirty =>
      simp only [reads]
      rw [captureChange_dirty ha, isOk_bind, List.forall_mem_append, diffReads, ← diffColumns_isOk]
      constructor
      · rintro ⟨ds, hds, h⟩
        refine ⟨by rw [show diffColumns eq o o.cls.columns = .ok ds from hds]; rfl, ?_⟩
        have hkeys : ds.map Difference.key = changedColumns eq o o.cls.columns := diffColumns_keys hds
        have hpayload : (updatePayload eq serviceName ctx o).isOk = true ↔ _ := updatePayload_isOk ctx hds
        rw [← hkeys] at hpayload ⊢
        cases ds with
        | nil => exact fun _ hkey => absurd hkey List.not_mem_nil
        | cons d ds => exact hpayload.mp ((Bool.eq_iff_iff.mp isOk_map).mp h)
      · rintro ⟨hok, h⟩
        obtain ⟨ds, hds⟩ := exists_ok hok
        have hkeys : ds.map Difference.key = changedColumns eq o o.cls.columns := diffColumns_keys hds
        have hpayload : (updatePayload eq serviceName ctx o).isOk = true ↔ _ := updatePayload_isOk ctx hds
        refine ⟨ds, hds, ?_⟩
        rw [← hkeys] at h hpayload
        cases ds with
        | nil => rfl
        | cons d ds => exact (Bool.eq_iff_iff.mp isOk_map).mpr (hpayload.mpr h)

lemma mem_captureEach {cs : List (Change Obj)} {hooks : Hooks Obj Payload} {p : Payload} :
    p ∈ captureEach hooks cs ↔ ∃ before c after, cs = before ++ c :: after ∧
      (∀ b ∈ before, (captureChange hooks b).isOk = true) ∧ captureChange hooks c = .ok (some p) := by
  induction cs with
  | nil => simp [captureEach]
  | cons first cs ih =>
    rw [captureEach]
    constructor
    · intro h
      split at h
      · cases h
      · rename_i hfirst
        obtain ⟨before, c, after, rfl, hbefore, hc⟩ := ih.mp h
        exact ⟨first :: before, c, after, rfl, List.forall_mem_cons.mpr ⟨by rw [hfirst]; rfl, hbefore⟩, hc⟩
      · rename_i payload hfirst
        rcases List.mem_cons.mp h with rfl | h
        · exact ⟨[], first, cs, rfl, fun _ hb => absurd hb List.not_mem_nil, hfirst⟩
        · obtain ⟨before, c, after, rfl, hbefore, hc⟩ := ih.mp h
          exact ⟨first :: before, c, after, rfl, List.forall_mem_cons.mpr ⟨by rw [hfirst]; rfl, hbefore⟩, hc⟩
    · rintro ⟨before, c, after, hsplit, hbefore, hc⟩
      cases before with
      | nil =>
        obtain ⟨rfl, rfl⟩ := List.cons.inj hsplit
        rw [hc]
        exact List.mem_cons_self
      | cons b before =>
        obtain ⟨rfl, rfl⟩ := List.cons.inj hsplit
        obtain ⟨hfirst, hbefore⟩ := List.forall_mem_cons.mp hbefore
        obtain ⟨staged, hfirst⟩ := exists_ok hfirst
        have hrest := ih.mpr ⟨before, c, after, rfl, hbefore, hc⟩
        rw [hfirst]
        cases staged with
        | none => exact hrest
        | some q => exact List.mem_cons_of_mem q hrest

lemma captureChange_auditId {ctx : AuditContext} {c : Change Obj} {p : Payload}
    (h : captureChange (hooks eq serviceName ctx) c = .ok (some p)) : p.auditId = c.obj.auditId := by
  have hbuilt {action : String} : (hooks eq serviceName ctx).buildPayload action c.obj = .ok p →
      p.auditId = c.obj.auditId := by
    intro h
    simp only [hooks] at h
    split_ifs at h
    all_goals
      obtain ⟨_, _, h⟩ := bind_ok_iff.mp h
      exact (buildPayload_fields h).1
  have hsome {x : Except String Payload} : some <$> x = .ok (some p) → x = .ok p := by
    intro h
    cases x with
    | error e => cases h
    | ok q => exact congrArg Except.ok (Option.some.inj (Except.ok.inj h))
  rw [captureChange] at h
  split at h
  · split at h
    · exact hbuilt (hsome h)
    · obtain ⟨changed, _, h⟩ := bind_ok_iff.mp h
      split at h
      · exact hbuilt (hsome h)
      · cases h
    · exact hbuilt (hsome h)
  · cases h

lemma mem_of_captured {c : Change Obj} {changes : List (Change Obj)} (h : c ∈ captureOrder changes) : c ∈ changes := by
  simp only [captureOrder, List.mem_append, List.mem_filter] at h
  obtain (⟨h, _⟩ | ⟨h, _⟩) | ⟨h, _⟩ := h <;> exact h

lemma jsonify_text (s : String) : jsonify (.str s) = .of (.str (cut maxValueLen s)) := by rw [jsonify]

lemma noticed_iff {f : Flush} (h : TextChange f o key old new) : Noticed eq o key old new ↔
    ∃ before after, Written o key before after ∧ valuesEquivalent eq before after = false ∧
      jsonify before = .of (.str (cut maxValueLen old)) ∧ jsonify after = .of (.str (cut maxValueLen new)) := by
  have hcommitted := h.committed
  have hattr := h.attr
  by_cases hown : o.cls.mappedAs key = key
  · rw [hown] at hcommitted hattr
    have hwritten : Written o key (.str old) (.str new) := ⟨h.audited, h.plain, hcommitted, hattr⟩
    constructor
    · rintro (⟨_, hdiffer⟩ | ⟨hother, _⟩)
      · refine ⟨_, _, hwritten, Bool.eq_false_iff.mpr ?_, jsonify_text old, jsonify_text new⟩
        exact fun hsame => hdiffer ((valuesEquivalent_texts h.differ).mp hsame)
      · exact absurd hown hother
    · rintro ⟨before, after, hw, hdiffers, -⟩
      obtain ⟨rfl, rfl⟩ := hwritten.unique hw
      exact .inl ⟨hown, fun hsame => Bool.eq_false_iff.mp hdiffers ((valuesEquivalent_texts h.differ).mpr hsame)⟩
  · constructor
    · rintro (⟨hsame, _⟩ | ⟨_, before, after, hc, ha, hdiffers, hold, hnew⟩)
      · exact absurd hsame hown
      · exact ⟨before, after, ⟨h.audited, h.plain, hc, ha⟩, hdiffers, hold, hnew⟩
    · rintro ⟨before, after, hw, hdiffers, hold, hnew⟩
      exact .inr ⟨hown, before, after, hw.committed, hw.attr, hdiffers, hold, hnew⟩

lemma noticed_of_reported {f : Flush} (h : TextChange f o key old new) (hr : Reported eq serviceName f o key old new) :
    Noticed eq o key old new := by
  obtain ⟨p, _, hp, hreports⟩ := hr
  obtain ⟨ds, hds, hp⟩ := bind_ok_iff.mp hp
  obtain ⟨-, -, hfields, hold, hnew⟩ := buildPayload_fields hp
  obtain ⟨changed, hchanged, hkey⟩ := hreports.changed
  obtain rfl := Option.some.inj (hfields.symm.trans hchanged)
  obtain ⟨d, hd, hdkey⟩ := List.mem_map.mp hkey
  obtain ⟨before, after, hw, hdiffer, -⟩ := diffColumns_sound hds d hd
  rw [hdkey] at hw
  obtain ⟨hbefore, hafter⟩ := diff_values hw hds hkey
  refine (noticed_iff h).mpr ⟨before, after, hw, hdiffer, ?_, ?_⟩
  · have hshown := hreports.old
    rw [hold] at hshown
    exact Option.some.inj (hbefore.symm.trans hshown)
  · have hshown := hreports.new
    rw [hnew] at hshown
    exact Option.some.inj (hafter.symm.trans hshown)

lemma reported_of_noticed {f : Flush} (h : TextChange f o key old new) (hreach : f.Reaches eq o)
    (hnoticed : Noticed eq o key old new) : Reported eq serviceName f o key old new := by
  obtain ⟨before, after, horder, hbefore, hown⟩ := hreach
  obtain ⟨was, is, hw, hdiffers, hold, hnew⟩ := (noticed_iff h).mp hnoticed
  obtain ⟨staged, hcaptured⟩ : ∃ staged, captureChange (hooks eq serviceName f.ctx) ⟨.dirty, o⟩ = .ok staged :=
    exists_ok ((captureChange_isOk f.ctx _).mpr hown)
  obtain ⟨ds, hds, hstaged⟩ := bind_ok_iff.mp ((captureChange_dirty h.auditable f.ctx).symm.trans hcaptured)
  have hkey : key ∈ ds.map Difference.key := diffColumns_complete hw hdiffers h.column hds
  obtain ⟨hwas, his⟩ := diff_values hw hds hkey
  have hne : ds.isEmpty = false := by
    cases ds with
    | nil => cases hkey
    | cons d ds => rfl
  rw [hne, if_neg Bool.false_ne_true] at hstaged
  cases hp : updatePayload eq serviceName f.ctx o with
  | error e =>
    rw [hp] at hstaged
    cases hstaged
  | ok p =>
    rw [hp] at hstaged
    obtain rfl : some p = staged := Except.ok.inj hstaged
    obtain ⟨ds', hds', hbuilt⟩ := bind_ok_iff.mp hp
    obtain rfl : ds = ds' := Except.ok.inj (hds.symm.trans hds')
    obtain ⟨-, haction, hfields, hpold, hpnew⟩ := buildPayload_fields hbuilt
    refine ⟨p, mem_captureEach.mpr ⟨before, _, after, horder, ?_, hcaptured⟩, hp, haction, ⟨_, hfields, hkey⟩, ?_, ?_⟩
    · exact fun c hc => (captureChange_isOk f.ctx c).mpr (hbefore c hc)
    · rw [hpold, ← hold]
      exact hwas
    · rw [hpnew, ← hnew]
      exact his

lemma reaches_of_reported {f : Flush} (h : TextChange f o key old new)
    (hids : (f.changes.map (fun c => c.obj.auditId)).Nodup) (hr : Reported eq serviceName f o key old new) :
    f.Reaches eq o := by
  obtain ⟨p, hcaptured, hp, -⟩ := hr
  obtain ⟨before, c, after, horder, hbefore, hc⟩ := mem_captureEach.mp hcaptured
  obtain ⟨_, _, hbuilt⟩ := bind_ok_iff.mp hp
  have hid : c.obj.auditId = o.auditId := (captureChange_auditId hc).symm.trans (buildPayload_fields hbuilt).1
  have hmem : c ∈ f.changes := mem_of_captured (by rw [captureOrder, horder]; simp)
  obtain rfl : c = ⟨.dirty, o⟩ := List.inj_on_of_nodup_map hids hmem h.flushed hid
  refine ⟨before, after, horder, fun b hb => (captureChange_isOk f.ctx b).mp (hbefore b hb), ?_⟩
  have hok : (captureChange (hooks eq serviceName f.ctx) ⟨.dirty, o⟩).isOk = true := by
    rw [hc]
    rfl
  exact (captureChange_isOk f.ctx _).mp hok

/-- The change of a text column is reported where the column is noticed and no read has raised by then; `uuid4` gives
every payload of a flush its own id. -/
theorem text_changes_are_reported_iff (eq : Val → Val → Bool) (serviceName : Option String) (f : Flush) (o : Obj)
    (key old new : String) (h : TextChange f o key old new) :
    (Reported eq serviceName f o key old new → Noticed eq o key old new) ∧
      (f.Reaches eq o → (Reported eq serviceName f o key old new ↔ Noticed eq o key old new)) ∧
      ((f.changes.map (fun c => c.obj.auditId)).Nodup →
        (Reported eq serviceName f o key old new ↔ f.Reaches eq o ∧ Noticed eq o key old new)) :=
  ⟨noticed_of_reported h, fun hreach => ⟨noticed_of_reported h, reported_of_noticed h hreach⟩,
    fun hids => ⟨fun hr => ⟨reaches_of_reported h hids hr, noticed_of_reported h hr⟩,
      fun hn => reported_of_noticed h hn.1 hn.2⟩⟩

def addresses : Auditable where
  resource := "address"
  columns := ["id", "zip"]
  ignore := ["updated_at"]
  significant := []
  lifecycleField := none
  refs := []
  targetClass := fun _ => none
  label := fun _ => return none
  root := fun _ => return none

def address (old new : String) : Obj where
  auditable := true
  cls := addresses
  attr := fun key => return if key = "zip" then .str new else .none
  unloaded := fun _ => false
  committed := fun key => if key = "zip" then some (.str old) else none
  auditId := "1"
  createdAt := "2026-01-01"

def correction (old new : String) : Flush := ⟨byNobody, [⟨.dirty, address old new⟩]⟩

lemma address_change {old new : String} (h : old ≠ new) (hold : old ≠ "") (hnew : new ≠ "") :
    TextChange (correction old new) (address old new) "zip" old new where
  flushed := List.mem_singleton_self _
  auditable := rfl
  column := by simp [address, addresses]
  audited := by simp [address, addresses]
  plain := by decide +kernel
  committed := rfl
  attr := rfl
  differ := h
  nonempty := ⟨hold, hnew⟩

theorem another_zip_is_reported :
    let f := correction "02134" "90210"
    let o := address "02134" "90210"
    (Reported (fun _ _ => false) none f o "zip" "02134" "90210" → Noticed (fun _ _ => false) o "zip" "02134" "90210") ∧
      (f.Reaches (fun _ _ => false) o →
        (Reported (fun _ _ => false) none f o "zip" "02134" "90210" ↔
          Noticed (fun _ _ => false) o "zip" "02134" "90210")) ∧
      ((f.changes.map (fun c => c.obj.auditId)).Nodup →
        (Reported (fun _ _ => false) none f o "zip" "02134" "90210" ↔
          f.Reaches (fun _ _ => false) o ∧ Noticed (fun _ _ => false) o "zip" "02134" "90210")) := by
  have hchange : TextChange (correction "02134" "90210") (address "02134" "90210") "zip" "02134" "90210" :=
    address_change (by decide) (by decide) (by decide)
  exact text_changes_are_reported_iff _ _ _ _ _ _ _ hchange

theorem a_leading_zero_is_not_reported :
    TextChange (correction "2134" "02134") (address "2134" "02134") "zip" "2134" "02134" ∧
      (correction "2134" "02134").Reaches (fun _ _ => false) (address "2134" "02134") ∧
      ¬ Reported (fun _ _ => false) none (correction "2134" "02134") (address "2134" "02134") "zip" "2134" "02134" := by
  have hchange : TextChange (correction "2134" "02134") (address "2134" "02134") "zip" "2134" "02134" :=
    address_change (by decide) (by decide) (by decide)
  refine ⟨hchange, ⟨[], [], rfl, fun _ hc => absurd hc List.not_mem_nil, fun _ key _ => rfl⟩, fun hr => ?_⟩
  rcases noticed_of_reported hchange hr with ⟨_, hdiffer⟩ | ⟨hother, _⟩
  · exact hdiffer (by decide +kernel)
  · exact hother rfl

end TheCargo.Audit
