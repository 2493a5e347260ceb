import TheCargo.Events.OutboxFinal

/-! What one relay that is left alone with a healthy broker makes of the outbox: `relay_once` and the loop around it
as functions on the table, the run that each is, and how many ticks empty the outbox. -/

namespace TheCargo.Events.OutboxDrain

open Foundation Models Outbox OutboxRelay

def cleanupEveryTicks : ℕ := 720

def deliverAll (w : World) (todo : List Held) : World :=
  todo.foldl (fun w held => (w.send held).accept held.id) w

/-- `relay_once` with every publish answered -/
def relayOnce (now : Instant) (w : World) : World :=
  let w := { w with table := reclaimStuck now w.table }
  let batch := due now [] w.table
  if batch.isEmpty then w
  else
    let w := deliverAll (w.claimBatch batch now) (batch.map Held.of)
    { w with table := stampFailed [] now (stampPublished (batch.map OutboxEvent.id) now w.table) }

def tick (now : Instant) (k : ℕ) (w : World) : World :=
  let w := relayOnce now w
  if k % cleanupEveryTicks = 0 then { w with table := cleanupPublished now cleanupRetentionDays w.table } else w

def runOutboxRelay (k : ℕ) (w : World) : List Instant → World
  | [] => w
  | now :: later => runOutboxRelay (k + 1) (tick now k w) later

def relayOps (i : ℕ) (now : Instant) (batch : List OutboxEvent) : List ProcessOp :=
  [.relayOnce true, .relayReclaims i now, .relayClaims i now []] ++
    if batch.isEmpty then []
    else batch.flatMap (fun _ => [.relaySends i true, .relayReturns i none]) ++ [.relayStamps i now]

def tickOps (p i : ℕ) (now : Instant) (k : ℕ) (w : World) : List Op :=
  (relayOps i now (due now [] (reclaimStuck now w.table))).map (Op.within p) ++
    if k % cleanupEveryTicks = 0 then [.cleanupPublished now cleanupRetentionDays] else []

def loopOps (p i : ℕ) (k : ℕ) (w : World) : List Instant → List Op
  | [] => []
  | now :: later => tickOps p i now k w ++ loopOps p i (k + 1) (tick now k w) later

abbrev runProcess := Runs.run (fun (r : World × Process) op => processStep r.1 r.2 op)

lemma run_within {s : State} {p : ℕ} {q : Process} {r : World × Process} {ops : List ProcessOp}
    (hp : s.processes[p]? = some q) (h : runProcess (s.world, q) ops = some r) :
    Runs.run step s (ops.map (Op.within p)) = some ⟨r.1, s.processes.set p r.2⟩ := by
  induction ops generalizing s q with
  | nil =>
    obtain rfl := Option.some.inj h
    obtain ⟨hlt, rfl⟩ := List.getElem?_eq_some_iff.mp hp
    rw [List.set_getElem_self]
    rfl
  | cons op ops ih =>
    obtain ⟨u, hu, hr⟩ := Runs.run_cons.mp h
    have hstep : step s (.within p op) = some ⟨u.1, s.processes.set p u.2⟩ := by
      simp only [step, hp, hu, Option.map_some]
    have hlt := (List.getElem?_eq_some_iff.mp hp).1
    rw [List.map_cons, Runs.run, hstep, Option.bind_some, ih (List.getElem?_set_self hlt) hr, List.set_set]

lemma run_deliver {w : World} {q : Process} {i : ℕ} {todo : List Held} {published : List UUID}
    (hi : q.relays[i]? = some (.delivering todo false published [])) :
    runProcess (w, q) (todo.flatMap (fun _ => [.relaySends i true, .relayReturns i none])) =
      some (deliverAll w todo,
        { q with relays := q.relays.set i (.delivering [] false (published ++ todo.map Held.id) []) }) := by
  induction todo generalizing w q published with
  | nil =>
    obtain ⟨hlt, hget⟩ := List.getElem?_eq_some_iff.mp hi
    rw [List.map_nil, List.append_nil, ← hget, List.set_getElem_self]
    rfl
  | cons held todo ih =>
    have hlt := (List.getElem?_eq_some_iff.mp hi).1
    have hsends : processStep w q (.relaySends i true) = some (w.send held,
        { q with relays := q.relays.set i (.delivering (held :: todo) true published []) }) := by
      simp only [processStep, hi, if_true]
    have hreturns : processStep (w.send held)
        { q with relays := q.relays.set i (.delivering (held :: todo) true published []) } (.relayReturns i none) =
          some ((w.send held).accept held.id,
            { q with relays := q.relays.set i (.delivering todo false (published ++ [held.id]) []) }) := by
      simp only [processStep, List.getElem?_set_self hlt, List.set_set]
    rw [List.flatMap_cons, List.cons_append, runProcess, Runs.run, hsends, Option.bind_some, List.singleton_append,
      Runs.run, hreturns, Option.bind_some]
    have hmid : ({ q with relays := q.relays.set i (.delivering todo false (published ++ [held.id]) []) } : Process)
        |>.relays[i]? = some (.delivering todo false (published ++ [held.id]) []) := List.getElem?_set_self hlt
    have hrest := ih (w := (w.send held).accept held.id) hmid
    rw [List.set_set, List.append_assoc, List.singleton_append] at hrest
    exact hrest

def joined (q : Process) (r : Worker) : Process := { q with relays := q.relays ++ [r] }

lemma joined_last (q : Process) (r : Worker) : (joined q r).relays[q.relays.length]? = some r := by
  rw [joined, List.getElem?_append_right (le_refl _), Nat.sub_self]
  rfl

lemma joined_set (q : Process) (r r' : Worker) :
    ({ joined q r with relays := (joined q r).relays.set q.relays.length r' } : Process) = joined q r' := by
  simp only [joined, List.set_append_right _ _ (le_refl _), Nat.sub_self, List.set_cons_zero]

lemma joined_erase (q : Process) (r : Worker) :
    ({ joined q r with relays := (joined q r).relays.eraseIdx q.relays.length } : Process) = q := by
  simp only [joined, List.eraseIdx_append_of_length_le (le_refl _), Nat.sub_self, List.eraseIdx_cons_zero,
    List.append_nil]

variable (w : World) (q : Process) (now : Instant)

lemma joined_reclaims : processStep w (joined q .reclaiming) (.relayReclaims q.relays.length now) =
    some ({ w with table := reclaimStuck now w.table }, joined q .claiming) := by
  simp only [processStep, joined_last, joined_set]

lemma joined_claims : processStep w (joined q .claiming) (.relayClaims q.relays.length now []) =
    if (due now [] w.table).isEmpty then some (w, q)
    else some (w.claimBatch (due now [] w.table) now,
      joined q (.delivering ((due now [] w.table).map Held.of) false [] [])) := by
  simp only [processStep, joined_last, joined_set, joined_erase]

lemma joined_delivers (todo : List Held) : runProcess (w, joined q (.delivering todo false [] []))
    (todo.flatMap (fun _ => [.relaySends q.relays.length true, .relayReturns q.relays.length none])) =
      some (deliverAll w todo, joined q (.delivering [] false (todo.map Held.id) [])) := by
  rw [run_deliver (joined_last q _), joined_set, List.nil_append]

lemma joined_stamps (published : List UUID) :
    processStep w (joined q (.delivering [] false published [])) (.relayStamps q.relays.length now) =
      some ({ w with table := stampFailed [] now (stampPublished published now w.table) }, q) := by
  simp only [processStep, joined_last, joined_erase]

lemma run_relay : runProcess (w, q) (relayOps q.relays.length now (due now [] (reclaimStuck now w.table))) =
    some (relayOnce now w, q) := by
  have hfirst : processStep w q (.relayOnce true) = some (w, joined q .reclaiming) := rfl
  have hclaims := joined_claims { w with table := reclaimStuck now w.table } q now
  rw [relayOps, List.cons_append, runProcess, Runs.run, hfirst, Option.bind_some, List.cons_append, Runs.run,
    joined_reclaims, Option.bind_some, List.singleton_append, Runs.run, hclaims]
  cases hempty : (due now [] (reclaimStuck now w.table)).isEmpty with
  | true =>
    simp only [relayOnce, hempty, if_true]
    rfl
  | false =>
    have hdelivers := joined_delivers
      (World.claimBatch { w with table := reclaimStuck now w.table } (due now [] (reclaimStuck now w.table)) now) q
      ((due now [] (reclaimStuck now w.table)).map Held.of)
    rw [List.flatMap_map] at hdelivers
    simp only [relayOnce, hempty, Bool.false_eq_true, if_false, Option.bind_some]
    rw [Runs.run_append hdelivers, Runs.run, joined_stamps, List.map_map]
    rfl

lemma run_tick {s : State} {p : ℕ} {q : Process} (hp : s.processes[p]? = some q) (now : Instant) (k : ℕ) :
    Runs.run step s (tickOps p q.relays.length now k s.world) = some ⟨tick now k s.world, s.processes⟩ := by
  have hrelay := run_within hp (run_relay s.world q now)
  obtain ⟨hlt, hget⟩ := List.getElem?_eq_some_iff.mp hp
  have hsame : s.processes.set p q = s.processes := by rw [← hget, List.set_getElem_self]
  rw [tickOps, Runs.run_append hrelay, hsame, tick]
  split
  · rfl
  · rfl

lemma run_loop {s : State} {p : ℕ} {q : Process} (hp : s.processes[p]? = some q) (k : ℕ) (times : List Instant) :
    Runs.run step s (loopOps p q.relays.length k s.world times) =
      some ⟨runOutboxRelay k s.world times, s.processes⟩ := by
  induction times generalizing s k with
  | nil => rfl
  | cons now later ih =>
    rw [loopOps, Runs.run_append (run_tick hp now k), runOutboxRelay]
    exact ih (s := ⟨tick now k s.world, s.processes⟩) hp (k + 1)

def Unfinished (row : OutboxEvent) : Prop := row.status ≠ .published ∧ row.attempts < relayMaxAttempts

instance (row : OutboxEvent) : Decidable (Unfinished row) :=
  inferInstanceAs (Decidable (row.status ≠ .published ∧ row.attempts < relayMaxAttempts))

def left (w : World) : ℕ := w.table.countP (fun row => Unfinished row)

def Overdue (now : Instant) (w : World) : Prop :=
  ∀ row ∈ w.table, Unfinished row → row.createdAt < now - relayGraceSeconds * second ∧
    (row.status = .publishing → row.updatedAt < now - reclaimAfterSeconds * second)

instance (now : Instant) (w : World) : Decidable (Overdue now w) :=
  inferInstanceAs (Decidable (∀ row ∈ w.table, Unfinished row → row.createdAt < now - relayGraceSeconds * second ∧
    (row.status = .publishing → row.updatedAt < now - reclaimAfterSeconds * second)))

lemma reclaimed_keys (now : Instant) (table : List OutboxEvent) :
    (reclaimStuck now table).map OutboxEvent.id = table.map OutboxEvent.id := by
  rw [reclaimStuck, List.map_map]
  apply List.map_congr_left
  intro row _
  rw [Function.comp_apply]
  split <;> rfl

lemma unfinished_reclaimed (now : Instant) (table : List OutboxEvent) :
    (reclaimStuck now table).countP (fun row => Unfinished row) = table.countP (fun row => Unfinished row) := by
  rw [reclaimStuck, List.countP_map]
  apply List.countP_congr
  intro row _
  rw [Function.comp_apply, decide_eq_true_eq, decide_eq_true_eq]
  split
  · rename_i hstuck
    simp [Unfinished, hstuck.1]
  · rfl

lemma of_mem_reclaimed {now : Instant} {table : List OutboxEvent} {row : OutboxEvent}
    (h : row ∈ reclaimStuck now table) : ∃ old ∈ table, row.id = old.id ∧ row.createdAt = old.createdAt ∧
      row.attempts = old.attempts ∧ (row.status = .published ↔ old.status = .published) ∧
      (row.status = .publishing → row = old ∧ ¬ old.updatedAt < now - reclaimAfterSeconds * second) := by
  obtain ⟨old, hold, rfl⟩ := List.mem_map.mp h
  refine ⟨old, hold, ?_⟩
  split
  · rename_i hstuck
    simp [hstuck.1]
  · rename_i hnot
    exact ⟨rfl, rfl, rfl, Iff.rfl, fun hs => ⟨rfl, fun hlt => hnot ⟨hs, hlt⟩⟩⟩

lemma pending_of_overdue {now : Instant} {w : World} (h : Overdue now w) {row : OutboxEvent}
    (hrow : row ∈ reclaimStuck now w.table) (hu : Unfinished row) :
    row.status = .pending ∧ row.createdAt < now - relayGraceSeconds * second := by
  obtain ⟨old, hold, _, hcreated, hattempts, hpublished, hclaimed⟩ := of_mem_reclaimed hrow
  have holdu : Unfinished old := ⟨fun hs => hu.1 (hpublished.mpr hs), hattempts ▸ hu.2⟩
  obtain ⟨hgrace, hstuck⟩ := h old hold holdu
  refine ⟨?_, hcreated ▸ hgrace⟩
  cases hs : row.status with
  | pending => rfl
  | publishing =>
    obtain ⟨rfl, hfresh⟩ := hclaimed hs
    exact absurd (hstuck hs) hfresh
  | published => exact absurd hs hu.1

lemma length_due {now : Instant} {w : World} (h : Overdue now w) :
    (due now [] (reclaimStuck now w.table)).length = min relayBatch (left w) := by
  have hdue : ∀ row ∈ reclaimStuck now w.table, ((row.status = .pending && row.createdAt <
      now - relayGraceSeconds * second && row.attempts < relayMaxAttempts && row.id ∉ ([] : List UUID)) = true ↔
        decide (Unfinished row) = true) := by
    intro row hrow
    simp only [Bool.and_eq_true, decide_eq_true_eq, List.not_mem_nil, not_false_eq_true, decide_true, and_true]
    constructor
    · rintro ⟨⟨hs, _⟩, ha⟩
      exact ⟨by simp [hs], ha⟩
    · intro hu
      exact ⟨pending_of_overdue h hrow hu, hu.2⟩
  rw [due, List.length_take, List.length_insertionSort, ← List.countP_eq_length_filter, List.countP_congr hdue,
    unfinished_reclaimed]
  rfl

lemma deliverAll_table (w : World) (todo : List Held) : (deliverAll w todo).table = w.table := by
  induction todo generalizing w with
  | nil => rfl
  | cons held todo ih => exact ih _

lemma deliverAll_inserted (w : World) (todo : List Held) : (deliverAll w todo).inserted = w.inserted := by
  induction todo generalizing w with
  | nil => rfl
  | cons held todo ih => exact ih _

lemma tick_inserted (now : Instant) (k : ℕ) (w : World) : (tick now k w).inserted = w.inserted := by
  have honce : (relayOnce now w).inserted = w.inserted := by
    rw [relayOnce]
    split
    · rfl
    · exact deliverAll_inserted _ _
  rw [tick]
  split
  · exact honce
  · exact honce

lemma loop_inserted (k : ℕ) (w : World) (times : List Instant) :
    (runOutboxRelay k w times).inserted = w.inserted := by
  induction times generalizing w k with
  | nil => rfl
  | cons now later ih => rw [runOutboxRelay, ih, tick_inserted]

lemma mem_update {ids : List UUID} {now : Instant} {set : OutboxEvent → OutboxEvent} {table : List OutboxEvent}
    {row : OutboxEvent} (h : row ∈ Outbox.update ids now set table) :
    (∃ old ∈ table, old.id ∈ ids ∧ row = { set old with updatedAt := now }) ∨ (row ∈ table ∧ row.id ∉ ids) := by
  obtain ⟨old, hold, rfl⟩ := List.mem_map.mp h
  by_cases hin : old.id ∈ ids
  · rw [if_pos hin]
    exact Or.inl ⟨old, hold, hin, rfl⟩
  · rw [if_neg hin]
    exact Or.inr ⟨hold, hin⟩

def batchIds (now : Instant) (w : World) : List UUID :=
  (due now [] (reclaimStuck now w.table)).map OutboxEvent.id

lemma relayOnce_table (now : Instant) (w : World) : (relayOnce now w).table =
    stampPublished (batchIds now w) now (claim (batchIds now w) now (reclaimStuck now w.table)) := by
  rw [relayOnce]
  split
  · rename_i hempty
    rw [batchIds, List.isEmpty_iff.mp hempty, List.map_nil, claim, stampPublished, Outbox.update, Outbox.update]
    simp
  · simp only [deliverAll_table]
    rfl

lemma of_mem_relayOnce {now : Instant} {w : World} {row : OutboxEvent} (h : row ∈ (relayOnce now w).table) :
    row.status = .published ∨ (row ∈ reclaimStuck now w.table ∧ row.id ∉ batchIds now w) := by
  rw [relayOnce_table] at h
  rcases mem_update h with ⟨old, _, _, rfl⟩ | ⟨hrow, hout⟩
  · exact Or.inl rfl
  · rcases mem_update hrow with ⟨old, _, hin, rfl⟩ | ⟨hkept, _⟩
    · exact absurd hin hout
    · exact Or.inr ⟨hkept, hout⟩

lemma update_keys {set : OutboxEvent → OutboxEvent} (hid : ∀ row, (set row).id = row.id) (ids : List UUID)
    (now : Instant) (table : List OutboxEvent) :
    (Outbox.update ids now set table).map OutboxEvent.id = table.map OutboxEvent.id := by
  rw [Outbox.update, List.map_map]
  apply List.map_congr_left
  intro row _
  rw [Function.comp_apply]
  split
  · exact hid row
  · rfl

lemma relayOnce_keys (now : Instant) (w : World) :
    (relayOnce now w).table.map OutboxEvent.id = w.table.map OutboxEvent.id := by
  have hstamp : ∀ ids table, (stampPublished ids now table).map OutboxEvent.id = table.map OutboxEvent.id :=
    fun ids table => update_keys (by intro row; rfl) ids now table
  have hclaim : ∀ ids table, (claim ids now table).map OutboxEvent.id = table.map OutboxEvent.id :=
    fun ids table => update_keys (by intro row; rfl) ids now table
  rw [relayOnce_table, hstamp, hclaim, reclaimed_keys]

lemma count_batch {table batch : List OutboxEvent} (ht : (table.map OutboxEvent.id).Nodup)
    (hb : (batch.map OutboxEvent.id).Nodup) (hsub : batch ⊆ table) :
    (table.filter (fun row => row.id ∈ batch.map OutboxEvent.id)).Perm batch := by
  apply (List.perm_ext_iff_of_nodup (ht.of_map.filter _) hb.of_map).mpr
  intro row
  rw [List.mem_filter, decide_eq_true_eq]
  constructor
  · rintro ⟨hrow, hin⟩
    obtain ⟨row', hrow', hid⟩ := List.mem_map.mp hin
    exact row_unique ht (hsub hrow') hrow hid ▸ hrow'
  · intro hrow
    exact ⟨hsub hrow, List.mem_map.mpr ⟨row, hrow, rfl⟩⟩

lemma due_unfinished {now : Instant} {table : List OutboxEvent} {row : OutboxEvent} (h : row ∈ due now [] table) :
    Unfinished row :=
  ⟨by simp [OutboxFinal.due_pending h], (mem_due h).2⟩

lemma left_relayOnce {now : Instant} {w : World} (hkeys : (w.table.map OutboxEvent.id).Nodup) (h : Overdue now w) :
    left (relayOnce now w) + min relayBatch (left w) = left w := by
  have hk : ((reclaimStuck now w.table).map OutboxEvent.id).Nodup := (reclaimed_keys now w.table).symm ▸ hkeys
  have hperm := count_batch hk (@nodup_due now [] _ hk) (fun row hrow => (mem_due hrow).1)
  have hbatch : ((reclaimStuck now w.table).filter (fun row => row.id ∈ batchIds now w)).countP
      (fun row => Unfinished row) = min relayBatch (left w) := by
    rw [batchIds, hperm.countP_eq, ← length_due h, List.countP_eq_length]
    intro row hrow
    exact decide_eq_true (due_unfinished hrow)
  have hrest : left (relayOnce now w) = ((reclaimStuck now w.table).filter
      (fun row => !decide (row.id ∈ batchIds now w))).countP (fun row => Unfinished row) := by
    rw [left, relayOnce_table, stampPublished, claim, Outbox.update, Outbox.update, List.countP_map, List.countP_map,
      List.countP_filter]
    apply List.countP_congr
    intro row _
    simp only [Function.comp_apply]
    by_cases hin : row.id ∈ batchIds now w
    · simp only [hin, if_true, decide_true, Bool.not_true, Bool.and_false, decide_eq_true_eq]
      exact ⟨fun hu => absurd rfl hu.1, fun hf => absurd hf (by simp)⟩
    · simp only [hin, if_false, decide_false, Bool.not_false, Bool.and_true]
  have hsplit := List.countP_eq_countP_filter_add (reclaimStuck now w.table) (fun row => decide (Unfinished row))
    (fun row => decide (row.id ∈ batchIds now w))
  rw [unfinished_reclaimed, hbatch] at hsplit
  have hall : left w = w.table.countP (fun row => Unfinished row) := rfl
  rw [← hrest, ← hall] at hsplit
  omega

lemma tick_table_sublist (now : Instant) (k : ℕ) (w : World) :
    (tick now k w).table.Sublist (relayOnce now w).table := by
  rw [tick]
  split
  · exact List.filter_sublist
  · exact List.Sublist.refl _

lemma Overdue.tick {t : Instant} {w : World} (h : Overdue t w) (now : Instant) (k : ℕ) : Overdue t (tick now k w) := by
  intro row hrow hu
  rcases of_mem_relayOnce ((tick_table_sublist now k w).subset hrow) with hp | ⟨hkept, _⟩
  · exact absurd hp hu.1
  · obtain ⟨old, hold, _, hcreated, hattempts, hpublished, hclaimed⟩ := of_mem_reclaimed hkept
    obtain ⟨hgrace, hstuck⟩ := h old hold ⟨fun hs => hu.1 (hpublished.mpr hs), hattempts ▸ hu.2⟩
    refine ⟨hcreated ▸ hgrace, ?_⟩
    intro hs
    obtain ⟨rfl, _⟩ := hclaimed hs
    exact hstuck hs

def Settles (v w : World) : Prop :=
  ∀ row ∈ w.table, row.status ≠ .published →
    ∃ old ∈ v.table, old.id = row.id ∧ old.attempts = row.attempts ∧ old.status ≠ .published

lemma settles_tick (now : Instant) (k : ℕ) (w : World) : Settles w (tick now k w) := by
  intro row hrow hn
  rcases of_mem_relayOnce ((tick_table_sublist now k w).subset hrow) with hp | ⟨hkept, _⟩
  · exact absurd hp hn
  · obtain ⟨old, hold, hid, _, hattempts, hpublished, _⟩ := of_mem_reclaimed hkept
    exact ⟨old, hold, hid.symm, hattempts.symm, fun hs => hn (hpublished.mpr hs)⟩

lemma left_tick {now : Instant} {w : World} (hkeys : (w.table.map OutboxEvent.id).Nodup) (h : Overdue now w) (k : ℕ) :
    left (tick now k w) ≤ left w - relayBatch := by
  have hpass := left_relayOnce hkeys h
  have hless : left (tick now k w) ≤ left (relayOnce now w) := (tick_table_sublist now k w).countP_le
  omega

lemma tick_keys {now : Instant} {k : ℕ} {w : World} (hkeys : (w.table.map OutboxEvent.id).Nodup) :
    ((tick now k w).table.map OutboxEvent.id).Nodup :=
  ((relayOnce_keys now w).symm ▸ hkeys).sublist ((tick_table_sublist now k w).map _)

lemma left_loop {w : World} {times : List Instant} (k : ℕ) (hkeys : (w.table.map OutboxEvent.id).Nodup)
    (h : ∀ now ∈ times, Overdue now w) : left (runOutboxRelay k w times) ≤ left w - relayBatch * times.length := by
  induction times generalizing w k with
  | nil => exact le_refl _
  | cons now later ih =>
    have hfirst := left_tick hkeys (h now List.mem_cons_self) k
    have hrest := ih (k + 1) (@tick_keys now k w hkeys)
      (fun t ht => (h t (List.mem_cons_of_mem now ht)).tick now k)
    rw [runOutboxRelay, List.length_cons, Nat.mul_add]
    omega

lemma settles_loop (k : ℕ) (w : World) (times : List Instant) : Settles w (runOutboxRelay k w times) := by
  induction times generalizing w k with
  | nil => exact fun row hrow hn => ⟨row, hrow, rfl, rfl, hn⟩
  | cons now later ih =>
    intro row hrow hn
    obtain ⟨mid, hmid, hid, hattempts, hmidn⟩ := ih (k + 1) (tick now k w) row hrow hn
    obtain ⟨old, hold, hid', hattempts', holdn⟩ := settles_tick now k w mid hmid hmidn
    exact ⟨old, hold, hid'.trans hid, hattempts'.trans hattempts, holdn⟩

theorem healthy_relay_drains (before : List Op) (s : State) (hs : Runs.run step start before = some s) (p : ℕ)
    (q : Process) (hp : s.processes[p]? = some q) (k : ℕ) (times : List Instant)
    (hover : ∀ now ∈ times, Overdue now s.world) (henough : left s.world ≤ relayBatch * times.length) :
    ∃ t, Runs.run step s (loopOps p q.relays.length k s.world times) = some t ∧
      t.world = runOutboxRelay k s.world times ∧ (∀ row ∈ t.world.table, ¬ Unfinished row) ∧
      ∀ row ∈ s.world.table, Unfinished row → row.id ∈ t.world.accepted := by
  have hrun := run_loop hp k times
  have hw := (reachable_ok hs).1
  have hlater := (reachable_ok (Runs.run_append hs _ ▸ hrun)).1
  have hnone : ∀ row ∈ (runOutboxRelay k s.world times).table, ¬ Unfinished row := by
    have hleft := left_loop k hw.keys hover
    have hzero : left (runOutboxRelay k s.world times) = 0 := by omega
    intro row hrow hu
    exact List.countP_eq_zero.mp hzero row hrow (decide_eq_true hu)
  refine ⟨_, hrun, rfl, hnone, ?_⟩
  intro row hrow hu
  by_cases hin : row.id ∈ (runOutboxRelay k s.world times).table.map OutboxEvent.id
  · obtain ⟨later, hlate, hid⟩ := List.mem_map.mp hin
    have hpub : later.status = .published := by
      by_contra hn
      obtain ⟨old, hold, hid', hattempts, _⟩ := settles_loop k s.world times later hlate hn
      obtain rfl := row_unique hw.keys hold hrow (hid'.trans hid)
      exact hnone later hlate ⟨hn, hattempts ▸ hu.2⟩
    exact hid ▸ hlater.published later hlate hpub
  · apply hlater.gone row.id _ hin
    rw [loop_inserted]
    exact mem_ids_of_committed (hw.known row hrow)

def twoWaiting : State :=
  ⟨⟨[publishEvent 1 "load.created" Dict.empty 0, publishEvent 2 "load.created" Dict.empty 0],
    [publishEvent 1 "load.created" Dict.empty 0, publishEvent 2 "load.created" Dict.empty 0], [], [], []⟩, [{}]⟩

theorem two_waiting_drained : ∃ t, Runs.run step twoWaiting (loopOps 0 0 0 twoWaiting.world [40 * second]) = some t ∧
    t.world = runOutboxRelay 0 twoWaiting.world [40 * second] ∧ (∀ row ∈ t.world.table, ¬ Unfinished row) ∧
    ∀ row ∈ twoWaiting.world.table, Unfinished row → row.id ∈ t.world.accepted :=
  healthy_relay_drains [.startProcess,
    .within 0 (.commit [⟨1, "load.created", Dict.empty⟩, ⟨2, "load.created", Dict.empty⟩] 0 false)] twoWaiting rfl 0 {}
    rfl 0 [40 * second] (by decide) (by decide)

end TheCargo.Events.OutboxDrain
