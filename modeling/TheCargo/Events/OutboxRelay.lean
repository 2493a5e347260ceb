import TheCargo.Events.Outbox
import TheCargo.Foundation.Runs

/-! Everybody who touches the outbox, in any interleaving: transactions that insert rows, immediate publishes, the
marks written for them, relay workers and cleanups, in any number of processes that may crash at any await. A
transaction is one step; a broker call begins in one step and returns in another. Clocks may differ: every step that
reads one brings its own reading. -/

namespace TheCargo.Events.OutboxRelay

open Foundation Models Outbox

structure Held where
  id : UUID
  routingKey : String
  payload : Payload

structure Delivery where
  row : UUID
  routingKey : String
  message : Payload

structure PublishTask where
  held : Held
  sending : Bool

/-- `relay_once`, by what it does next -/
inductive Worker
  | reclaiming
  | claiming
  | delivering (todo : List Held) (sending : Bool) (published : List UUID)
      (failed : List (UUID × String))

-- `marker` is what the coalescer has queued; a batch it has taken out is in `flushes` until its transaction ends.
structure Process where
  tasks : List PublishTask := []
  marker : List UUID := []
  flushes : List (List UUID) := []
  relays : List Worker := []

-- Beside the table: every row ever committed, every claim, every call of `publish` and every one that has returned.
structure World where
  table : List OutboxEvent
  inserted : List OutboxEvent
  claims : List UUID
  sent : List Delivery
  accepted : List UUID

structure State where
  world : World
  processes : List Process

def start : State := ⟨⟨[], [], [], [], []⟩, []⟩

inductive ProcessOp
  | commit (rows : List Held) (now : Instant) (runningLoop : Bool)
  | publishOne (i : ℕ) (ready : Bool)
  | publishReturns (i : ℕ) (ok : Bool)
  | cancelPublish (i : ℕ)
  | drainMarker
  | dropMarker
  | writeMarks (i : ℕ) (now : Instant)
  | failMarks (i : ℕ)
  | relayOnce (ready : Bool)
  | relayReclaims (i : ℕ) (now : Instant)
  | relayClaims (i : ℕ) (now : Instant) (locked : List UUID)
  | relaySends (i : ℕ) (ready : Bool)
  | relayReturns (i : ℕ) (error : Option String)
  | relayStamps (i : ℕ) (now : Instant)
  | cancelRelay (i : ℕ)

def Held.event (held : Held) (now : Instant) : OutboxEvent :=
  publishEvent held.id held.routingKey held.payload now

def Held.of (row : OutboxEvent) : Held := ⟨row.id, row.routingKey, row.payload⟩

def Held.delivery (held : Held) : Delivery :=
  ⟨held.id, held.routingKey, message held.payload held.id⟩

def World.send (w : World) (held : Held) : World := { w with sent := w.sent ++ [held.delivery] }

def World.accept (w : World) (id : UUID) : World := { w with accepted := w.accepted ++ [id] }

-- Primary keys are fresh `uuid4` values.
def World.Fresh (w : World) (rows : List Held) : Prop :=
  (rows.map Held.id).Nodup ∧ ∀ held ∈ rows, held.id ∉ w.inserted.map OutboxEvent.id

instance (w : World) (rows : List Held) : Decidable (w.Fresh rows) :=
  inferInstanceAs (Decidable (_ ∧ ∀ held ∈ rows, held.id ∉ w.inserted.map OutboxEvent.id))

def World.insert (w : World) (rows : List Held) (now : Instant) : World :=
  { w with table := w.table ++ rows.map (fun held => held.event now),
           inserted := w.inserted ++ rows.map (fun held => held.event now) }

def World.claimBatch (w : World) (batch : List OutboxEvent) (now : Instant) : World :=
  { w with table := claim (batch.map OutboxEvent.id) now w.table,
           claims := w.claims ++ batch.map OutboxEvent.id }

def processStep (w : World) (q : Process) : ProcessOp → Option (World × Process)
  | .commit rows now runningLoop =>
    if w.Fresh rows then
      some (w.insert rows now, { q with tasks := q.tasks ++ if runningLoop then rows.map (⟨·, false⟩) else [] })
    else none
  | .publishOne i ready =>
    match q.tasks[i]? with
    | some ⟨held, false⟩ =>
      if ready then some (w.send held, { q with tasks := q.tasks.set i ⟨held, true⟩ })
      else some (w, { q with tasks := q.tasks.eraseIdx i })
    | _ => none
  | .publishReturns i ok =>
    match q.tasks[i]? with
    | some ⟨held, true⟩ =>
      if ok then
        some (w.accept held.id,
          { q with tasks := q.tasks.eraseIdx i, marker := q.marker ++ [held.id] })
      else some (w, { q with tasks := q.tasks.eraseIdx i })
    | _ => none
  | .cancelPublish i => some (w, { q with tasks := q.tasks.eraseIdx i })
  | .drainMarker => some (w, { q with marker := [], flushes := q.flushes ++ [q.marker] })
  | .dropMarker => some (w, { q with marker := [] })
  | .writeMarks i now =>
    match q.flushes[i]? with
    | some ids =>
      some ({ w with table := markPublished ids now w.table }, { q with flushes := q.flushes.eraseIdx i })
    | none => none
  | .failMarks i => some (w, { q with flushes := q.flushes.eraseIdx i })
  | .relayOnce ready =>
    if ready then some (w, { q with relays := q.relays ++ [.reclaiming] }) else some (w, q)
  | .relayReclaims i now =>
    match q.relays[i]? with
    | some .reclaiming =>
      some ({ w with table := reclaimStuck now w.table }, { q with relays := q.relays.set i .claiming })
    | _ => none
  | .relayClaims i now locked =>
    match q.relays[i]? with
    | some .claiming =>
      let batch := due now locked w.table
      if batch.isEmpty then some (w, { q with relays := q.relays.eraseIdx i })
      else
        some (w.claimBatch batch now,
          { q with relays := q.relays.set i (.delivering (batch.map Held.of) false [] []) })
    | _ => none
  | .relaySends i ready =>
    match q.relays[i]? with
    | some (.delivering (held :: todo) false published failed) =>
      if ready then
        some (w.send held,
          { q with relays := q.relays.set i (.delivering (held :: todo) true published failed) })
      else
        let failed := failed ++ [(held.id, "RabbitMQ not connected")]
        some (w, { q with relays := q.relays.set i (.delivering todo false published failed) })
    | _ => none
  | .relayReturns i error =>
    match q.relays[i]? with
    | some (.delivering (held :: todo) true published failed) =>
      match error with
      | none =>
        some (w.accept held.id,
          { q with relays := q.relays.set i (.delivering todo false (published ++ [held.id]) failed) })
      | some exc =>
        let failed := failed ++ [(held.id, String.ofList (exc.toList.take 500))]
        some (w, { q with relays := q.relays.set i (.delivering todo false published failed) })
    | _ => none
  | .relayStamps i now =>
    match q.relays[i]? with
    | some (.delivering [] false published failed) =>
      some ({ w with table := stampFailed failed now (stampPublished published now w.table) },
        { q with relays := q.relays.eraseIdx i })
    | _ => none
  | .cancelRelay i => some (w, { q with relays := q.relays.eraseIdx i })

inductive Op
  | startProcess
  | crash (p : ℕ)
  | within (p : ℕ) (op : ProcessOp)
  | reclaimStuck (now : Instant)
  | cleanupPublished (now : Instant) (olderThanDays : Instant)

def step (s : State) : Op → Option State
  | .startProcess => some { s with processes := s.processes ++ [{}] }
  | .crash p => some { s with processes := s.processes.eraseIdx p }
  | .within p op =>
    match s.processes[p]? with
    | none => none
    | some q => (processStep s.world q op).map (fun r => ⟨r.1, s.processes.set p r.2⟩)
  | .reclaimStuck now =>
    some { s with world := { s.world with table := Outbox.reclaimStuck now s.world.table } }
  | .cleanupPublished now olderThanDays =>
    some { s with world :=
      { s.world with table := Outbox.cleanupPublished now olderThanDays s.world.table } }

def World.committed (w : World) : List Held := w.inserted.map Held.of

structure WorldOk (w : World) : Prop where
  fresh : (w.inserted.map OutboxEvent.id).Nodup
  keys : (w.table.map OutboxEvent.id).Nodup
  known : ∀ row ∈ w.table, Held.of row ∈ w.committed
  claimed : ∀ id ∈ w.claims, id ∈ w.inserted.map OutboxEvent.id
  counted : ∀ row ∈ w.table, w.claims.count row.id ≤ row.attempts
  bounded : ∀ id, w.claims.count id ≤ relayMaxAttempts
  published : ∀ row ∈ w.table, row.status = .published → row.id ∈ w.accepted
  gone : ∀ id ∈ w.inserted.map OutboxEvent.id, id ∉ w.table.map OutboxEvent.id → id ∈ w.accepted
  sent : ∀ d ∈ w.sent, ∃ held ∈ w.committed, d = held.delivery

def Worker.Ok (w : World) : Worker → Prop
  | .delivering todo _ published _ => todo ⊆ w.committed ∧ published ⊆ w.accepted
  | _ => True

structure ProcessOk (w : World) (q : Process) : Prop where
  tasks : ∀ t ∈ q.tasks, t.held ∈ w.committed
  marker : q.marker ⊆ w.accepted
  flushes : ∀ ids ∈ q.flushes, ids ⊆ w.accepted
  relays : ∀ r ∈ q.relays, r.Ok w

structure World.Grows (w v : World) : Prop where
  committed : w.committed ⊆ v.committed
  accepted : w.accepted ⊆ v.accepted

lemma Grows.refl (w : World) : w.Grows w := ⟨fun _ h => h, fun _ h => h⟩

lemma Worker.Ok.grow {w v : World} {r : Worker} (h : r.Ok w) (hg : w.Grows v) : r.Ok v := by
  cases r with
  | reclaiming => trivial
  | claiming => trivial
  | delivering todo sending published failed =>
    exact ⟨List.Subset.trans h.1 hg.committed, List.Subset.trans h.2 hg.accepted⟩

lemma ProcessOk.grow {w v : World} {q : Process} (h : ProcessOk w q) (hg : w.Grows v) :
    ProcessOk v q where
  tasks t ht := hg.committed (h.tasks t ht)
  marker := List.Subset.trans h.marker hg.accepted
  flushes ids hids := List.Subset.trans (h.flushes ids hids) hg.accepted
  relays r hr := (h.relays r hr).grow hg

lemma WorldOk.mapTable {w : World} (h : WorldOk w) {f : OutboxEvent → OutboxEvent}
    (hheld : ∀ row, Held.of (f row) = Held.of row) (hattempts : ∀ row, row.attempts ≤ (f row).attempts)
    (hpublished : ∀ row ∈ w.table, (f row).status = .published →
      row.status = .published ∨ row.id ∈ w.accepted) :
    WorldOk { w with table := w.table.map f } := by
  have hid : ∀ row, (f row).id = row.id := fun row => congrArg Held.id (hheld row)
  have hkeys : (w.table.map f).map OutboxEvent.id = w.table.map OutboxEvent.id := by
    rw [List.map_map]
    exact List.map_congr_left (fun row _ => hid row)
  refine ⟨h.fresh, ?_, ?_, h.claimed, ?_, h.bounded, ?_, ?_, h.sent⟩
  · rw [hkeys]
    exact h.keys
  · intro row hrow
    obtain ⟨old, hold, rfl⟩ := List.mem_map.mp hrow
    rw [hheld]
    exact h.known old hold
  · intro row hrow
    obtain ⟨old, hold, rfl⟩ := List.mem_map.mp hrow
    rw [hid]
    exact le_trans (h.counted old hold) (hattempts old)
  · intro row hrow hs
    obtain ⟨old, hold, rfl⟩ := List.mem_map.mp hrow
    rw [hid]
    rcases hpublished old hold hs with hp | ha
    · exact h.published old hold hp
    · exact ha
  · intro id hi hn
    rw [hkeys] at hn
    exact h.gone id hi hn

lemma WorldOk.update {w : World} (h : WorldOk w) {ids : List UUID} {now : Instant}
    {set : OutboxEvent → OutboxEvent} (hheld : ∀ row, Held.of (set row) = Held.of row)
    (hattempts : ∀ row, row.attempts ≤ (set row).attempts)
    (hpublished : ids ⊆ w.accepted ∨ ∀ row, (set row).status ≠ .published) :
    WorldOk { w with table := Outbox.update ids now set w.table } := by
  apply h.mapTable
  · intro row
    split
    · exact hheld row
    · rfl
  · intro row
    split
    · exact hattempts row
    · exact le_refl _
  · intro row _ hs
    split at hs
    · rename_i hi
      rcases hpublished with ha | hn
      · exact Or.inr (ha hi)
      · exact absurd hs (hn row)
    · exact Or.inl hs

lemma WorldOk.reclaimStuck {w : World} (h : WorldOk w) (now : Instant) :
    WorldOk { w with table := Outbox.reclaimStuck now w.table } := by
  apply h.mapTable
  · intro row
    split <;> rfl
  · intro row
    split <;> exact le_refl _
  · intro row _ hs
    split at hs
    · exact absurd hs (by simp)
    · exact Or.inl hs

lemma WorldOk.stampFailed {w : World} (h : WorldOk w) (failed : List (UUID × String)) (now : Instant) :
    WorldOk { w with table := Outbox.stampFailed failed now w.table } := by
  induction failed generalizing w with
  | nil => exact h
  | cons e failed ih =>
    apply ih (w := { w with table := Outbox.update [e.1] now _ w.table })
    exact h.update (fun _ => rfl) (fun _ => le_refl _) (Or.inr (fun _ => by simp))

lemma WorldOk.cleanupPublished {w : World} (h : WorldOk w) (now olderThanDays : Instant) :
    WorldOk { w with table := Outbox.cleanupPublished now olderThanDays w.table } := by
  have hsub : Outbox.cleanupPublished now olderThanDays w.table ⊆ w.table :=
    fun row hrow => (List.mem_filter.mp hrow).1
  refine ⟨h.fresh, ?_, fun row hrow => h.known row (hsub hrow), h.claimed,
    fun row hrow => h.counted row (hsub hrow), h.bounded,
    fun row hrow => h.published row (hsub hrow), ?_, h.sent⟩
  · exact h.keys.sublist (List.filter_sublist.map _)
  · intro id hi hn
    by_cases ht : id ∈ w.table.map OutboxEvent.id
    · obtain ⟨row, hrow, rfl⟩ := List.mem_map.mp ht
      apply h.published row hrow
      by_contra hp
      refine hn (List.mem_map.mpr ⟨row, List.mem_filter.mpr ⟨hrow, ?_⟩, rfl⟩)
      exact decide_eq_true (fun hd => hp hd.1)
    · exact h.gone id hi ht

lemma mem_ids_of_committed {w : World} {held : Held} (h : held ∈ w.committed) :
    held.id ∈ w.inserted.map OutboxEvent.id := by
  obtain ⟨row, hrow, rfl⟩ := List.mem_map.mp h
  exact List.mem_map.mpr ⟨row, hrow, rfl⟩

lemma WorldOk.count_fresh {w : World} (h : WorldOk w) {id : UUID}
    (hid : id ∉ w.inserted.map OutboxEvent.id) : w.claims.count id = 0 :=
  List.count_eq_zero.mpr (fun hc => hid (h.claimed id hc))

lemma insert_ids (rows : List Held) (now : Instant) :
    (rows.map (fun held => held.event now)).map OutboxEvent.id = rows.map Held.id := by
  rw [List.map_map]
  rfl

lemma nodup_insert {table : List OutboxEvent} {rows : List Held} {now : Instant}
    (ht : (table.map OutboxEvent.id).Nodup) (hr : (rows.map Held.id).Nodup)
    (hd : ∀ held ∈ rows, held.id ∉ table.map OutboxEvent.id) :
    ((table ++ rows.map (fun held => held.event now)).map OutboxEvent.id).Nodup := by
  rw [List.map_append, insert_ids, List.nodup_append]
  refine ⟨ht, hr, ?_⟩
  rintro id hid _ hid' rfl
  obtain ⟨held, hheld, rfl⟩ := List.mem_map.mp hid'
  exact hd held hheld hid

lemma grows_insert (w : World) (rows : List Held) (now : Instant) : w.Grows (w.insert rows now) :=
  ⟨fun held h => by rw [World.committed, World.insert, List.map_append]; exact List.mem_append_left _ h,
    fun _ h => h⟩

lemma committed_insert {w : World} {rows : List Held} {now : Instant} {held : Held} (h : held ∈ rows) :
    held ∈ (w.insert rows now).committed := by
  apply List.mem_map.mpr
  exact ⟨held.event now, List.mem_append_right _ (List.mem_map.mpr ⟨held, h, rfl⟩), rfl⟩

lemma WorldOk.insert {w : World} (h : WorldOk w) {rows : List Held} (hf : w.Fresh rows)
    (now : Instant) : WorldOk (w.insert rows now) := by
  have hg := grows_insert w rows now
  have hnew : ∀ held ∈ rows, held.id ∉ w.table.map OutboxEvent.id := by
    intro held hheld ht
    obtain ⟨row, hrow, hid⟩ := List.mem_map.mp ht
    exact hf.2 held hheld (hid ▸ mem_ids_of_committed (h.known row hrow))
  have htable : ∀ row ∈ (w.insert rows now).table,
      row ∈ w.table ∨ ∃ held ∈ rows, row = held.event now := by
    intro row hrow
    rcases List.mem_append.mp hrow with ht | hr
    · exact Or.inl ht
    · obtain ⟨held, hheld, rfl⟩ := List.mem_map.mp hr
      exact Or.inr ⟨held, hheld, rfl⟩
  refine ⟨nodup_insert h.fresh hf.1 hf.2, nodup_insert h.keys hf.1 hnew, ?_, ?_, ?_, h.bounded, ?_, ?_, ?_⟩
  · intro row hrow
    rcases htable row hrow with ht | ⟨held, hheld, rfl⟩
    · exact hg.committed (h.known row ht)
    · exact committed_insert hheld
  · intro id hid
    rw [World.insert, List.map_append]
    exact List.mem_append_left _ (h.claimed id hid)
  · intro row hrow
    rcases htable row hrow with ht | ⟨held, hheld, rfl⟩
    · exact h.counted row ht
    · exact le_of_eq_of_le (h.count_fresh (hf.2 held hheld)) (Nat.zero_le _)
  · intro row hrow hs
    rcases htable row hrow with ht | ⟨held, hheld, rfl⟩
    · exact h.published row ht hs
    · exact absurd hs (by simp [Held.event, publishEvent])
  · intro id hid hn
    rw [World.insert, List.map_append, List.mem_append] at hid hn
    rcases hid with hi | hr
    · exact h.gone id hi (fun ht => hn (Or.inl ht))
    · exact absurd (Or.inr hr) hn
  · intro d hd
    obtain ⟨held, hheld, rfl⟩ := h.sent d hd
    exact ⟨held, hg.committed hheld, rfl⟩

lemma due_perm (now : Instant) (locked : List UUID) (table : List OutboxEvent) :
    ∃ rows, (due now locked table).Sublist rows ∧ List.Perm rows (table.filter (fun (row : OutboxEvent) =>
      row.status = .pending && row.createdAt < now - relayGraceSeconds * second &&
        row.attempts < relayMaxAttempts && row.id ∉ locked)) :=
  ⟨_, List.take_sublist _ _, List.perm_insertionSort _ _⟩

lemma mem_due {now : Instant} {locked : List UUID} {table : List OutboxEvent} {row : OutboxEvent}
    (h : row ∈ due now locked table) : row ∈ table ∧ row.attempts < relayMaxAttempts := by
  obtain ⟨rows, hsub, hperm⟩ := due_perm now locked table
  have hf := List.mem_filter.mp (hperm.mem_iff.mp (hsub.subset h))
  simp only [Bool.and_eq_true, decide_eq_true_eq] at hf
  exact ⟨hf.1, hf.2.1.2⟩

lemma nodup_due {now : Instant} {locked : List UUID} {table : List OutboxEvent}
    (h : (table.map OutboxEvent.id).Nodup) : ((due now locked table).map OutboxEvent.id).Nodup := by
  obtain ⟨rows, hsub, hperm⟩ := due_perm now locked table
  have hr : (rows.map OutboxEvent.id).Nodup :=
    (hperm.map OutboxEvent.id).nodup_iff.mpr (h.sublist (List.filter_sublist.map _))
  exact hr.sublist (hsub.map _)

lemma row_unique {table : List OutboxEvent} (h : (table.map OutboxEvent.id).Nodup) {a b : OutboxEvent}
    (ha : a ∈ table) (hb : b ∈ table) (hid : a.id = b.id) : a = b :=
  List.inj_on_of_nodup_map h ha hb hid

lemma WorldOk.claimBatch {w : World} (h : WorldOk w) (now : Instant) (locked : List UUID) :
    WorldOk (w.claimBatch (due now locked w.table) now) := by
  have hclaim : WorldOk { w with table := claim ((due now locked w.table).map OutboxEvent.id) now w.table } :=
    h.update (fun _ => rfl) (fun row => Nat.le_succ row.attempts) (Or.inr (fun _ => by simp))
  have hnodup : ((due now locked w.table).map OutboxEvent.id).Nodup := nodup_due h.keys
  have hcount : ∀ id, (w.claims ++ (due now locked w.table).map OutboxEvent.id).count id =
      w.claims.count id + if id ∈ (due now locked w.table).map OutboxEvent.id then 1 else 0 := by
    intro id
    rw [List.count_append]
    congr 1
    split
    · exact List.count_eq_one_of_mem hnodup ‹_›
    · exact List.count_eq_zero.mpr ‹_›
  refine ⟨h.fresh, hclaim.keys, hclaim.known, ?_, ?_, ?_, hclaim.published, hclaim.gone, h.sent⟩
  · intro id hid
    rcases List.mem_append.mp hid with hc | hd
    · exact h.claimed id hc
    · obtain ⟨row, hrow, rfl⟩ := List.mem_map.mp hd
      exact mem_ids_of_committed (h.known row (mem_due hrow).1)
  · intro row hrow
    obtain ⟨old, hold, rfl⟩ := List.mem_map.mp hrow
    have hc := h.counted old hold
    by_cases hi : old.id ∈ (due now locked w.table).map OutboxEvent.id
    · simp only [World.claimBatch, hcount, if_pos hi]
      exact Nat.succ_le_succ hc
    · simp only [World.claimBatch, hcount, if_neg hi]
      exact hc
  · intro id
    simp only [World.claimBatch, hcount]
    split
    · rename_i hi
      obtain ⟨row, hrow, rfl⟩ := List.mem_map.mp hi
      have hc := h.counted row (mem_due hrow).1
      have ha := (mem_due hrow).2
      omega
    · exact h.bounded id

lemma WorldOk.send {w : World} (h : WorldOk w) {held : Held} (hheld : held ∈ w.committed) :
    WorldOk (w.send held) := by
  refine ⟨h.fresh, h.keys, h.known, h.claimed, h.counted, h.bounded, h.published, h.gone, ?_⟩
  intro d hd
  rcases List.mem_append.mp hd with hs | hn
  · exact h.sent d hs
  · exact ⟨held, hheld, List.mem_singleton.mp hn⟩

lemma grows_accept (w : World) (id : UUID) : w.Grows (w.accept id) :=
  ⟨fun _ h => h, fun _ h => List.mem_append_left _ h⟩

lemma WorldOk.accept {w : World} (h : WorldOk w) (id : UUID) : WorldOk (w.accept id) := by
  have hg := grows_accept w id
  exact ⟨h.fresh, h.keys, h.known, h.claimed, h.counted, h.bounded,
    fun row hrow hs => hg.accepted (h.published row hrow hs),
    fun id hid hn => hg.accepted (h.gone id hid hn), h.sent⟩

def StateOk (s : State) : Prop := WorldOk s.world ∧ ∀ q ∈ s.processes, ProcessOk s.world q

structure Advance (w : World) (r : World × Process) : Prop where
  world : WorldOk r.1
  process : ProcessOk r.1 r.2
  grows : w.Grows r.1

lemma task_of_getElem? {w : World} {q : Process} (h : ProcessOk w q) {i : ℕ} {t : PublishTask}
    (ht : q.tasks[i]? = some t) : t.held ∈ w.committed :=
  h.tasks t (List.mem_of_getElem? ht)

lemma ProcessOk.eraseTask {w : World} {q : Process} (h : ProcessOk w q) (i : ℕ) :
    ProcessOk w { q with tasks := q.tasks.eraseIdx i } :=
  ⟨fun t ht => h.tasks t (List.mem_of_mem_eraseIdx ht), h.marker, h.flushes, h.relays⟩

lemma ProcessOk.eraseFlush {w : World} {q : Process} (h : ProcessOk w q) (i : ℕ) :
    ProcessOk w { q with flushes := q.flushes.eraseIdx i } :=
  ⟨h.tasks, h.marker, fun ids hids => h.flushes ids (List.mem_of_mem_eraseIdx hids), h.relays⟩

lemma ProcessOk.eraseRelay {w : World} {q : Process} (h : ProcessOk w q) (i : ℕ) :
    ProcessOk w { q with relays := q.relays.eraseIdx i } :=
  ⟨h.tasks, h.marker, h.flushes, fun r hr => h.relays r (List.mem_of_mem_eraseIdx hr)⟩

lemma ProcessOk.setRelay {w : World} {q : Process} (h : ProcessOk w q) (i : ℕ) {r : Worker}
    (hr : r.Ok w) : ProcessOk w { q with relays := q.relays.set i r } := by
  refine ⟨h.tasks, h.marker, h.flushes, ?_⟩
  intro r' hr'
  rcases List.mem_or_eq_of_mem_set hr' with hold | rfl
  · exact h.relays r' hold
  · exact hr

lemma ProcessOk.addTasks {w : World} {q : Process} (h : ProcessOk w q) {ts : List PublishTask}
    (hts : ∀ t ∈ ts, t.held ∈ w.committed) : ProcessOk w { q with tasks := q.tasks ++ ts } := by
  refine ⟨?_, h.marker, h.flushes, h.relays⟩
  intro t ht
  rcases List.mem_append.mp ht with hold | hnew
  · exact h.tasks t hold
  · exact hts t hnew

lemma ProcessOk.setTask {w : World} {q : Process} (h : ProcessOk w q) (i : ℕ) {t : PublishTask}
    (ht : t.held ∈ w.committed) : ProcessOk w { q with tasks := q.tasks.set i t } := by
  refine ⟨?_, h.marker, h.flushes, h.relays⟩
  intro t' ht'
  rcases List.mem_or_eq_of_mem_set ht' with hold | rfl
  · exact h.tasks t' hold
  · exact ht

lemma ProcessOk.mark {w : World} {q : Process} (h : ProcessOk w q) {id : UUID} (hid : id ∈ w.accepted) :
    ProcessOk w { q with marker := q.marker ++ [id] } := by
  refine ⟨h.tasks, ?_, h.flushes, h.relays⟩
  intro id' hid'
  rcases List.mem_append.mp hid' with hold | hnew
  · exact h.marker hold
  · exact List.mem_singleton.mp hnew ▸ hid

lemma ProcessOk.drainMarker {w : World} {q : Process} (h : ProcessOk w q) :
    ProcessOk w { q with marker := [], flushes := q.flushes ++ [q.marker] } := by
  refine ⟨h.tasks, List.nil_subset _, ?_, h.relays⟩
  intro ids hids
  rcases List.mem_append.mp hids with hold | hnew
  · exact h.flushes ids hold
  · exact List.mem_singleton.mp hnew ▸ h.marker

lemma ProcessOk.addRelay {w : World} {q : Process} (h : ProcessOk w q) {r : Worker} (hr : r.Ok w) :
    ProcessOk w { q with relays := q.relays ++ [r] } := by
  refine ⟨h.tasks, h.marker, h.flushes, ?_⟩
  intro r' hr'
  rcases List.mem_append.mp hr' with hold | hnew
  · exact h.relays r' hold
  · exact List.mem_singleton.mp hnew ▸ hr

lemma delivering_of_getElem? {w : World} {q : Process} (h : ProcessOk w q) {i : ℕ} {todo : List Held} {sending : Bool}
    {published : List UUID} {failed : List (UUID × String)}
    (hr : q.relays[i]? = some (.delivering todo sending published failed)) :
    todo ⊆ w.committed ∧ published ⊆ w.accepted :=
  h.relays _ (List.mem_of_getElem? hr)

inductive Moves (w : World) (q : Process) : ProcessOp → World × Process → Prop
  | commit (rows : List Held) (now : Instant) (runningLoop : Bool) (fresh : w.Fresh rows) :
      Moves w q (.commit rows now runningLoop)
        (w.insert rows now, { q with tasks := q.tasks ++ if runningLoop then rows.map (⟨·, false⟩) else [] })
  | publishes (i : ℕ) (held : Held) (task : q.tasks[i]? = some ⟨held, false⟩) :
      Moves w q (.publishOne i true) (w.send held, { q with tasks := q.tasks.set i ⟨held, true⟩ })
  | accepted (i : ℕ) (held : Held) (task : q.tasks[i]? = some ⟨held, true⟩) :
      Moves w q (.publishReturns i true)
        (w.accept held.id, { q with tasks := q.tasks.eraseIdx i, marker := q.marker ++ [held.id] })
  | dropsTask (op : ProcessOp) (i : ℕ) : Moves w q op (w, { q with tasks := q.tasks.eraseIdx i })
  | drainMarker : Moves w q .drainMarker (w, { q with marker := [], flushes := q.flushes ++ [q.marker] })
  | dropMarker : Moves w q .dropMarker (w, { q with marker := [] })
  | writeMarks (i : ℕ) (now : Instant) (ids : List UUID) (flush : q.flushes[i]? = some ids) :
      Moves w q (.writeMarks i now)
        ({ w with table := markPublished ids now w.table }, { q with flushes := q.flushes.eraseIdx i })
  | failMarks (i : ℕ) : Moves w q (.failMarks i) (w, { q with flushes := q.flushes.eraseIdx i })
  | relays : Moves w q (.relayOnce true) (w, { q with relays := q.relays ++ [.reclaiming] })
  | idle : Moves w q (.relayOnce false) (w, q)
  | reclaims (i : ℕ) (now : Instant) (relay : q.relays[i]? = some .reclaiming) :
      Moves w q (.relayReclaims i now)
        ({ w with table := reclaimStuck now w.table }, { q with relays := q.relays.set i .claiming })
  | claims (i : ℕ) (now : Instant) (locked : List UUID) (relay : q.relays[i]? = some .claiming) :
      Moves w q (.relayClaims i now locked) (w.claimBatch (due now locked w.table) now,
        { q with relays := q.relays.set i (.delivering ((due now locked w.table).map Held.of) false [] []) })
  | sends (i : ℕ) (held : Held) (todo : List Held) (published : List UUID) (failed : List (UUID × String))
      (relay : q.relays[i]? = some (.delivering (held :: todo) false published failed)) :
      Moves w q (.relaySends i true)
        (w.send held, { q with relays := q.relays.set i (.delivering (held :: todo) true published failed) })
  | returned (i : ℕ) (held : Held) (todo : List Held) (published : List UUID) (failed : List (UUID × String))
      (relay : q.relays[i]? = some (.delivering (held :: todo) true published failed)) :
      Moves w q (.relayReturns i none) (w.accept held.id,
        { q with relays := q.relays.set i (.delivering todo false (published ++ [held.id]) failed) })
  | fails (op : ProcessOp) (i : ℕ) (held : Held) (todo : List Held) (sending : Bool) (published : List UUID)
      (failed failed' : List (UUID × String))
      (relay : q.relays[i]? = some (.delivering (held :: todo) sending published failed)) :
      Moves w q op (w, { q with relays := q.relays.set i (.delivering todo false published failed') })
  | stamps (i : ℕ) (now : Instant) (published : List UUID) (failed : List (UUID × String))
      (relay : q.relays[i]? = some (.delivering [] false published failed)) :
      Moves w q (.relayStamps i now)
        ({ w with table := stampFailed failed now (stampPublished published now w.table) },
          { q with relays := q.relays.eraseIdx i })
  | ends (op : ProcessOp) (i : ℕ) : Moves w q op (w, { q with relays := q.relays.eraseIdx i })

lemma processStep_moves {w : World} {q : Process} {op : ProcessOp} {r : World × Process}
    (h : processStep w q op = some r) : Moves w q op r := by
  cases op with
  | commit rows now runningLoop =>
    simp only [processStep] at h
    split at h
    · rename_i hfresh
      obtain rfl := Option.some.inj h
      exact .commit rows now runningLoop hfresh
    · exact absurd h (by simp)
  | publishOne i ready =>
    simp only [processStep] at h
    split at h
    · rename_i held ht
      cases ready with
      | true =>
        obtain rfl := Option.some.inj h
        exact .publishes i held ht
      | false =>
        obtain rfl := Option.some.inj h
        exact .dropsTask _ i
    · exact absurd h (by simp)
  | publishReturns i ok =>
    simp only [processStep] at h
    split at h
    · rename_i held ht
      cases ok with
      | true =>
        obtain rfl := Option.some.inj h
        exact .accepted i held ht
      | false =>
        obtain rfl := Option.some.inj h
        exact .dropsTask _ i
    · exact absurd h (by simp)
  | cancelPublish i =>
    obtain rfl := Option.some.inj h
    exact .dropsTask _ i
  | drainMarker =>
    obtain rfl := Option.some.inj h
    exact .drainMarker
  | dropMarker =>
    obtain rfl := Option.some.inj h
    exact .dropMarker
  | writeMarks i now =>
    simp only [processStep] at h
    split at h
    · rename_i ids hids
      obtain rfl := Option.some.inj h
      exact .writeMarks i now ids hids
    · exact absurd h (by simp)
  | failMarks i =>
    obtain rfl := Option.some.inj h
    exact .failMarks i
  | relayOnce ready =>
    cases ready with
    | true =>
      obtain rfl := Option.some.inj h
      exact .relays
    | false =>
      obtain rfl := Option.some.inj h
      exact .idle
  | relayReclaims i now =>
    simp only [processStep] at h
    split at h
    · rename_i hr
      obtain rfl := Option.some.inj h
      exact .reclaims i now hr
    · exact absurd h (by simp)
  | relayClaims i now locked =>
    simp only [processStep] at h
    split at h
    · rename_i hr
      split at h
      · obtain rfl := Option.some.inj h
        exact .ends _ i
      · obtain rfl := Option.some.inj h
        exact .claims i now locked hr
    · exact absurd h (by simp)
  | relaySends i ready =>
    simp only [processStep] at h
    split at h
    · rename_i held todo published failed hr
      cases ready with
      | true =>
        obtain rfl := Option.some.inj h
        exact .sends i held todo published failed hr
      | false =>
        obtain rfl := Option.some.inj h
        exact .fails _ i held todo false published failed _ hr
    · exact absurd h (by simp)
  | relayReturns i error =>
    simp only [processStep] at h
    split at h
    · rename_i held todo published failed hr
      cases error with
      | none =>
        obtain rfl := Option.some.inj h
        exact .returned i held todo published failed hr
      | some exc =>
        obtain rfl := Option.some.inj h
        exact .fails _ i held todo true published failed _ hr
    · exact absurd h (by simp)
  | relayStamps i now =>
    simp only [processStep] at h
    split at h
    · rename_i published failed hr
      obtain rfl := Option.some.inj h
      exact .stamps i now published failed hr
    · exact absurd h (by simp)
  | cancelRelay i =>
    obtain rfl := Option.some.inj h
    exact .ends _ i

lemma processStep_ok {w : World} {q : Process} {op : ProcessOp} {r : World × Process}
    (hw : WorldOk w) (hq : ProcessOk w q) (h : processStep w q op = some r) : Advance w r := by
  cases processStep_moves h with
  | commit rows now runningLoop hfresh =>
    have hg := grows_insert w rows now
    refine ⟨hw.insert hfresh now, (hq.grow hg).addTasks ?_, hg⟩
    intro t ht
    cases runningLoop with
    | false => exact absurd ht List.not_mem_nil
    | true =>
      obtain ⟨held, hheld, rfl⟩ := List.mem_map.mp ht
      exact committed_insert hheld
  | publishes i held ht =>
    have hheld := task_of_getElem? hq ht
    have hg : w.Grows (w.send held) := ⟨fun _ h => h, fun _ h => h⟩
    exact ⟨hw.send hheld, (hq.grow hg).setTask i hheld, hg⟩
  | accepted i held ht =>
    have hg := grows_accept w held.id
    have hid : held.id ∈ (w.accept held.id).accepted := List.mem_append_right _ List.mem_cons_self
    exact ⟨hw.accept held.id, ((hq.eraseTask i).grow hg).mark hid, hg⟩
  | dropsTask op i => exact ⟨hw, hq.eraseTask i, Grows.refl w⟩
  | drainMarker => exact ⟨hw, hq.drainMarker, Grows.refl w⟩
  | dropMarker => exact ⟨hw, ⟨hq.tasks, List.nil_subset _, hq.flushes, hq.relays⟩, Grows.refl w⟩
  | writeMarks i now ids hids =>
    have ha := hq.flushes ids (List.mem_of_getElem? hids)
    have hw' : WorldOk { w with table := markPublished ids now w.table } :=
      hw.update (fun _ => rfl) (fun row => Nat.le_succ row.attempts) (Or.inl ha)
    have hg : w.Grows { w with table := markPublished ids now w.table } := ⟨fun _ h => h, fun _ h => h⟩
    exact ⟨hw', (hq.eraseFlush i).grow hg, hg⟩
  | failMarks i => exact ⟨hw, hq.eraseFlush i, Grows.refl w⟩
  | relays => exact ⟨hw, hq.addRelay trivial, Grows.refl w⟩
  | idle => exact ⟨hw, hq, Grows.refl w⟩
  | reclaims i now hr =>
    have hg : w.Grows { w with table := reclaimStuck now w.table } := ⟨fun _ h => h, fun _ h => h⟩
    exact ⟨hw.reclaimStuck now, (hq.grow hg).setRelay i trivial, hg⟩
  | claims i now locked hr =>
    have hg : w.Grows (w.claimBatch (due now locked w.table) now) := ⟨fun _ h => h, fun _ h => h⟩
    refine ⟨hw.claimBatch now locked, (hq.grow hg).setRelay i ⟨?_, List.nil_subset _⟩, hg⟩
    intro held hheld
    obtain ⟨row, hrow, rfl⟩ := List.mem_map.mp hheld
    exact hw.known row (mem_due hrow).1
  | sends i held todo published failed hr =>
    have hok := delivering_of_getElem? hq hr
    have hg : w.Grows (w.send held) := ⟨fun _ h => h, fun _ h => h⟩
    exact ⟨hw.send (hok.1 List.mem_cons_self), (hq.grow hg).setRelay i hok, hg⟩
  | returned i held todo published failed hr =>
    obtain ⟨htodo, hpublished⟩ := delivering_of_getElem? hq hr
    have hrest := List.Subset.trans (List.subset_cons_self held todo) htodo
    have hg := grows_accept w held.id
    refine ⟨hw.accept held.id, (hq.grow hg).setRelay i ⟨hrest, ?_⟩, hg⟩
    exact List.append_subset.mpr ⟨List.Subset.trans hpublished hg.accepted, List.subset_append_right _ _⟩
  | fails op i held todo sending published failed failed' hr =>
    obtain ⟨htodo, hpublished⟩ := delivering_of_getElem? hq hr
    have hrest := List.Subset.trans (List.subset_cons_self held todo) htodo
    exact ⟨hw, hq.setRelay i ⟨hrest, hpublished⟩, Grows.refl w⟩
  | stamps i now published failed hr =>
    obtain ⟨-, hpublished⟩ := delivering_of_getElem? hq hr
    have hpub : WorldOk { w with table := stampPublished published now w.table } :=
      hw.update (fun _ => rfl) (fun _ => le_refl _) (Or.inl hpublished)
    have hg : w.Grows { w with table := Outbox.stampFailed failed now (stampPublished published now w.table) } :=
      ⟨fun _ h => h, fun _ h => h⟩
    exact ⟨hpub.stampFailed failed now, (hq.eraseRelay i).grow hg, hg⟩
  | ends op i => exact ⟨hw, hq.eraseRelay i, Grows.refl w⟩

lemma step_ok (s : State) (op : Op) (t : State) (hs : StateOk s) (h : step s op = some t) : StateOk t := by
  have hgrow : ∀ table, s.world.Grows { s.world with table := table } := fun _ => ⟨fun _ h => h, fun _ h => h⟩
  cases op with
  | startProcess =>
    obtain rfl := Option.some.inj h
    refine ⟨hs.1, ?_⟩
    intro q hq
    rcases List.mem_append.mp hq with hold | hnew
    · exact hs.2 q hold
    · rw [List.mem_singleton.mp hnew]
      constructor <;> simp
  | crash p =>
    obtain rfl := Option.some.inj h
    exact ⟨hs.1, fun q hq => hs.2 q (List.mem_of_mem_eraseIdx hq)⟩
  | within p op =>
    simp only [step] at h
    split at h
    · exact absurd h (by simp)
    · rename_i q hp
      obtain ⟨r, hr, rfl⟩ := Option.map_eq_some_iff.mp h
      have ha := processStep_ok hs.1 (hs.2 q (List.mem_of_getElem? hp)) hr
      refine ⟨ha.world, ?_⟩
      intro q' hq'
      rcases List.mem_or_eq_of_mem_set hq' with hold | rfl
      · exact (hs.2 q' hold).grow ha.grows
      · exact ha.process
  | reclaimStuck now =>
    obtain rfl := Option.some.inj h
    exact ⟨hs.1.reclaimStuck now, fun q hq => (hs.2 q hq).grow (hgrow _)⟩
  | cleanupPublished now olderThanDays =>
    obtain rfl := Option.some.inj h
    exact ⟨hs.1.cleanupPublished now olderThanDays, fun q hq => (hs.2 q hq).grow (hgrow _)⟩

lemma start_ok : StateOk start := by
  refine ⟨⟨List.nodup_nil, List.nodup_nil, ?_, ?_, ?_, ?_, ?_, ?_, ?_⟩, ?_⟩ <;> simp [start]

lemma reachable_ok {ops : List Op} {s : State} (h : Runs.run step start ops = some s) : StateOk s :=
  Runs.run_invariant step_ok start_ok h

lemma message_named (payload : Payload) (id : UUID) :
    ∃ name, (message payload id).get? "event_id" = some name ∧ name.truthy = true := by
  have hstamp : ∃ name, (payload.set "event_id" (.str id.str)).get? "event_id" = some name ∧
      name.truthy = true := by
    refine ⟨.str id.str, by rw [Dict.get?_set, if_pos rfl], ?_⟩
    apply decide_eq_true
    intro he
    have hl := congrArg (fun s => s.toList.length) he
    simp [UUID.str] at hl
  simp only [message]
  split
  · rename_i named hn
    split_ifs with ht
    · exact ⟨named, hn, ht⟩
    · exact hstamp
  · exact hstamp

lemma WorldOk.same_message {w : World} (h : WorldOk w) {d e : Delivery} (hd : d ∈ w.sent)
    (he : e ∈ w.sent) (hrow : d.row = e.row) : d.message = e.message := by
  obtain ⟨held, hheld, rfl⟩ := h.sent d hd
  obtain ⟨held', hheld', rfl⟩ := h.sent e he
  obtain ⟨a, ha, rfl⟩ := List.mem_map.mp hheld
  obtain ⟨b, hb, rfl⟩ := List.mem_map.mp hheld'
  rw [row_unique h.fresh ha hb hrow]

lemma WorldOk.named {w : World} (h : WorldOk w) {d : Delivery} (hd : d ∈ w.sent) :
    ∃ name, d.message.get? "event_id" = some name ∧ name.truthy = true := by
  obtain ⟨held, _, rfl⟩ := h.sent d hd
  exact message_named held.payload held.id

theorem outbox_loses_nothing (ops : List Op) (s : State) (h : Runs.run step start ops = some s) :
    (∀ row ∈ s.world.table, row.status = .published → row.id ∈ s.world.accepted) ∧
    (∀ row ∈ s.world.inserted, row.id ∉ s.world.table.map OutboxEvent.id → row.id ∈ s.world.accepted) ∧
    (∀ d ∈ s.world.sent, ∃ name, d.message.get? "event_id" = some name ∧ name.truthy = true ∧
      ∀ e ∈ s.world.sent, e.row = d.row → e.message.get? "event_id" = some name) ∧
    ∀ id, s.world.claims.count id ≤ relayMaxAttempts := by
  have hw := (reachable_ok h).1
  refine ⟨hw.published, ?_, ?_, hw.bounded⟩
  · intro row hrow hn
    exact hw.gone row.id (List.mem_map.mpr ⟨row, hrow, rfl⟩) hn
  · intro d hd
    obtain ⟨name, hname, ht⟩ := hw.named hd
    refine ⟨name, hname, ht, ?_⟩
    intro e he hrow
    rw [hw.same_message he hd hrow]
    exact hname

def day : Instant := 86400 * second

def lostMark : List Op :=
  [.startProcess, .startProcess, .within 0 (.commit [⟨1, "load.created", Dict.empty⟩] 0 true),
    .within 0 (.publishOne 0 true), .within 0 (.publishReturns 0 true), .within 0 .drainMarker, .crash 0,
    .within 0 (.relayOnce true), .within 0 (.relayReclaims 0 (40 * second)),
    .within 0 (.relayClaims 0 (40 * second) []), .within 0 (.relaySends 0 true),
    .within 0 (.relayReturns 0 none), .within 0 (.relayStamps 0 (41 * second)),
    .cleanupPublished (9 * day) cleanupRetentionDays]

theorem lost_mark_replayed : ∃ s, Runs.run step start lostMark = some s ∧
    s.world.table.length = 0 ∧ s.world.accepted = [1, 1] ∧ s.world.claims = [1] ∧
    (∀ row ∈ s.world.inserted, row.id ∉ s.world.table.map OutboxEvent.id → row.id ∈ s.world.accepted) ∧
    (∀ d ∈ s.world.sent, ∃ name, d.message.get? "event_id" = some name ∧ name.truthy = true ∧
      ∀ e ∈ s.world.sent, e.row = d.row → e.message.get? "event_id" = some name) := by
  have hr : Runs.run step start lostMark = some _ := rfl
  have hs := outbox_loses_nothing lostMark _ hr
  exact ⟨_, hr, by decide, by decide, by decide, hs.2.1, hs.2.2.1⟩

end TheCargo.Events.OutboxRelay
