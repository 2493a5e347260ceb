import TheCargo.Events.OutboxFinal

namespace TheCargo.Events.OutboxHolders

open Foundation Models Outbox OutboxRelay OutboxFinal Foundation.Updates

def inHand : Worker → List UUID
  | .delivering todo _ published failed => todo.map Held.id ++ (published ++ failed.map Prod.fst)
  | _ => []

def handsOf (id : UUID) (q : Process) : ℕ := (q.relays.map (fun r => (inHand r).count id)).sum

def hands (id : UUID) (s : State) : ℕ := (s.processes.map (handsOf id)).sum

def reclaimedAt : Op → Option Instant
  | .reclaimStuck now | .within _ (.relayReclaims _ now) => some now
  | _ => none

def ReclaimsNoneInHand (s : State) (op : Op) : Prop :=
  ∀ now ∈ reclaimedAt op, ∀ row ∈ s.world.table, row.status = .publishing →
    row.updatedAt < now - reclaimAfterSeconds * second → hands row.id s = 0

instance (s : State) (op : Op) : Decidable (ReclaimsNoneInHand s op) :=
  inferInstanceAs (Decidable (∀ now ∈ reclaimedAt op, ∀ row ∈ s.world.table, row.status = .publishing →
    row.updatedAt < now - reclaimAfterSeconds * second → hands row.id s = 0))

structure Guarded (id : UUID) (n : ℕ) (w : World) : Prop where
  alone : n ≤ 1
  known : 0 < n → id ∈ w.inserted.map OutboxEvent.id
  taken : 0 < n → ∀ row ∈ w.table, row.id = id → row.status ≠ .pending

variable {id : UUID} {n : ℕ} {w : World}

lemma guarded_zero (id : UUID) (w : World) : Guarded id 0 w :=
  ⟨Nat.zero_le _, fun h => absurd h (Nat.lt_irrefl _), fun h => absurd h (Nat.lt_irrefl _)⟩

lemma Guarded.mono (h : Guarded id n w) {m : ℕ} (hm : m ≤ n) : Guarded id m w :=
  ⟨le_trans hm h.alone, fun hp => h.known (lt_of_lt_of_le hp hm), fun hp => h.taken (lt_of_lt_of_le hp hm)⟩

lemma Guarded.of_table (h : Guarded id n w) {v : World} (hi : v.inserted = w.inserted) (ht : v.table = w.table) :
    Guarded id n v :=
  ⟨h.alone, fun hp => hi ▸ h.known hp, fun hp => ht ▸ h.taken hp⟩

lemma Guarded.map (h : Guarded id n w) {f : OutboxEvent → OutboxEvent} (hid : ∀ row, (f row).id = row.id)
    (hstays : 0 < n → ∀ row ∈ w.table, row.id = id → row.status ≠ .pending → (f row).status ≠ .pending) :
    Guarded id n { w with table := w.table.map f } := by
  refine ⟨h.alone, h.known, ?_⟩
  intro hn row hrow hr
  obtain ⟨old, hold, rfl⟩ := List.mem_map.mp hrow
  rw [hid] at hr
  exact hstays hn old hold hr (h.taken hn old hold hr)

lemma Guarded.update (h : Guarded id n w) {ids : List UUID} {now : Instant} {set : OutboxEvent → OutboxEvent}
    (hid : ∀ row, (set row).id = row.id) (hstays : ∀ row, row.id = id → id ∈ ids → (set row).status ≠ .pending) :
    Guarded id n { w with table := Outbox.update ids now set w.table } := by
  apply h.map
  · intro row
    split
    · exact hid row
    · rfl
  · intro _ row _ hr hs
    split
    · rename_i hin
      exact hstays row hr (hr ▸ hin)
    · exact hs

lemma Guarded.reclaimStuck (h : Guarded id n w) {now : Instant}
    (hfree : ∀ row ∈ w.table, row.id = id → row.status = .publishing →
      row.updatedAt < now - reclaimAfterSeconds * second → n = 0) :
    Guarded id n { w with table := Outbox.reclaimStuck now w.table } := by
  apply h.map
  · intro row
    split <;> rfl
  · intro hn row hrow hr hs
    split
    · rename_i hstuck
      have hzero := hfree row hrow hr hstuck.1 hstuck.2
      omega
    · exact hs

lemma Guarded.stampFailed (h : Guarded id n w) {failed : List (UUID × String)} (now : Instant)
    (hf : id ∉ failed.map Prod.fst) : Guarded id n { w with table := Outbox.stampFailed failed now w.table } := by
  induction failed generalizing w with
  | nil => exact h
  | cons e failed ih =>
    rw [List.map_cons, List.mem_cons, not_or] at hf
    apply ih (w := { w with table := Outbox.update [e.1] now _ w.table })
    · apply h.update
      · intro row
        rfl
      · intro row hr hin
        exact absurd (List.mem_singleton.mp hin) hf.1
    · exact hf.2

lemma Guarded.insert (h : Guarded id n w) {rows : List Held} (hf : w.Fresh rows) (now : Instant) :
    Guarded id n (w.insert rows now) := by
  refine ⟨h.alone, ?_, ?_⟩
  · intro hn
    rw [World.insert, List.map_append]
    exact List.mem_append_left _ (h.known hn)
  · intro hn row hrow hr
    rcases List.mem_append.mp hrow with hold | hnew
    · exact h.taken hn row hold hr
    · obtain ⟨held, hheld, rfl⟩ := List.mem_map.mp hnew
      have hid : held.id = id := hr
      exact absurd (hid ▸ h.known hn) (hf.2 held hheld)

lemma Guarded.cleanupPublished (h : Guarded id n w) (now olderThanDays : Instant) :
    Guarded id n { w with table := Outbox.cleanupPublished now olderThanDays w.table } :=
  ⟨h.alone, h.known, fun hn row hrow => h.taken hn row (List.mem_filter.mp hrow).1⟩

lemma count_claimed (batch : List OutboxEvent) :
    (inHand (.delivering (batch.map Held.of) false [] [])).count id = (batch.map OutboxEvent.id).count id := by
  simp only [inHand, List.map_nil, List.append_nil, List.map_map]
  rfl

lemma Guarded.claimBatch (h : Guarded id n w) (hw : WorldOk w) (now : Instant) (locked : List UUID) :
    Guarded id (n + ((due now locked w.table).map OutboxEvent.id).count id)
      (w.claimBatch (due now locked w.table) now) := by
  by_cases hin : id ∈ (due now locked w.table).map OutboxEvent.id
  · obtain ⟨row, hrow, hid⟩ := List.mem_map.mp hin
    have hfree : n = 0 := by
      by_contra hn
      exact h.taken (Nat.pos_of_ne_zero hn) row (mem_due hrow).1 hid (due_pending hrow)
    rw [List.count_eq_one_of_mem (nodup_due hw.keys) hin, hfree]
    refine ⟨le_refl _, ?_, ?_⟩
    · intro _
      exact hid ▸ mem_ids_of_committed (hw.known row (mem_due hrow).1)
    · intro _ row' hrow' hr
      obtain ⟨old, _, rfl⟩ := List.mem_map.mp hrow'
      split at hr
      · rename_i hold
        rw [if_pos hold]
        simp
      · rename_i hold
        exact absurd (hr ▸ hin) hold
  · rw [List.count_eq_zero.mpr hin, Nat.add_zero]
    have hclaim : Guarded id n { w with table := claim ((due now locked w.table).map OutboxEvent.id) now w.table } :=
      h.update (fun _ => rfl) (fun _ _ hid => absurd hid hin)
    exact ⟨hclaim.alone, hclaim.known, hclaim.taken⟩

def isRelayOp : ProcessOp → Bool
  | .relayOnce _ | .relayReclaims .. | .relayClaims .. | .relaySends .. | .relayReturns .. | .relayStamps ..
  | .cancelRelay _ => true
  | _ => false

lemma relays_kept {q : Process} {op : ProcessOp} {r : World × Process} (hop : isRelayOp op = false)
    (h : processStep w q op = some r) : r.2.relays = q.relays := by
  cases op with
  | commit rows now runningLoop =>
    simp only [processStep] at h
    split at h
    · exact Option.some.inj h ▸ rfl
    · exact absurd h (by simp)
  | publishOne i ready =>
    simp only [processStep] at h
    split at h
    · split at h <;> exact Option.some.inj h ▸ rfl
    · exact absurd h (by simp)
  | publishReturns i ok =>
    simp only [processStep] at h
    split at h
    · split at h <;> exact Option.some.inj h ▸ rfl
    · exact absurd h (by simp)
  | cancelPublish i => exact Option.some.inj h ▸ rfl
  | drainMarker => exact Option.some.inj h ▸ rfl
  | dropMarker => exact Option.some.inj h ▸ rfl
  | writeMarks i now =>
    simp only [processStep] at h
    split at h
    · exact Option.some.inj h ▸ rfl
    · exact absurd h (by simp)
  | failMarks i => exact Option.some.inj h ▸ rfl
  | relayOnce | relayReclaims | relayClaims | relaySends | relayReturns | relayStamps | cancelRelay =>
    exact absurd hop (by simp [isRelayOp])

lemma processStep_kept {q : Process} {op : ProcessOp} {r : World × Process} (hop : isRelayOp op = false)
    (hw : Guarded id n w) (h : processStep w q op = some r) : Guarded id n r.1 := by
  cases processStep_moves h with
  | commit rows now runningLoop hfresh => exact hw.insert hfresh now
  | writeMarks i now ids hids => exact hw.update (fun _ => rfl) (fun _ _ _ => by simp)
  | publishes | accepted | dropsTask | drainMarker | dropMarker | failMarks | fails | ends =>
    exact hw.of_table rfl rfl
  | relays | idle | reclaims | claims | sends | returned | stamps => exact absurd hop (by simp [isRelayOp])

lemma handsOf_set {q : Process} {i : ℕ} {r : Worker} (h : q.relays[i]? = some r) (r' : Worker) :
    handsOf id { q with relays := q.relays.set i r' } + (inHand r).count id = handsOf id q + (inHand r').count id :=
  sum_set_add h r' (fun r => (inHand r).count id)

lemma handsOf_erase {q : Process} {i : ℕ} {r : Worker} (h : q.relays[i]? = some r) :
    handsOf id q = (inHand r).count id + handsOf id { q with relays := q.relays.eraseIdx i } :=
  sum_eraseIdx h (fun r => (inHand r).count id)

lemma handsOf_erase_le (q : Process) (i : ℕ) : handsOf id { q with relays := q.relays.eraseIdx i } ≤ handsOf id q :=
  ((List.eraseIdx_sublist q.relays i).map _).sum_le_sum (fun _ _ => Nat.zero_le _)

lemma count_sent (held : Held) (todo : List Held) (sending sending' : Bool) (published : List UUID)
    (failed : List (UUID × String)) (error : Option String) :
    (inHand (.delivering todo sending' (published ++ error.elim [held.id] (fun _ => []))
      (failed ++ error.elim [] (fun e => [(held.id, e)])))).count id =
    (inHand (.delivering (held :: todo) sending published failed)).count id := by
  cases error with
  | none =>
    simp only [inHand, Option.elim, List.append_nil, List.map_cons, List.cons_append, List.count_append,
      List.count_cons, List.count_nil]
    omega
  | some e =>
    simp only [inHand, Option.elim, List.append_nil, List.map_cons, List.map_append, List.map_nil, List.cons_append,
      List.count_append, List.count_cons, List.count_nil]
    omega

lemma relayStep_guarded {q : Process} {op : ProcessOp} {r : World × Process} {o : ℕ} (hop : isRelayOp op = true)
    (hw : WorldOk w) (hq : Guarded id (o + handsOf id q) w)
    (hfree : ∀ i now, op = .relayReclaims i now → ∀ row ∈ w.table, row.id = id → row.status = .publishing →
      row.updatedAt < now - reclaimAfterSeconds * second → o + handsOf id q = 0)
    (h : processStep w q op = some r) : Guarded id (o + handsOf id r.2) r.1 := by
  cases op with
  | relayOnce ready =>
    cases ready with
    | true =>
      obtain rfl := Option.some.inj h
      have hnone : handsOf id { q with relays := q.relays ++ [.reclaiming] } = handsOf id q :=
        sum_concat (fun r => (inHand r).count id) q.relays .reclaiming
      rw [hnone]
      exact hq
    | false =>
      obtain rfl := Option.some.inj h
      exact hq
  | relayReclaims i now =>
    simp only [processStep] at h
    split at h
    · rename_i hr
      obtain rfl := Option.some.inj h
      have hsame := @handsOf_set id _ _ _ hr .claiming
      exact (hq.reclaimStuck (hfree i now rfl)).mono (Nat.add_le_add_left (Nat.le_of_eq hsame) o)
    · exact absurd h (by simp)
  | relayClaims i now locked =>
    simp only [processStep] at h
    split at h
    · rename_i hr
      split at h
      · obtain rfl := Option.some.inj h
        exact hq.mono (Nat.add_le_add_left (handsOf_erase_le q i) o)
      · obtain rfl := Option.some.inj h
        have hnew := @handsOf_set id _ _ _ hr (.delivering ((due now locked w.table).map Held.of) false [] [])
        have hnone : (inHand .claiming).count id = 0 := rfl
        rw [count_claimed, hnone, Nat.add_zero] at hnew
        have hclaimed := hq.claimBatch hw now locked
        rw [Nat.add_assoc, ← hnew] at hclaimed
        exact hclaimed
    · exact absurd h (by simp)
  | relaySends i ready =>
    simp only [processStep] at h
    split at h
    · rename_i held todo published failed hr
      cases ready with
      | true =>
        obtain rfl := Option.some.inj h
        have hsame := @handsOf_set id _ _ _ hr (.delivering (held :: todo) true published failed)
        have hsent : Guarded id (o + handsOf id q) (w.send held) := hq.of_table rfl rfl
        have hle : handsOf id { q with relays := q.relays.set i (.delivering (held :: todo) true published failed) } ≤
            handsOf id q := Nat.le_of_add_le_add_right (Nat.le_of_eq hsame)
        exact hsent.mono (Nat.add_le_add_left hle o)
      | false =>
        obtain rfl := Option.some.inj h
        have hsame := @handsOf_set id _ _ _ hr
          (.delivering todo false published (failed ++ [(held.id, "RabbitMQ not connected")]))
        have hcount := @count_sent id held todo false false published failed (some "RabbitMQ not connected")
        rw [Option.elim, Option.elim, List.append_nil] at hcount
        rw [hcount] at hsame
        exact hq.mono (Nat.add_le_add_left (Nat.le_of_add_le_add_right (Nat.le_of_eq hsame)) o)
    · exact absurd h (by simp)
  | relayReturns i error =>
    simp only [processStep] at h
    split at h
    · rename_i held todo published failed hr
      cases error with
      | none =>
        obtain rfl := Option.some.inj h
        have hsame := @handsOf_set id _ _ _ hr (.delivering todo false (published ++ [held.id]) failed)
        have hcount := @count_sent id held todo true false published failed none
        rw [Option.elim, Option.elim, List.append_nil] at hcount
        rw [hcount] at hsame
        have haccepted : Guarded id (o + handsOf id q) (w.accept held.id) := hq.of_table rfl rfl
        exact haccepted.mono (Nat.add_le_add_left (Nat.le_of_add_le_add_right (Nat.le_of_eq hsame)) o)
      | some exc =>
        obtain rfl := Option.some.inj h
        have hsame := @handsOf_set id _ _ _ hr
          (.delivering todo false published (failed ++ [(held.id, String.ofList (exc.toList.take 500))]))
        have hcount := @count_sent id held todo true false published failed
          (some (String.ofList (exc.toList.take 500)))
        rw [Option.elim, Option.elim, List.append_nil] at hcount
        rw [hcount] at hsame
        exact hq.mono (Nat.add_le_add_left (Nat.le_of_add_le_add_right (Nat.le_of_eq hsame)) o)
    · exact absurd h (by simp)
  | relayStamps i now =>
    simp only [processStep] at h
    split at h
    · rename_i published failed hr
      obtain rfl := Option.some.inj h
      have herase := @handsOf_erase id _ _ _ hr
      simp only [inHand, List.map_nil, List.nil_append, List.count_append] at herase
      by_cases hin : id ∈ failed.map Prod.fst
      · have hone := List.one_le_count_iff.mpr hin
        have halone := hq.alone
        have hnone : o + handsOf id { q with relays := q.relays.eraseIdx i } ≤ 0 := by omega
        exact (guarded_zero id _).mono hnone
      · have hpub : Guarded id (o + handsOf id q) { w with table := stampPublished published now w.table } :=
          hq.update (fun _ => rfl) (fun _ _ _ => by simp)
        exact (hpub.stampFailed now hin).mono (Nat.add_le_add_left (handsOf_erase_le q i) o)
    · exact absurd h (by simp)
  | cancelRelay i =>
    obtain rfl := Option.some.inj h
    exact hq.mono (Nat.add_le_add_left (handsOf_erase_le q i) o)
  | commit | publishOne | publishReturns | cancelPublish | drainMarker | dropMarker | writeMarks | failMarks =>
    exact absurd hop (by simp [isRelayOp])

def Exclusive (s : State) : Prop := ∀ id, Guarded id (hands id s) s.world

lemma step_exclusive {s t : State} {op : Op} (hok : StateOk s) (hs : Exclusive s) (hfree : ReclaimsNoneInHand s op)
    (h : step s op = some t) : Exclusive t := by
  intro id
  cases op with
  | startProcess =>
    obtain rfl := Option.some.inj h
    have hnone : hands id { s with processes := s.processes ++ [{}] } = hands id s :=
      sum_concat (handsOf id) s.processes {}
    rw [hnone]
    exact hs id
  | crash p =>
    obtain rfl := Option.some.inj h
    exact (hs id).mono (((List.eraseIdx_sublist s.processes p).map _).sum_le_sum (fun _ _ => Nat.zero_le _))
  | within p op =>
    simp only [step] at h
    split at h
    · exact absurd h (by simp)
    · rename_i q hp
      obtain ⟨r, hr, rfl⟩ := Option.map_eq_some_iff.mp h
      have hold : hands id s = ((s.processes.eraseIdx p).map (handsOf id)).sum + handsOf id q := by
        rw [Nat.add_comm]
        exact sum_eraseIdx hp (handsOf id)
      have hnew : hands id ⟨r.1, s.processes.set p r.2⟩ =
          ((s.processes.eraseIdx p).map (handsOf id)).sum + handsOf id r.2 := by
        rw [Nat.add_comm]
        exact sum_set hp r.2 (handsOf id)
      have hguard := hs id
      rw [hold] at hguard
      rw [hnew]
      cases hop : isRelayOp op with
      | false =>
        have hkept := processStep_kept hop hguard hr
        rwa [handsOf, relays_kept hop hr]
      | true =>
        refine relayStep_guarded hop hok.1 hguard ?_ hr
        rintro i now rfl row hrow rfl hstatus hstuck
        rw [← hold]
        exact hfree now rfl row hrow hstatus hstuck
  | reclaimStuck now =>
    obtain rfl := Option.some.inj h
    apply (hs id).reclaimStuck
    rintro row hrow rfl hstatus hstuck
    exact hfree now rfl row hrow hstatus hstuck
  | cleanupPublished now olderThanDays =>
    obtain rfl := Option.some.inj h
    exact (hs id).cleanupPublished now olderThanDays

theorem relays_share_no_row (ops : List Op) (s : State) (hrun : Runs.run step start ops = some s)
    (hfree : Runs.Along step ReclaimsNoneInHand start ops) :
    ((s.processes.flatMap Process.relays).flatMap inHand).Nodup := by
  have hstep : ∀ u op v, StateOk u ∧ Exclusive u → ReclaimsNoneInHand u op → step u op = some v →
      StateOk v ∧ Exclusive v := by
    rintro u op v ⟨hok, hu⟩ hop hv
    exact ⟨step_ok u op v hok hv, step_exclusive hok hu hop hv⟩
  have hinv := Runs.run_along hstep ⟨start_ok, fun id => guarded_zero id _⟩ hfree hrun
  rw [List.nodup_iff_count_le_one]
  intro id
  have halone := (hinv.2 id).alone
  rw [List.flatMap_assoc, List.count_flatMap]
  refine le_trans (Nat.le_of_eq (congrArg List.sum ?_)) halone
  apply List.map_congr_left
  intro q _
  exact List.count_flatMap

def twoRelays : List Op :=
  [.startProcess, .startProcess,
    .within 0 (.commit [⟨1, "load.created", Dict.empty⟩, ⟨2, "load.created", Dict.empty⟩] 0 false),
    .within 0 (.relayOnce true), .within 0 (.relayReclaims 0 (40 * second)), .within 1 (.relayOnce true),
    .within 0 (.relayClaims 0 (40 * second) [2]), .within 1 (.relayReclaims 0 (40 * second)),
    .within 1 (.relayClaims 0 (40 * second) []), .within 0 (.relaySends 0 true)]

theorem two_relays_share_no_row : ∃ s, Runs.run step start twoRelays = some s ∧
    (s.processes.flatMap Process.relays).flatMap inHand = [1, 2] ∧
    ((s.processes.flatMap Process.relays).flatMap inHand).Nodup := by
  have hr : Runs.run step start twoRelays = some _ := rfl
  exact ⟨_, hr, by decide, relays_share_no_row twoRelays _ hr (by decide)⟩

end TheCargo.Events.OutboxHolders
