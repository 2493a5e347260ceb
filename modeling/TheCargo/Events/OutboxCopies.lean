import TheCargo.Events.OutboxFinal

namespace TheCargo.Events.OutboxCopies

open Foundation Models Outbox OutboxRelay OutboxFinal Foundation.Updates

def unsentTask (id : UUID) (t : PublishTask) : Bool := t.held.id = id && !t.sending

def unsent (id : UUID) : Worker → ℕ
  | .delivering todo sending _ _ => (todo.drop (if sending then 1 else 0)).countP (fun held => held.id = id)
  | _ => 0

def toSend (id : UUID) (q : Process) : ℕ := q.tasks.countP (unsentTask id) + (q.relays.map (unsent id)).sum

def copies (id : UUID) (w : World) : ℕ := w.sent.countP (fun d => d.row = id)

def entitled (id : UUID) (w : World) : ℕ := (w.inserted.map OutboxEvent.id).count id + w.claims.count id

def accounted (id : UUID) (s : State) : Prop :=
  copies id s.world + (s.processes.map (toSend id)).sum ≤ entitled id s.world

variable {id : UUID} {w : World}

lemma copies_send (held : Held) :
    copies id (w.send held) = copies id w + if held.id = id then 1 else 0 := by
  simp only [copies, World.send, List.countP_append, List.countP_singleton, Held.delivery, decide_eq_true_eq]

lemma unsentTasks_erase {tasks : List PublishTask} {i : ℕ} {t : PublishTask} (h : tasks[i]? = some t) :
    tasks.countP (unsentTask id) =
      (tasks.eraseIdx i).countP (unsentTask id) + if unsentTask id t = true then 1 else 0 := by
  obtain ⟨hi, rfl⟩ := List.getElem?_eq_some_iff.mp h
  rw [← (List.getElem_cons_eraseIdx_perm hi).countP_eq, List.countP_cons]

lemma unsentTasks_set {tasks : List PublishTask} {i : ℕ} {t : PublishTask} (h : tasks[i]? = some t)
    (t' : PublishTask) : (tasks.set i t').countP (unsentTask id) =
      (tasks.eraseIdx i).countP (unsentTask id) + if unsentTask id t' = true then 1 else 0 := by
  obtain ⟨hi, _⟩ := List.getElem?_eq_some_iff.mp h
  rw [(List.set_perm_cons_eraseIdx hi t').countP_eq, List.countP_cons]

lemma unsentTasks_fresh (rows : List Held) :
    (rows.map (fun held => (⟨held, false⟩ : PublishTask))).countP (unsentTask id) = (rows.map Held.id).count id := by
  rw [List.countP_map, List.count, List.countP_map]
  apply List.countP_congr
  intro held _
  simp [unsentTask]

lemma unsent_cons_sending (held : Held) (todo : List Held) (published : List UUID) (failed : List (UUID × String)) :
    unsent id (.delivering (held :: todo) true published failed) = todo.countP (fun held => held.id = id) := rfl

lemma unsent_cons (held : Held) (todo : List Held) (published : List UUID) (failed : List (UUID × String)) :
    unsent id (.delivering (held :: todo) false published failed) =
      todo.countP (fun held => held.id = id) + if held.id = id then 1 else 0 := by
  simp only [unsent, Bool.false_eq_true, if_false, List.drop_zero, List.countP_cons, decide_eq_true_eq]

lemma unsent_rest_le (held : Held) (todo : List Held) (sending : Bool) (published published' : List UUID)
    (failed failed' : List (UUID × String)) : unsent id (.delivering todo false published' failed') ≤
      unsent id (.delivering (held :: todo) sending published failed) := by
  cases sending with
  | false =>
    rw [unsent_cons]
    exact Nat.le_add_right _ _
  | true => exact le_of_eq (unsent_cons_sending held todo published failed).symm

lemma unsent_batch (batch : List OutboxEvent) :
    unsent id (.delivering (batch.map Held.of) false [] []) = (batch.map OutboxEvent.id).count id := by
  simp only [unsent, Bool.false_eq_true, if_false, List.drop_zero]
  rw [List.count, List.countP_map, List.countP_map]
  apply List.countP_congr
  intro row _
  rw [Function.comp_apply, Function.comp_apply, beq_iff_eq, decide_eq_true_eq]
  rfl

lemma entitled_insert (rows : List Held) (now : Instant) :
    entitled id (w.insert rows now) = entitled id w + (rows.map Held.id).count id := by
  simp only [entitled, World.insert]
  rw [List.map_append, insert_ids, List.count_append]
  omega

lemma entitled_claimBatch (batch : List OutboxEvent) (now : Instant) :
    entitled id (w.claimBatch batch now) = entitled id w + (batch.map OutboxEvent.id).count id := by
  simp only [entitled, World.claimBatch]
  rw [List.count_append]
  omega

lemma processStep_accounts {q : Process} {op : ProcessOp} {r : World × Process} (h : processStep w q op = some r) :
    copies id r.1 + toSend id r.2 + entitled id w ≤
      copies id w + toSend id q + entitled id r.1 := by
  cases processStep_moves h with
  | commit rows now runningLoop hfresh =>
    rw [entitled_insert]
    have htasks : (q.tasks ++ if runningLoop then rows.map (fun held => (⟨held, false⟩ : PublishTask)) else []).countP
        (unsentTask id) ≤
        q.tasks.countP (unsentTask id) + (rows.map Held.id).count id := by
      rw [List.countP_append]
      cases runningLoop with
      | true => exact le_of_eq (congrArg _ (unsentTasks_fresh rows))
      | false => exact Nat.add_le_add_left (Nat.zero_le _) _
    have hsent : copies id (w.insert rows now) = copies id w := rfl
    simp only [toSend, hsent] at htasks ⊢
    omega
  | publishes i held ht =>
    have hold := @unsentTasks_erase id _ _ _ ht
    have hnew := @unsentTasks_set id _ _ _ ht ⟨held, true⟩
    have hentitled : entitled id (w.send held) = entitled id w := rfl
    simp only [unsentTask, Bool.not_false, Bool.and_true, Bool.not_true, Bool.and_false, decide_eq_true_eq,
      Bool.false_eq_true, if_false] at hold hnew
    simp only [toSend, copies_send, hentitled] at hold hnew ⊢
    omega
  | accepted i held ht =>
    have hold := @unsentTasks_erase id _ _ _ ht
    have hsent : copies id (w.accept held.id) = copies id w := rfl
    have hentitled : entitled id (w.accept held.id) = entitled id w := rfl
    simp only [toSend, hsent, hentitled]
    omega
  | dropsTask op i =>
    have hless := (List.eraseIdx_sublist q.tasks i).countP_le (p := unsentTask id)
    simp only [toSend]
    omega
  | drainMarker => exact le_refl _
  | dropMarker => exact le_refl _
  | writeMarks i now ids hids => exact le_refl _
  | failMarks i => exact le_refl _
  | relays =>
    simp only [toSend, sum_concat, unsent]
    omega
  | idle => exact le_refl _
  | reclaims i now hr =>
    have hset := sum_set_add hr .claiming (unsent id)
    have hsent : copies id { w with table := reclaimStuck now w.table } = copies id w := rfl
    have hentitled : entitled id { w with table := reclaimStuck now w.table } = entitled id w := rfl
    simp only [unsent] at hset
    simp only [toSend, hsent, hentitled]
    omega
  | claims i now locked hr =>
    have hset := sum_set_add hr (.delivering ((due now locked w.table).map Held.of) false [] []) (unsent id)
    have hsent : copies id (w.claimBatch (due now locked w.table) now) = copies id w := rfl
    rw [entitled_claimBatch]
    rw [unsent_batch] at hset
    simp only [unsent, Nat.add_zero] at hset
    simp only [toSend, hsent]
    omega
  | sends i held todo published failed hr =>
    have hset := sum_set_add hr (.delivering (held :: todo) true published failed) (unsent id)
    have hentitled : entitled id (w.send held) = entitled id w := rfl
    rw [unsent_cons, unsent_cons_sending] at hset
    simp only [toSend, copies_send, hentitled]
    omega
  | returned i held todo published failed hr =>
    have hset := sum_set_add hr (.delivering todo false (published ++ [held.id]) failed) (unsent id)
    have hless := @unsent_rest_le id held todo true published (published ++ [held.id]) failed failed
    have hsent : copies id (w.accept held.id) = copies id w := rfl
    have hentitled : entitled id (w.accept held.id) = entitled id w := rfl
    simp only [toSend, hsent, hentitled]
    omega
  | fails op i held todo sending published failed failed' hr =>
    have hset := sum_set_add hr (.delivering todo false published failed') (unsent id)
    have hless := @unsent_rest_le id held todo sending published published failed failed'
    simp only [toSend]
    omega
  | stamps i now published failed hr =>
    have herase := sum_eraseIdx hr (unsent id)
    have hsent : copies id { w with table := stampFailed failed now (stampPublished published now w.table) } =
      copies id w := rfl
    have hentitled : entitled id { w with table := stampFailed failed now (stampPublished published now w.table) } =
      entitled id w := rfl
    simp only [toSend, hsent, hentitled]
    omega
  | ends op i =>
    have hless := ((List.eraseIdx_sublist q.relays i).map (unsent id)).sum_le_sum (fun _ _ => Nat.zero_le _)
    simp only [toSend]
    omega

lemma step_accounts {s t : State} {op : Op} (hs : accounted id s) (h : step s op = some t) : accounted id t := by
  cases op with
  | startProcess =>
    obtain rfl := Option.some.inj h
    rw [accounted, sum_concat]
    exact hs
  | crash p =>
    obtain rfl := Option.some.inj h
    have hless := ((List.eraseIdx_sublist s.processes p).map (toSend id)).sum_le_sum (fun _ _ => Nat.zero_le _)
    exact le_trans (Nat.add_le_add_left hless _) hs
  | within p op =>
    simp only [step] at h
    split at h
    · exact absurd h (by simp)
    · rename_i q hp
      obtain ⟨r, hr, rfl⟩ := Option.map_eq_some_iff.mp h
      have hstep := @processStep_accounts id _ _ _ _ hr
      have hset := sum_set_add hp r.2 (toSend id)
      simp only [accounted] at hs ⊢
      omega
  | reclaimStuck now =>
    obtain rfl := Option.some.inj h
    exact hs
  | cleanupPublished now olderThanDays =>
    obtain rfl := Option.some.inj h
    exact hs

theorem copies_bounded (ops : List Op) (s : State) (h : Runs.run step start ops = some s) (id : UUID) :
    s.world.sent.countP (fun d => d.row = id) ≤ 1 + s.world.claims.count id ∧
      s.world.sent.countP (fun d => d.row = id) ≤ 1 + relayMaxAttempts := by
  have haccounted : accounted id s := by
    refine Runs.run_invariant (fun _ _ _ hs ht => step_accounts hs ht) ?_ h
    simp [accounted, copies, start]
  have hw := (reachable_ok h).1
  have honce : (s.world.inserted.map OutboxEvent.id).count id ≤ 1 := List.nodup_iff_count_le_one.mp hw.fresh id
  have hclaims := hw.bounded id
  simp only [accounted, copies, entitled] at haccounted
  omega

theorem lost_mark_sends_twice : ∃ s, Runs.run step start lostMark = some s ∧
    s.world.sent.countP (fun d => d.row = 1) = 2 ∧ s.world.claims.count 1 = 1 ∧
    s.world.sent.countP (fun d => d.row = 1) ≤ 1 + s.world.claims.count 1 := by
  have hr : Runs.run step start lostMark = some _ := rfl
  exact ⟨_, hr, by decide, by decide, (copies_bounded lostMark _ hr 1).1⟩

end TheCargo.Events.OutboxCopies
