import TheCargo.Foundation.Json
import TheCargo.Foundation.Runs
import TheCargo.Foundation.Updates

/-! A queue, the connections that consume it and the callback tasks their deliveries start. -/

namespace TheCargo.Events.Consumer

open Foundation

structure Config where
  requeueFailed : Bool := false
  requeueDelay : ℚ := 0
  prefetchCount : ℕ := 10

variable {Body : Type*}

structure Message (Body : Type*) where
  id : ℕ
  routingKey : String
  body : Body

-- `acking` and `rejecting` have been asked for, but the broker has not seen them yet.
inductive Phase
  | delivered
  | handling
  | holding
  | acking
  | rejecting
  deriving DecidableEq, Repr

-- A task outlives its connection; what it then sends reaches nobody.
structure Task (Body : Type*) where
  message : Message Body
  redelivered : Bool
  connection : Option ℕ
  phase : Phase

-- The ready messages stand in no order: each delivery says which one the broker picked.
structure Queue (Body : Type*) where
  next : ℕ
  ready : List (Message Body × Bool)
  tasks : List (Task Body)
  calls : List ℕ
  succeeded : List ℕ
  failed : List ℕ
  acked : List ℕ

def start : Queue Body := ⟨0, [], [], [], [], [], []⟩

inductive Op (Body : Type*)
  | publish (routingKey : String) (body : Body)
  | deliver (i : ℕ) (connection : ℕ)
  | process (t : ℕ)
  | handlerReturns (t : ℕ)
  | handlerRaises (t : ℕ)
  | wake (t : ℕ)
  | settle (t : ℕ)
  | loseConnection (connection : ℕ)

def Task.on (connection : ℕ) (t : Task Body) : Bool := t.connection = some connection

def Task.lost (t : Task Body) : Task Body := { t with connection := none }

def Task.at (phase : Phase) (t : Task Body) : Task Body := { t with phase := phase }

variable (config : Config) (loads : Body → Option Json)

def Config.admits (unacked : ℕ) : Bool := config.prefetchCount = 0 || unacked < config.prefetchCount

def afterFailure (redelivered : Bool) : Phase :=
  if config.requeueFailed && !redelivered then
    if config.requeueDelay ≠ 0 then .holding else .rejecting
  else .acking

def setTask (q : Queue Body) (i : ℕ) (t : Task Body) (phase : Phase) : Queue Body :=
  { q with tasks := q.tasks.set i (t.at phase) }

def step (q : Queue Body) : Op Body → Option (Queue Body)
  | .publish routingKey body =>
    some { q with next := q.next + 1, ready := q.ready ++ [(⟨q.next, routingKey, body⟩, false)] }
  | .deliver i connection =>
    match q.ready[i]? with
    | some (message, redelivered) =>
      if config.admits (q.tasks.countP (Task.on connection)) then
        some { q with ready := q.ready.eraseIdx i,
                      tasks := q.tasks ++ [⟨message, redelivered, some connection, .delivered⟩] }
      else none
    | none => none
  | .process i =>
    match q.tasks[i]? with
    | some t =>
      if t.phase = .delivered then
        match loads t.message.body with
        | some _ => some { setTask q i t .handling with calls := q.calls ++ [t.message.id] }
        | none => some (setTask q i t (afterFailure config t.redelivered))
      else none
    | none => none
  | .handlerReturns i =>
    match q.tasks[i]? with
    | some t =>
      if t.phase = .handling then
        some { setTask q i t .acking with succeeded := q.succeeded ++ [t.message.id] }
      else none
    | none => none
  | .handlerRaises i =>
    match q.tasks[i]? with
    | some t =>
      if t.phase = .handling then
        some { setTask q i t (afterFailure config t.redelivered) with
          failed := q.failed ++ [t.message.id] }
      else none
    | none => none
  | .wake i =>
    match q.tasks[i]? with
    | some t => if t.phase = .holding then some (setTask q i t .rejecting) else none
    | none => none
  | .settle i =>
    match q.tasks[i]? with
    | some t =>
      match t.phase, t.connection with
      | .acking, some _ => some { q with tasks := q.tasks.eraseIdx i, acked := q.acked ++ [t.message.id] }
      | .rejecting, some _ =>
        some { q with tasks := q.tasks.eraseIdx i, ready := q.ready ++ [(t.message, true)] }
      | .acking, none | .rejecting, none => some { q with tasks := q.tasks.eraseIdx i }
      | _, _ => none
    | none => none
  | .loseConnection connection =>
    some { q with
      ready := q.ready ++ (q.tasks.filter (Task.on connection)).map (fun t => (t.message, true)),
      tasks := q.tasks.map (fun t => if t.on connection then t.lost else t) }

def Spares (q : Queue Body) : Op Body → Prop
  | .publish _ body => (loads body).isSome
  | .loseConnection connection =>
    ∀ t ∈ q.tasks, t.connection = some connection → t.redelivered = false →
      t.phase ≠ .delivered ∧ t.phase ≠ .handling
  | _ => True

instance (q : Queue Body) : (op : Op Body) → Decidable (Spares loads q op)
  | .publish _ body => inferInstanceAs (Decidable ((loads body).isSome = true))
  | .loseConnection connection => inferInstanceAs (Decidable (∀ t ∈ q.tasks, t.connection = some connection →
      t.redelivered = false → t.phase ≠ .delivered ∧ t.phase ≠ .handling))
  | .deliver _ _ | .process _ | .handlerReturns _ | .handlerRaises _ | .wake _ | .settle _ =>
    inferInstanceAs (Decidable True)

def Tried (q : Queue Body) (id : ℕ) : Prop := id ∈ q.succeeded ∨ id ∈ q.failed

def Finished (q : Queue Body) (id : ℕ) : Prop := id ∈ q.succeeded ∨ 2 ≤ q.failed.count id

lemma Finished.tried {q : Queue Body} {id : ℕ} (h : Finished q id) : Tried q id :=
  h.imp_right (fun hf => List.count_pos_iff.mp (by omega))

def Task.Ok (q : Queue Body) (t : Task Body) : Prop :=
  (loads t.message.body).isSome ∧ (t.redelivered = true → Tried q t.message.id) ∧
    match t.phase with
    | .delivered | .handling => True
    | .holding | .rejecting => Tried q t.message.id
    | .acking => Finished q t.message.id

structure Sound (q : Queue Body) : Prop where
  ready : ∀ r ∈ q.ready, (loads r.1.body).isSome ∧ (r.2 = true → Tried q r.1.id)
  tasks : ∀ t ∈ q.tasks, t.Ok loads q
  acked : ∀ id ∈ q.acked, Finished q id

structure Grows (q u : Queue Body) : Prop where
  succeeded : q.succeeded ⊆ u.succeeded
  failed : q.failed.Sublist u.failed

variable {config loads} {q u : Queue Body} {t : Task Body} {id : ℕ}

lemma Tried.grow (h : Tried q id) (hg : Grows q u) : Tried u id :=
  h.imp (fun hs => hg.succeeded hs) (fun hf => hg.failed.subset hf)

lemma Finished.grow (h : Finished q id) (hg : Grows q u) : Finished u id :=
  h.imp (fun hs => hg.succeeded hs) (fun hf => le_trans hf (hg.failed.count_le id))

lemma Task.Ok.grow (h : t.Ok loads q) (hg : Grows q u) : t.Ok loads u := by
  obtain ⟨hbody, hflag, hphase⟩ := h
  refine ⟨hbody, fun hr => (hflag hr).grow hg, ?_⟩
  cases hp : t.phase with
  | delivered => trivial
  | handling => trivial
  | holding => rw [hp] at hphase; exact Tried.grow hphase hg
  | rejecting => rw [hp] at hphase; exact Tried.grow hphase hg
  | acking => rw [hp] at hphase; exact Finished.grow hphase hg

lemma Task.Ok.lose (h : t.Ok loads q) : t.lost.Ok loads q := h

lemma Sound.grow (h : Sound loads q) (hg : Grows q u) (hready : u.ready = q.ready)
    (htasks : ∀ t ∈ u.tasks, t ∈ q.tasks ∨ t.Ok loads u) (hacked : u.acked = q.acked) :
    Sound loads u := by
  refine ⟨?_, ?_, ?_⟩
  · intro r hr
    rw [hready] at hr
    exact ⟨(h.ready r hr).1, fun hf => ((h.ready r hr).2 hf).grow hg⟩
  · intro t ht
    rcases htasks t ht with hold | hok
    · exact (h.tasks t hold).grow hg
    · exact hok
  · intro id hid
    rw [hacked] at hid
    exact (h.acked id hid).grow hg

lemma mem_setTask {i : ℕ} {phase : Phase} {t' : Task Body} (h : t' ∈ (setTask q i t phase).tasks) :
    t' ∈ q.tasks ∨ t' = t.at phase :=
  List.mem_or_eq_of_mem_set h

lemma afterFailure_cases (hq : config.requeueFailed = true) (redelivered : Bool) :
    redelivered = false ∧ (afterFailure config redelivered = .holding ∨
      afterFailure config redelivered = .rejecting) ∨
    redelivered = true ∧ afterFailure config redelivered = .acking := by
  cases redelivered with
  | false =>
    refine Or.inl ⟨rfl, ?_⟩
    by_cases hd : config.requeueDelay = 0
    · exact Or.inr (by simp [afterFailure, hq, hd])
    · exact Or.inl (by simp [afterFailure, hq, hd])
  | true => exact Or.inr ⟨rfl, by simp [afterFailure]⟩

lemma Task.Ok.fail (hq : config.requeueFailed = true) (h : t.Ok loads q) (hg : Grows q u)
    (hf : u.failed = q.failed ++ [t.message.id]) :
    (t.at (afterFailure config t.redelivered)).Ok loads u := by
  have hmem : t.message.id ∈ u.failed := by
    rw [hf]
    exact List.mem_append_right _ (List.mem_singleton.mpr rfl)
  refine ⟨h.1, fun hr => (h.2.1 hr).grow hg, ?_⟩
  rcases afterFailure_cases hq t.redelivered with ⟨_, hp | hp⟩ | ⟨hr, hp⟩
  · simp only [Task.at, hp]
    exact Or.inr hmem
  · simp only [Task.at, hp]
    exact Or.inr hmem
  · simp only [Task.at, hp]
    rcases h.2.1 hr with hs | hold
    · exact Or.inl (hg.succeeded hs)
    · have hpos := List.count_pos_iff.mpr hold
      refine Or.inr ?_
      rw [hf, List.count_append, List.count_singleton_self]
      omega

inductive Moves (config : Config) (loads : Body → Option Json) (q : Queue Body) : Op Body → Queue Body → Prop
  | publish (routingKey : String) (body : Body) : Moves config loads q (.publish routingKey body)
      { q with next := q.next + 1, ready := q.ready ++ [(⟨q.next, routingKey, body⟩, false)] }
  | deliver {i : ℕ} {message : Message Body} {redelivered : Bool} (hr : q.ready[i]? = some (message, redelivered))
      (connection : ℕ) : Moves config loads q (.deliver i connection)
      { q with ready := q.ready.eraseIdx i, tasks := q.tasks ++ [⟨message, redelivered, some connection, .delivered⟩] }
  | handle {i : ℕ} {t : Task Body} (ht : q.tasks[i]? = some t) (hp : t.phase = .delivered) :
      Moves config loads q (.process i) { setTask q i t .handling with calls := q.calls ++ [t.message.id] }
  | unread {i : ℕ} {t : Task Body} (ht : q.tasks[i]? = some t) (hp : t.phase = .delivered)
      (hbody : loads t.message.body = none) :
      Moves config loads q (.process i) (setTask q i t (afterFailure config t.redelivered))
  | returns {i : ℕ} {t : Task Body} (ht : q.tasks[i]? = some t) : Moves config loads q (.handlerReturns i)
      { setTask q i t .acking with succeeded := q.succeeded ++ [t.message.id] }
  | raises {i : ℕ} {t : Task Body} (ht : q.tasks[i]? = some t) (hp : t.phase = .handling) :
      Moves config loads q (.handlerRaises i)
      { setTask q i t (afterFailure config t.redelivered) with failed := q.failed ++ [t.message.id] }
  | wake {i : ℕ} {t : Task Body} (ht : q.tasks[i]? = some t) (hp : t.phase = .holding) :
      Moves config loads q (.wake i) (setTask q i t .rejecting)
  | ack {i : ℕ} {t : Task Body} (ht : q.tasks[i]? = some t) (hp : t.phase = .acking) :
      Moves config loads q (.settle i) { q with tasks := q.tasks.eraseIdx i, acked := q.acked ++ [t.message.id] }
  | reject {i : ℕ} {t : Task Body} (ht : q.tasks[i]? = some t) (hp : t.phase = .rejecting) :
      Moves config loads q (.settle i) { q with tasks := q.tasks.eraseIdx i, ready := q.ready ++ [(t.message, true)] }
  | unsettled {i : ℕ} {t : Task Body} (ht : q.tasks[i]? = some t) :
      Moves config loads q (.settle i) { q with tasks := q.tasks.eraseIdx i }
  | lose (connection : ℕ) : Moves config loads q (.loseConnection connection)
      { q with
        ready := q.ready ++ (q.tasks.filter (Task.on connection)).map (fun t => (t.message, true)),
        tasks := q.tasks.map (fun t => if t.on connection then t.lost else t) }

lemma step_moves {op : Op Body} (h : step config loads q op = some u) : Moves config loads q op u := by
  cases op with
  | publish routingKey body =>
    obtain rfl := Option.some.inj h
    exact .publish routingKey body
  | deliver i connection =>
    simp only [step] at h
    split at h
    · next hr =>
      split at h
      · obtain rfl := Option.some.inj h
        exact .deliver hr connection
      · exact absurd h (by simp)
    · exact absurd h (by simp)
  | process i =>
    simp only [step] at h
    split at h
    · next ht =>
      split at h
      · next hp =>
        split at h
        · obtain rfl := Option.some.inj h
          exact .handle ht hp
        · next hbody =>
          obtain rfl := Option.some.inj h
          exact .unread ht hp hbody
      · exact absurd h (by simp)
    · exact absurd h (by simp)
  | handlerReturns i =>
    simp only [step] at h
    split at h
    · next ht =>
      split at h
      · obtain rfl := Option.some.inj h
        exact .returns ht
      · exact absurd h (by simp)
    · exact absurd h (by simp)
  | handlerRaises i =>
    simp only [step] at h
    split at h
    · next ht =>
      split at h
      · next hp =>
        obtain rfl := Option.some.inj h
        exact .raises ht hp
      · exact absurd h (by simp)
    · exact absurd h (by simp)
  | wake i =>
    simp only [step] at h
    split at h
    · next ht =>
      split at h
      · next hp =>
        obtain rfl := Option.some.inj h
        exact .wake ht hp
      · exact absurd h (by simp)
    · exact absurd h (by simp)
  | settle i =>
    simp only [step] at h
    split at h
    · next ht =>
      split at h
      · next hp _ =>
        obtain rfl := Option.some.inj h
        exact .ack ht hp
      · next hp _ =>
        obtain rfl := Option.some.inj h
        exact .reject ht hp
      · obtain rfl := Option.some.inj h
        exact .unsettled ht
      · obtain rfl := Option.some.inj h
        exact .unsettled ht
      · exact absurd h (by simp)
    · exact absurd h (by simp)
  | loseConnection connection =>
    obtain rfl := Option.some.inj h
    exact .lose connection

lemma Sound.setTask {i : ℕ} {phase : Phase} (h : Sound loads q) (hg : Grows q u)
    (htasks : u.tasks = (setTask q i t phase).tasks) (hready : u.ready = q.ready) (hacked : u.acked = q.acked)
    (hok : (t.at phase).Ok loads u) : Sound loads u := by
  refine h.grow hg hready ?_ hacked
  intro t' ht'
  rw [htasks] at ht'
  rcases mem_setTask ht' with hold | rfl
  · exact Or.inl hold
  · exact Or.inr hok

lemma Task.Ok.tried (h : t.Ok loads q) (hphase : t.phase ≠ .delivered ∧ t.phase ≠ .handling) :
    Tried q t.message.id := by
  obtain ⟨-, -, hok⟩ := h
  cases hp : t.phase with
  | delivered => exact absurd hp hphase.1
  | handling => exact absurd hp hphase.2
  | holding => rw [hp] at hok; exact hok
  | rejecting => rw [hp] at hok; exact hok
  | acking => rw [hp] at hok; exact Finished.tried hok

lemma Sound.addReady (h : Sound loads q) {rs : List (Message Body × Bool)}
    (hrs : ∀ r ∈ rs, (loads r.1.body).isSome ∧ (r.2 = true → Tried q r.1.id)) (next : ℕ) :
    Sound loads { q with next := next, ready := q.ready ++ rs } := by
  refine ⟨?_, h.tasks, h.acked⟩
  intro r hr
  rcases List.mem_append.mp hr with hold | hnew
  · exact h.ready r hold
  · exact hrs r hnew

lemma Sound.addTask (h : Sound loads q) (ht : t.Ok loads q) : Sound loads { q with tasks := q.tasks ++ [t] } := by
  refine ⟨h.ready, ?_, h.acked⟩
  intro t' ht'
  rcases List.mem_append.mp ht' with hold | hnew
  · exact h.tasks t' hold
  · exact List.mem_singleton.mp hnew ▸ ht

lemma Sound.eraseReady (h : Sound loads q) (i : ℕ) : Sound loads { q with ready := q.ready.eraseIdx i } :=
  ⟨fun r hr => h.ready r (List.mem_of_mem_eraseIdx hr), h.tasks, h.acked⟩

lemma Sound.eraseTask (h : Sound loads q) (i : ℕ) : Sound loads { q with tasks := q.tasks.eraseIdx i } :=
  ⟨h.ready, fun t ht => h.tasks t (List.mem_of_mem_eraseIdx ht), h.acked⟩

lemma Sound.ack (h : Sound loads q) {id : ℕ} (hid : Finished q id) :
    Sound loads { q with acked := q.acked ++ [id] } := by
  refine ⟨h.ready, h.tasks, ?_⟩
  intro id' hid'
  rcases List.mem_append.mp hid' with hold | hnew
  · exact h.acked id' hold
  · exact List.mem_singleton.mp hnew ▸ hid

lemma Sound.lose (h : Sound loads q) (connection : ℕ) :
    Sound loads { q with tasks := q.tasks.map (fun t => if t.on connection then t.lost else t) } := by
  refine ⟨h.ready, ?_, h.acked⟩
  intro t ht
  obtain ⟨old, hold, rfl⟩ := List.mem_map.mp ht
  split
  · exact (h.tasks old hold).lose
  · exact h.tasks old hold

lemma Sound.comesBack (h : Sound loads q) {connection : ℕ} (hok : Spares loads q (.loseConnection connection)) :
    ∀ r ∈ (q.tasks.filter (Task.on connection)).map (fun t => (t.message, true)),
      (loads r.1.body).isSome ∧ (r.2 = true → Tried q r.1.id) := by
  intro r hr
  obtain ⟨t, ht, rfl⟩ := List.mem_map.mp hr
  obtain ⟨hmem, hon⟩ := List.mem_filter.mp ht
  have htask := h.tasks t hmem
  refine ⟨htask.1, fun _ => ?_⟩
  by_cases hr : t.redelivered = true
  · exact htask.2.1 hr
  · exact htask.tried (hok t hmem (of_decide_eq_true hon) (Bool.not_eq_true _ ▸ hr))

lemma step_sound (hq : config.requeueFailed = true) (q : Queue Body) (op : Op Body) (u : Queue Body)
    (hs : Sound loads q) (hok : Spares loads q op) (h : step config loads q op = some u) :
    Sound loads u := by
  cases step_moves h with
  | publish routingKey body =>
    refine hs.addReady ?_ (q.next + 1)
    intro r hr
    rw [List.mem_singleton.mp hr]
    exact ⟨hok, fun hf => absurd hf Bool.false_ne_true⟩
  | deliver hr connection =>
    have hready := hs.ready _ (List.mem_of_getElem? hr)
    exact (hs.eraseReady _).addTask ⟨hready.1, hready.2, trivial⟩
  | handle ht hp =>
    have hok := hs.tasks _ (List.mem_of_getElem? ht)
    exact hs.setTask ⟨fun _ h => h, List.Sublist.refl _⟩ rfl rfl rfl ⟨hok.1, hok.2.1, trivial⟩
  | unread ht hp hbody =>
    have hok := hs.tasks _ (List.mem_of_getElem? ht)
    exact absurd hok.1 (by rw [hbody]; simp)
  | returns ht =>
    rename_i i t
    have hok := hs.tasks t (List.mem_of_getElem? ht)
    have hg : Grows q { setTask q i t .acking with succeeded := q.succeeded ++ [t.message.id] } :=
      ⟨fun _ h => List.mem_append_left _ h, List.Sublist.refl _⟩
    refine hs.setTask hg rfl rfl rfl ⟨hok.1, fun hr => (hok.2.1 hr).grow hg, Or.inl ?_⟩
    exact List.mem_append_right _ (List.mem_singleton.mpr rfl)
  | raises ht hp =>
    rename_i i t
    have hok := hs.tasks t (List.mem_of_getElem? ht)
    have hg : Grows q { setTask q i t (afterFailure config t.redelivered) with
        failed := q.failed ++ [t.message.id] } :=
      ⟨fun _ h => h, List.sublist_append_left _ _⟩
    exact hs.setTask hg rfl rfl rfl (hok.fail hq hg rfl)
  | wake ht hp =>
    have hok := hs.tasks _ (List.mem_of_getElem? ht)
    exact hs.setTask ⟨fun _ h => h, List.Sublist.refl _⟩ rfl rfl rfl ⟨hok.1, hok.2.1, hok.tried (by simp [hp])⟩
  | ack ht hp =>
    have hfin := (hs.tasks _ (List.mem_of_getElem? ht)).2.2
    rw [hp] at hfin
    exact (hs.eraseTask _).ack hfin
  | reject ht hp =>
    have hok := hs.tasks _ (List.mem_of_getElem? ht)
    refine (hs.eraseTask _).addReady ?_ q.next
    intro r hr
    rw [List.mem_singleton.mp hr]
    exact ⟨hok.1, fun _ => hok.tried (by simp [hp])⟩
  | unsettled ht => exact hs.eraseTask _
  | lose connection => exact (hs.lose connection).addReady (hs.comesBack hok) q.next

def allowance (redelivered : Bool) : ℕ := if redelivered then 1 else 2

def Task.allowance (t : Task Body) : ℕ :=
  match t.phase with
  | .delivered => Consumer.allowance t.redelivered
  | .handling => Consumer.allowance t.redelivered - 1
  | .holding | .rejecting => 1
  | .acking => 0

def readyShare (id : ℕ) (r : Message Body × Bool) : ℕ := if r.1.id = id then allowance r.2 else 0

def taskShare (id : ℕ) (t : Task Body) : ℕ := if t.message.id = id then t.allowance else 0

def Queue.owed (q : Queue Body) (id : ℕ) : ℕ :=
  (q.ready.map (readyShare id)).sum + (q.tasks.map (taskShare id)).sum

def Bounded (q : Queue Body) : Prop :=
  ∀ id, q.calls.count id + q.owed id ≤ if id < q.next then 2 else 0

lemma afterFailure_allowance (t : Task Body) :
    (t.at (afterFailure config t.redelivered)).allowance ≤ allowance t.redelivered - 1 := by
  cases hr : t.redelivered with
  | true => simp [afterFailure, Task.at, Task.allowance]
  | false =>
    simp only [afterFailure]
    split_ifs <;> simp [Task.at, Task.allowance, allowance]

lemma Bounded.setTask {i : ℕ} {phase : Phase} (h : Bounded q) (ht : q.tasks[i]? = some t)
    {calls : List ℕ} (hcall : ∀ id, calls.count id + taskShare id (t.at phase) ≤
      q.calls.count id + taskShare id t) (succeeded failed : List ℕ) :
    Bounded { setTask q i t phase with
      calls := calls, succeeded := succeeded, failed := failed } := by
  intro id
  have hb := h id
  have hc := hcall id
  have hsum := Updates.sum_eraseIdx ht (taskShare id)
  have hset := Updates.sum_set ht (t.at phase) (taskShare id)
  simp only [Queue.owed] at hb ⊢
  refine le_trans ?_ hb
  simp only [Consumer.setTask]
  omega

lemma Bounded.eraseIdx {i : ℕ} (h : Bounded q) (ht : q.tasks[i]? = some t) (acked : List ℕ) :
    Bounded { q with tasks := q.tasks.eraseIdx i, acked := acked } := by
  intro id
  have hi := h id
  have hs := Updates.sum_eraseIdx ht (taskShare id)
  simp only [Queue.owed] at hi ⊢
  omega

lemma taskShare_le {phase : Phase} (h : (t.at phase).allowance ≤ t.allowance) (id : ℕ) :
    taskShare id (t.at phase) ≤ taskShare id t := by
  have hid : (t.at phase).message.id = t.message.id := rfl
  simp only [taskShare, hid]
  split
  · exact h
  · exact le_refl _

lemma Bounded.publish (h : Bounded q) (routingKey : String) (body : Body) :
    Bounded { q with next := q.next + 1, ready := q.ready ++ [(⟨q.next, routingKey, body⟩, false)] } := by
  intro id
  have hi := h id
  simp only [Queue.owed, Updates.sum_concat, readyShare, allowance] at hi ⊢
  by_cases hid : q.next = id
  · subst hid
    simp only [lt_irrefl, if_false, Nat.lt_succ_self, if_true] at hi ⊢
    simp only [Bool.false_eq_true, if_false]
    omega
  · simp only [if_neg hid]
    split at hi <;> split <;> omega

lemma Bounded.deliver {i : ℕ} {message : Message Body} {redelivered : Bool} (h : Bounded q)
    (hr : q.ready[i]? = some (message, redelivered)) (connection : ℕ) :
    Bounded { q with ready := q.ready.eraseIdx i,
                     tasks := q.tasks ++ [⟨message, redelivered, some connection, .delivered⟩] } := by
  intro id
  have hi := h id
  have hsum := Updates.sum_eraseIdx hr (readyShare id)
  have hshare : taskShare id (⟨message, redelivered, some connection, .delivered⟩ : Task Body) =
      readyShare id (message, redelivered) := rfl
  simp only [Queue.owed, Updates.sum_concat, hshare] at hi ⊢
  omega

lemma Bounded.reject {i : ℕ} (h : Bounded q) (ht : q.tasks[i]? = some t) (hp : t.phase = .rejecting) :
    Bounded { q with tasks := q.tasks.eraseIdx i, ready := q.ready ++ [(t.message, true)] } := by
  intro id
  have hi := h id
  have hs := Updates.sum_eraseIdx ht (taskShare id)
  have hshare : readyShare id (t.message, true) = taskShare id t := by
    simp only [readyShare, taskShare, Task.allowance, hp, allowance, if_true]
  simp only [Queue.owed, Updates.sum_concat, hshare] at hi ⊢
  omega

lemma count_handle (hp : t.phase = .delivered) (calls : List ℕ) (id : ℕ) :
    (calls ++ [t.message.id]).count id + taskShare id (t.at .handling) ≤ calls.count id + taskShare id t := by
  have hfull : t.allowance = allowance t.redelivered := by rw [Task.allowance, hp]
  have hpos : 1 ≤ allowance t.redelivered := by
    cases t.redelivered <;> simp [allowance]
  have hcalled : (t.at .handling).allowance = allowance t.redelivered - 1 := rfl
  have hid : (t.at .handling).message.id = t.message.id := rfl
  rw [List.count_append, List.count_singleton]
  simp only [taskShare, hfull, hcalled, hid, beq_iff_eq]
  split <;> omega

def Keeps : Op Body → Bool
  | .loseConnection _ => false
  | _ => true

lemma step_bounded (q : Queue Body) (op : Op Body) (u : Queue Body) (hb : Bounded q) (hk : Keeps op = true)
    (h : step config loads q op = some u) : Bounded u := by
  cases step_moves h with
  | publish routingKey body => exact hb.publish routingKey body
  | deliver hr connection => exact hb.deliver hr connection
  | handle ht hp => exact hb.setTask ht (count_handle hp q.calls) _ _
  | unread ht hp hbody =>
    rename_i i t
    have hfull : t.allowance = allowance t.redelivered := by rw [Task.allowance, hp]
    have hle : (t.at (afterFailure config t.redelivered)).allowance ≤ t.allowance := by
      rw [hfull]
      exact le_trans (afterFailure_allowance t) (Nat.sub_le _ _)
    exact hb.setTask ht (fun id => Nat.add_le_add_left (taskShare_le hle id) _) _ _
  | returns ht =>
    rename_i i t
    have hle : (t.at .acking).allowance ≤ t.allowance := Nat.zero_le _
    exact hb.setTask ht (fun id => Nat.add_le_add_left (taskShare_le hle id) _) _ _
  | raises ht hp =>
    rename_i i t
    have hle : (t.at (afterFailure config t.redelivered)).allowance ≤ t.allowance := by
      simp only [Task.allowance, hp]
      exact afterFailure_allowance t
    exact hb.setTask ht (fun id => Nat.add_le_add_left (taskShare_le hle id) _) _ _
  | wake ht hp =>
    rename_i i t
    have hle : (t.at .rejecting).allowance ≤ t.allowance := by
      simp only [Task.allowance, hp]
      exact le_refl _
    exact hb.setTask ht (fun id => Nat.add_le_add_left (taskShare_le hle id) _) _ _
  | ack ht hp => exact hb.eraseIdx ht _
  | reject ht hp => exact hb.reject ht hp
  | unsettled ht => exact hb.eraseIdx ht _
  | lose connection => exact absurd hk Bool.false_ne_true

lemma start_sound : Sound loads (start : Queue Body) := by
  constructor <;> simp [start]

lemma start_bounded : Bounded (start : Queue Body) := by
  intro id
  simp [start, Queue.owed]

lemma along_keeps (q : Queue Body) {ops : List (Op Body)} (h : ∀ op ∈ ops, Keeps op = true) :
    Runs.Along (step config loads) (fun _ op => Keeps op = true) q ops := by
  induction ops generalizing q with
  | nil => trivial
  | cons op ops ih =>
    exact ⟨h op List.mem_cons_self, fun u _ => ih u (fun op' hop => h op' (List.mem_cons_of_mem op hop))⟩

theorem dropped_after_two_failures (config : Config) (loads : Body → Option Json)
    (hrequeue : config.requeueFailed = true) (ops : List (Op Body)) (q : Queue Body)
    (h : Runs.run (step config loads) start ops = some q) :
    (Runs.Along (step config loads) (Spares loads) start ops →
      ∀ id ∈ q.acked, id ∉ q.succeeded → 2 ≤ q.failed.count id) ∧
    ((∀ op ∈ ops, Keeps op = true) → ∀ id, q.calls.count id ≤ 2) := by
  constructor
  · intro hspares id hid hs
    have hsound := Runs.run_along (step_sound hrequeue) start_sound hspares h
    exact (hsound.acked id hid).resolve_left hs
  · intro hkeeps id
    have hb : Bounded q := Runs.run_along step_bounded start_bounded (along_keeps start hkeeps) h
    have hi := hb id
    split at hi <;> omega

def userSync : Config where
  requeueFailed := true
  requeueDelay := 5

def loadsEmpty (body : String) : Option Json := if body = "\x7b\x7d" then some (.obj []) else none

def failedTwice : List (Op String) :=
  [.publish "user.updated" "\x7b\x7d", .deliver 0 0, .process 0, .handlerRaises 0, .wake 0, .settle 0,
    .deliver 0 0, .process 0, .handlerRaises 0, .settle 0]

theorem dropped_once_failed_twice : ∃ q, Runs.run (step userSync loadsEmpty) start failedTwice = some q ∧
    q.acked = [0] ∧ q.succeeded = [] ∧ (∀ id ∈ q.acked, id ∉ q.succeeded → 2 ≤ q.failed.count id) ∧
    ∀ id, q.calls.count id ≤ 2 := by
  have hr : Runs.run (step userSync loadsEmpty) start failedTwice = some _ := rfl
  have hd := dropped_after_two_failures userSync loadsEmpty rfl failedTwice _ hr
  have hspares : Runs.Along (step userSync loadsEmpty) (Spares loadsEmpty) start failedTwice := by
    decide
  exact ⟨_, hr, rfl, rfl, hd.1 hspares, hd.2 (by decide)⟩

def lostBeforeHandling : List (Op String) :=
  [.publish "user.updated" "\x7b\x7d", .deliver 0 0, .loseConnection 0, .deliver 0 1, .process 1,
    .handlerRaises 1, .settle 1]

theorem dropped_after_one_failure :
    ∃ q, Runs.run (step userSync loadsEmpty) start lostBeforeHandling = some q ∧
      0 ∈ q.acked ∧ 0 ∉ q.succeeded ∧ q.failed.count 0 = 1 :=
  ⟨_, rfl, by decide, by decide, by decide⟩

end TheCargo.Events.Consumer
