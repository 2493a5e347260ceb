import TheCargo.Events.Outbox
import TheCargo.Foundation.Runs
import TheCargo.Foundation.Savepoints

/-! The session listeners that publish an outbox row as soon as its transaction has committed. -/

namespace TheCargo.Events.OutboxListeners

open Foundation Foundation.Savepoints Models Outbox

-- `durableThen` is the table at the moment the task was created, kept for the statements below.
structure DeliveryTask where
  row : OutboxEvent
  durableThen : List OutboxEvent

-- `staged` is `session.info["_outbox_pending"]`; `tasks` are the tasks handed to the event loop.
structure Memory where
  staged : List OutboxEvent
  tasks : List DeliveryTask

abbrev State := Session OutboxEvent OutboxEvent × Memory

def start : State := (Session.start, ⟨[], []⟩)

/-- `_publish` -/
def publishStaged (runningLoop : Bool) (s : Session OutboxEvent OutboxEvent) (m : Memory) : Memory :=
  if runningLoop then ⟨[], m.tasks ++ m.staged.map (fun row => ⟨row, s.durable⟩)⟩
  else ⟨[], m.tasks⟩

def dropStaged (m : Memory) : Memory := ⟨[], m.tasks⟩

def listen (runningLoop : Bool) : Listener OutboxEvent OutboxEvent Memory
  | .afterCommit, s, m => publishStaged runningLoop s m
  | .afterRollback, _, m => dropStaged m
  | .beforeFlush _, _, m | .afterTransactionEnd _, _, m => m

inductive Op
  | publishEvent (id : UUID) (routingKey : String) (payload : Payload) (now : Instant)
  | flush
  | beginNested
  | release
  | rollbackTo
  | commit
  | rollback

def Op.published : Op → Option UUID
  | .publishEvent id _ _ _ => some id
  | _ => none

-- A savepoint can only be released or rolled back while it is open.
def step (runningLoop : Bool) (p : State) : Op → Option State
  | .publishEvent id routingKey payload now =>
    let row := Outbox.publishEvent id routingKey payload now
    some (p.1.add row, ⟨p.2.staged ++ [row], p.2.tasks⟩)
  | .flush => some (Savepoints.flush id (listen runningLoop) p)
  | .beginNested => some (Savepoints.beginNested id (listen runningLoop) p)
  | .release => if p.1.nested then some (Savepoints.release id (listen runningLoop) p) else none
  | .rollbackTo => if p.1.nested then some (Savepoints.rollbackTo (listen runningLoop) p) else none
  | .commit => some (Savepoints.commit id (listen runningLoop) p)
  | .rollback => some (Savepoints.rollback (listen runningLoop) p)

abbrev run (runningLoop : Bool) := Runs.run (step runningLoop)

def NoStagedRelease (runningLoop : Bool) (p : State) (op : Op) : Prop :=
  runningLoop = true → p.1.nested = true → p.2.staged ≠ [] → op ≠ .release ∧ op ≠ .commit

variable {runningLoop : Bool}

@[simp] lemma flush_memory (p : State) :
    (Savepoints.flush id (listen runningLoop) p).2 = p.2 := by
  rw [Savepoints.flush]
  split <;> rfl

lemma publishStaged_settled {s : Session OutboxEvent OutboxEvent} {m : Memory}
    (h : runningLoop = true → m.staged = []) :
    publishStaged runningLoop s m = ⟨[], m.tasks⟩ := by
  cases runningLoop with
  | false => rfl
  | true => simp [publishStaged, h rfl]

lemma release_settled {p : State} (h : runningLoop = true → p.2.staged = [])
    (hn : p.1.nested = true) :
    (Savepoints.release id (listen runningLoop) p).2 = ⟨[], p.2.tasks⟩ := by
  rw [release_of_nested hn, flush_memory]
  exact publishStaged_settled h

lemma release_iterate_settled (n : ℕ) {p : State} (h : p.2.staged = []) :
    ((Savepoints.release id (listen runningLoop))^[n] p).2 = ⟨[], p.2.tasks⟩ := by
  induction n generalizing p with
  | zero => rw [← h, Function.iterate_zero, id]
  | succ n ih =>
    have hr : (Savepoints.release id (listen runningLoop) p).2 = ⟨[], p.2.tasks⟩ := by
      by_cases hn : p.1.nested = true
      · exact release_settled (fun _ => h) hn
      · rw [← h]
        simp [Savepoints.release, hn]
    rw [Function.iterate_succ_apply, ih (by rw [hr]), hr]

lemma commit_settled {p : State} (h : runningLoop = true → p.2.staged = [])
    (hn : p.1.nested = true) :
    (Savepoints.commit id (listen runningLoop) p).2 = ⟨[], p.2.tasks⟩ := by
  have hr := release_settled h hn
  have hi : ((Savepoints.release id (listen runningLoop))^[p.1.frames.length - 2]
      (Savepoints.release id (listen runningLoop) p)).2 =
        ⟨[], (Savepoints.release id (listen runningLoop) p).2.tasks⟩ :=
    release_iterate_settled _ (by rw [hr])
  rw [commit_of_nested hn, commitRoot, flush_memory, hi, hr]
  exact publishStaged_settled (fun _ => rfl)

structure Sound (p : State) : Prop where
  staged : ∀ row ∈ p.2.staged, row ∈ p.1.live
  tasks : ∀ t ∈ p.2.tasks, t.row ∈ t.durableThen

variable (runningLoop) in
lemma rollback_staged (p : State) :
    (Savepoints.rollback (listen runningLoop) p).2.tasks = p.2.tasks ∧
      ((Savepoints.rollback (listen runningLoop) p).2.staged = [] ∨
        Savepoints.rollback (listen runningLoop) p = p) := by
  have hf : ∀ q : State, q.2.tasks = p.2.tasks →
      (Savepoints.rollbackTo (listen runningLoop) q).2.tasks = p.2.tasks := by
    intro q hq
    rw [Savepoints.rollbackTo]
    split <;> exact hq
  rw [Savepoints.rollback]
  split_ifs with he
  · exact ⟨rfl, Or.inr rfl⟩
  · exact ⟨Function.Iterate.rec (fun q : State => q.2.tasks = p.2.tasks) rfl hf _, Or.inl rfl⟩

lemma NoStagedRelease.settled {p : State} {op : Op} (hok : NoStagedRelease runningLoop p op)
    (hop : op = .release ∨ op = .commit) (hn : p.1.nested = true) : runningLoop = true → p.2.staged = [] := by
  intro hl
  by_contra hne
  obtain ⟨hrelease, hcommit⟩ := hok hl hn hne
  exact hop.elim hrelease hcommit

lemma Sound.of_settled {p q : State} (hp : Sound p) (hm : q.2 = ⟨[], p.2.tasks⟩) : Sound q :=
  ⟨by simp [hm], by simpa [hm] using hp.tasks⟩

-- The tasks of an outermost commit are for the rows that it makes durable.
lemma Sound.commit_flat {p : State} (hp : Sound p) (hn : p.1.nested = false) :
    Sound (Savepoints.commit id (listen runningLoop) p) := by
  rw [commit_of_flat hn, commitRoot, flush_memory, flush_session, finish_flush id rfl hn]
  cases runningLoop with
  | false => exact ⟨by simp [listen, publishStaged], by simpa [listen, publishStaged] using hp.tasks⟩
  | true =>
    refine ⟨by simp [listen, publishStaged], ?_⟩
    intro t ht
    rcases List.mem_append.mp ht with ht | ht
    · exact hp.tasks t ht
    · obtain ⟨row, hrow, rfl⟩ := List.mem_map.mp ht
      have hl := hp.staged row hrow
      simp only [Session.live, List.mem_append] at hl
      simp only [id, List.mem_append]
      tauto

lemma step_sound {p q : State} {op : Op} (hp : Sound p) (hok : NoStagedRelease runningLoop p op)
    (h : step runningLoop p op = some q) : Sound q := by
  cases op with
  | publishEvent i routingKey payload now =>
    obtain rfl := Option.some.inj h
    refine ⟨?_, hp.tasks⟩
    intro row hrow
    rw [Session.mem_live_add]
    exact (List.mem_append.mp hrow).imp (hp.staged row) List.mem_singleton.mp
  | flush =>
    obtain rfl := Option.some.inj h
    refine ⟨?_, by simpa using hp.tasks⟩
    intro row hrow
    rw [flush_memory] at hrow
    rw [flush_session, Session.mem_live_flush]
    exact hp.staged row hrow
  | beginNested =>
    obtain rfl := Option.some.inj h
    simp only [Savepoints.beginNested]
    refine ⟨?_, by simpa using hp.tasks⟩
    intro row hrow
    rw [flush_memory] at hrow
    rw [flush_session, Session.live_nest, Session.mem_live_flush, Session.live_opened]
    exact hp.staged row hrow
  | release =>
    simp only [step] at h
    split_ifs at h with hn
    obtain rfl := Option.some.inj h
    exact hp.of_settled (release_settled (hok.settled (Or.inl rfl) hn) hn)
  | rollbackTo =>
    simp only [step] at h
    split_ifs at h with hn
    obtain rfl := Option.some.inj h
    have hm : (Savepoints.rollbackTo (listen runningLoop) p).2 = ⟨[], p.2.tasks⟩ := by
      simp [Savepoints.rollbackTo, hn, listen, dropStaged]
    exact hp.of_settled hm
  | commit =>
    obtain rfl := Option.some.inj h
    by_cases hn : p.1.nested = true
    · exact hp.of_settled (commit_settled (hok.settled (Or.inr rfl) hn) hn)
    · exact hp.commit_flat (Bool.not_eq_true _ ▸ hn)
  | rollback =>
    obtain rfl := Option.some.inj h
    obtain ⟨ht, hs | hs⟩ := rollback_staged runningLoop p
    · exact ⟨by simp [hs], by rw [ht]; exact hp.tasks⟩
    · rw [hs]
      exact hp

structure Fresh (p : State) (ids : List UUID) : Prop where
  unused : ∀ row, row ∈ p.1.live ∨ row ∈ p.1.durable → row.id ∉ ids
  staged : ∀ row ∈ p.2.staged, ∀ d ∈ p.1.durable, row.id ≠ d.id

lemma Fresh.release {p : State} {ids : List UUID} (hp : Fresh p ids) :
    Fresh (Savepoints.release id (listen runningLoop) p) ids := by
  by_cases hn : p.1.nested = true
  · rw [release_of_nested hn, flush_session]
    refine ⟨?_, ?_⟩
    · intro row hrow
      simp only [Session.mem_live_merge, Session.mem_live_flush, merge_durable, flush_durable] at hrow
      exact hp.unused row hrow
    · intro row hrow
      cases runningLoop <;> simp [listen, publishStaged] at hrow
  · simpa [Savepoints.release, hn] using hp

lemma Fresh.release_iterate {p : State} {ids : List UUID} (hp : Fresh p ids) (n : ℕ) :
    Fresh ((Savepoints.release id (listen runningLoop))^[n] p) ids :=
  Function.Iterate.rec (fun q => Fresh q ids) hp (fun _ h => Fresh.release h) n

lemma Fresh.rollbackTo {p : State} {ids : List UUID} (hp : Fresh p ids) :
    Fresh (Savepoints.rollbackTo (listen runningLoop) p) ids := by
  rw [Savepoints.rollbackTo]
  split_ifs with hn
  · refine ⟨?_, by simp [listen, dropStaged]⟩
    intro row hrow
    rw [undo_durable] at hrow
    exact hp.unused row (hrow.imp_left Session.mem_live_undo)
  · exact hp

lemma Fresh.commitRoot {p : State} {ids : List UUID} (hp : Fresh p ids) :
    Fresh (Savepoints.commitRoot id (listen runningLoop) p) ids := by
  refine ⟨?_, ?_⟩
  · intro row hrow
    rw [Savepoints.commitRoot, Session.mem_finish, flush_session, Session.mem_live_flush,
      flush_durable] at hrow
    exact hp.unused row hrow
  · intro row hrow
    cases runningLoop <;> simp [Savepoints.commitRoot, listen, publishStaged] at hrow

lemma Fresh.opened {p : State} {ids : List UUID} (hp : Fresh p ids) : Fresh (p.1.opened, p.2) ids := by
  refine ⟨?_, by simpa using hp.staged⟩
  intro row hrow
  rw [Session.live_opened, opened_durable] at hrow
  exact hp.unused row hrow

variable (runningLoop) in
lemma Fresh.flush {p : State} {ids : List UUID} (hp : Fresh p ids) :
    Fresh (Savepoints.flush id (listen runningLoop) p) ids := by
  refine ⟨?_, ?_⟩
  · intro row hrow
    rw [flush_session, Session.mem_live_flush, flush_durable] at hrow
    exact hp.unused row hrow
  · rw [flush_memory, flush_session, flush_durable]
    exact hp.staged

lemma Fresh.rollback {p : State} {ids : List UUID} (hp : Fresh p ids) :
    Fresh (Savepoints.rollback (listen runningLoop) p) ids := by
  rw [Savepoints.rollback]
  split_ifs with he
  · exact hp
  · have hi : Fresh ((Savepoints.rollbackTo (listen runningLoop))^[p.1.frames.length - 1] p) ids :=
      Function.Iterate.rec (fun q => Fresh q ids) hp (fun _ h => h.rollbackTo) _
    refine ⟨?_, by simp [listen, dropStaged]⟩
    intro row hrow
    rw [undo_durable] at hrow
    exact hi.unused row (hrow.imp_left Session.mem_live_undo)

lemma Fresh.publish {p : State} {i : UUID} {ids : List UUID} (hp : Fresh p (i :: ids)) (hi : i ∉ ids)
    {routingKey : String} {payload : Payload} {now : Instant} :
    Fresh (p.1.add (Outbox.publishEvent i routingKey payload now),
      { p.2 with staged := p.2.staged ++ [Outbox.publishEvent i routingKey payload now] }) ids := by
  have hdurable : ∀ d ∈ (p.1.add (Outbox.publishEvent i routingKey payload now)).durable, d ∈ p.1.durable := by
    intro d hd
    simpa [Session.add] using hd
  refine ⟨?_, ?_⟩
  · intro row hrow
    rw [Session.mem_live_add] at hrow
    rcases hrow with (hrow | rfl) | hrow
    · exact fun hm => hp.unused row (Or.inl hrow) (List.mem_cons_of_mem i hm)
    · exact hi
    · exact fun hm => hp.unused row (Or.inr (hdurable row hrow)) (List.mem_cons_of_mem i hm)
  · intro row hrow d hdm
    rcases List.mem_append.mp hrow with hrow | hrow
    · exact hp.staged row hrow d (hdurable d hdm)
    · obtain rfl := List.mem_singleton.mp hrow
      intro he
      exact hp.unused d (Or.inr (hdurable d hdm)) (he ▸ List.mem_cons_self)

lemma step_fresh {p q : State} {op : Op} {ids : List UUID}
    (hp : Fresh p (op.published.toList ++ ids)) (hd : (op.published.toList ++ ids).Nodup)
    (h : step runningLoop p op = some q) : Fresh q ids := by
  cases op with
  | publishEvent i routingKey payload now =>
    obtain rfl := Option.some.inj h
    simp only [Op.published, Option.toList_some, List.singleton_append, List.nodup_cons] at hp hd
    exact hp.publish hd.1
  | flush =>
    obtain rfl := Option.some.inj h
    exact hp.flush runningLoop
  | beginNested =>
    obtain rfl := Option.some.inj h
    have hf := hp.opened.flush runningLoop
    exact ⟨hf.unused, hf.staged⟩
  | release =>
    simp only [step] at h
    split_ifs at h with hn
    obtain rfl := Option.some.inj h
    exact hp.release
  | rollbackTo =>
    simp only [step] at h
    split_ifs at h with hn
    obtain rfl := Option.some.inj h
    exact hp.rollbackTo
  | commit =>
    obtain rfl := Option.some.inj h
    exact (hp.opened.release_iterate _).commitRoot
  | rollback =>
    obtain rfl := Option.some.inj h
    exact hp.rollback

lemma listen_grows (e : Event OutboxEvent) (s : Session OutboxEvent OutboxEvent) (m : Memory) :
    m.tasks ⊆ (listen runningLoop e s m).tasks := by
  cases e with
  | afterCommit =>
    cases runningLoop with
    | false => exact fun _ h => h
    | true => exact List.subset_append_left _ _
  | afterRollback => exact fun _ h => h
  | beforeFlush | afterTransactionEnd => exact fun _ h => h

lemma release_grows (p : State) :
    p.2.tasks ⊆ (Savepoints.release id (listen runningLoop) p).2.tasks := by
  by_cases hn : p.1.nested = true
  · rw [release_of_nested hn, flush_memory]
    exact listen_grows .afterCommit _ _
  · simp [Savepoints.release, hn]

lemma release_iterate_grows (n : ℕ) (p : State) :
    p.2.tasks ⊆ ((Savepoints.release id (listen runningLoop))^[n] p).2.tasks :=
  Function.Iterate.rec (fun q : State => p.2.tasks ⊆ q.2.tasks) (fun _ h => h)
    (fun q h => List.Subset.trans h (release_grows q)) n

lemma commitRoot_grows (p : State) :
    p.2.tasks ⊆ (Savepoints.commitRoot id (listen runningLoop) p).2.tasks := by
  rw [Savepoints.commitRoot, flush_memory]
  exact listen_grows .afterCommit _ _

lemma step_grows {p q : State} {op : Op} (h : step runningLoop p op = some q) :
    p.2.tasks ⊆ q.2.tasks := by
  cases op with
  | publishEvent =>
    obtain rfl := Option.some.inj h
    exact fun _ h => h
  | flush =>
    obtain rfl := Option.some.inj h
    rw [flush_memory]
    exact fun _ h => h
  | beginNested =>
    obtain rfl := Option.some.inj h
    simp [Savepoints.beginNested]
  | release =>
    simp only [step] at h
    split_ifs at h with hn
    obtain rfl := Option.some.inj h
    exact release_grows p
  | rollbackTo =>
    simp only [step] at h
    split_ifs at h with hn
    obtain rfl := Option.some.inj h
    simp [Savepoints.rollbackTo, hn, listen, dropStaged]
  | commit =>
    obtain rfl := Option.some.inj h
    exact List.Subset.trans (release_iterate_grows _ (p.1.opened, p.2)) (commitRoot_grows _)
  | rollback =>
    obtain rfl := Option.some.inj h
    rw [(rollback_staged runningLoop p).1]
    exact fun _ h => h

lemma staged_release {p : State} (hf : ∀ row ∈ p.2.staged, ∀ d ∈ p.1.durable, row.id ≠ d.id)
    (hn : p.1.nested = true) (hs : p.2.staged ≠ []) :
    ∃ t ∈ (Savepoints.release id (listen true) p).2.tasks, t.row ∉ t.durableThen := by
  obtain ⟨row, hrow⟩ := List.exists_mem_of_ne_nil _ hs
  refine ⟨⟨row, p.1.durable⟩, ?_, fun hm => hf row hrow row hm rfl⟩
  rw [release_of_nested hn, flush_memory, flush_session]
  simp only [listen, publishStaged, if_true, merge_durable, flush_durable, List.mem_append]
  exact Or.inr (List.mem_map.mpr ⟨row, hrow, rfl⟩)

lemma bad_step {p q : State} {op : Op} (hf : ∀ row ∈ p.2.staged, ∀ d ∈ p.1.durable, row.id ≠ d.id)
    (hbad : ¬ NoStagedRelease runningLoop p op) (h : step runningLoop p op = some q) :
    ∃ t ∈ q.2.tasks, t.row ∉ t.durableThen := by
  simp only [NoStagedRelease, not_forall] at hbad
  obtain ⟨rfl, hn, hs, hop⟩ := hbad
  obtain ⟨t, ht, hbad⟩ := staged_release hf hn hs
  cases op with
  | release =>
    simp only [step, hn, if_true, Option.some.injEq] at h
    exact ⟨t, h ▸ ht, hbad⟩
  | commit =>
    obtain rfl := Option.some.inj h
    refine ⟨t, ?_, hbad⟩
    rw [commit_of_nested hn]
    exact commitRoot_grows _ (release_iterate_grows _ _ ht)
  | _ => exact absurd ⟨by simp, by simp⟩ hop

lemma along_of_committed {ops : List Op} {p q : State} (hp : Fresh p (ops.filterMap Op.published))
    (hd : (ops.filterMap Op.published).Nodup) (h : Runs.run (step runningLoop) p ops = some q)
    (hq : ∀ t ∈ q.2.tasks, t.row ∈ t.durableThen) :
    Runs.Along (step runningLoop) (NoStagedRelease runningLoop) p ops := by
  induction ops generalizing p with
  | nil => trivial
  | cons op ops ih =>
    have hids : (op :: ops).filterMap Op.published =
        op.published.toList ++ ops.filterMap Op.published := by
      cases op <;> rfl
    rw [hids] at hp hd
    obtain ⟨r, hr, hrest⟩ := Runs.run_cons.mp h
    have hgrow : r.2.tasks ⊆ q.2.tasks :=
      Runs.run_relates (R := fun a b : State => a.2.tasks ⊆ b.2.tasks) (fun _ _ h => h)
        List.Subset.trans (fun _ _ _ h => step_grows h) hrest
    refine ⟨?_, ?_⟩
    · by_contra hbad
      obtain ⟨t, ht, hnot⟩ := bad_step hp.staged hbad hr
      exact hnot (hq t (hgrow ht))
    · intro r' hr'
      obtain rfl : r = r' := Option.some.inj (hr.symm.trans hr')
      exact ih (step_fresh hp hd hr) (List.Nodup.of_append_right hd) hrest

theorem deliveries_committed_iff (runningLoop : Bool) (ops : List Op) (p : State)
    (hids : (ops.filterMap Op.published).Nodup) (hrun : run runningLoop start ops = some p) :
    (∀ t ∈ p.2.tasks, t.row ∈ t.durableThen) ↔
      Runs.Along (step runningLoop) (NoStagedRelease runningLoop) start ops := by
  constructor
  · have hfresh : Fresh start (ops.filterMap Op.published) :=
      ⟨by simp [start, Session.start, Session.live], by simp [start]⟩
    exact along_of_committed hfresh hids hrun
  · intro hok
    have hstart : Sound start := ⟨by simp [start], by simp [start]⟩
    exact (Runs.run_along (fun _ _ _ hp hok h => step_sound hp hok h) hstart hok hrun).tasks

theorem outer_commit_delivers :
    ∃ p, run true start [.publishEvent 1 "consent.recorded" Dict.empty 0, .beginNested, .rollbackTo,
        .publishEvent 2 "consent.recorded" Dict.empty 0, .commit] = some p ∧
      ((∀ t ∈ p.2.tasks, t.row ∈ t.durableThen) ↔
        Runs.Along (step true) (NoStagedRelease true) start
          [.publishEvent 1 "consent.recorded" Dict.empty 0, .beginNested, .rollbackTo,
            .publishEvent 2 "consent.recorded" Dict.empty 0, .commit]) :=
  ⟨_, rfl, deliveries_committed_iff true _ _ (by decide) rfl⟩

theorem released_savepoint_delivers_uncommitted :
    ∃ p, run true start [.beginNested, .publishEvent 1 "consent.recorded" Dict.empty 0, .release,
        .rollback] = some p ∧
      p.1.durable = [] ∧ ∃ t ∈ p.2.tasks, t.row ∉ t.durableThen :=
  ⟨_, rfl, rfl, _, List.mem_cons_self, List.not_mem_nil⟩

end TheCargo.Events.OutboxListeners
