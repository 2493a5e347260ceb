import TheCargo.Foundation.Runs
import TheCargo.Foundation.Savepoints

/-! The session listeners that turn flushed changes into audit payloads and hand them on at the commit. -/

namespace TheCargo.Audit.Listeners

open Foundation Foundation.Savepoints

variable {Obj Payload : Type}

inductive ChangeKind
  | new
  | dirty
  | deleted
  deriving DecidableEq, Repr

structure Change (Obj : Type) where
  kind : ChangeKind
  obj : Obj
  deriving DecidableEq, Repr

structure Hooks (Obj Payload : Type) where
  isAuditable : Obj → Bool
  diffChanged : Obj → Except String Bool
  buildPayload : String → Obj → Except String Payload

variable (hooks : Hooks Obj Payload)

def captureChange (c : Change Obj) : Except String (Option Payload) :=
  if hooks.isAuditable c.obj then
    match c.kind with
    | .new => some <$> hooks.buildPayload "create" c.obj
    | .dirty => do
      let changed ← hooks.diffChanged c.obj
      if changed then some <$> hooks.buildPayload "update" c.obj else return none
    | .deleted => some <$> hooks.buildPayload "delete" c.obj
  else .ok none

-- An exception ends the capture of the flush; what was staged before it stays.
def captureEach : List (Change Obj) → List Payload
  | [] => []
  | c :: cs =>
    match captureChange hooks c with
    | .error _ => []
    | .ok none => captureEach cs
    | .ok (some payload) => payload :: captureEach cs

def capture (changes : List (Change Obj)) : List Payload :=
  captureEach hooks (changes.filter (fun c => c.kind = .new) ++
    changes.filter (fun c => c.kind = .dirty) ++ changes.filter (fun c => c.kind = .deleted))

inductive Handover (Payload : Type)
  | task (batch : List Payload)
  | resolver (batch : List Payload)
  deriving DecidableEq, Repr

def Handover.batch : Handover Payload → List Payload
  | .task batch | .resolver batch => batch

-- `pending` is `session.info["_thecargo_audit_pending"]`.
structure Memory (Payload : Type) where
  pending : List Payload
  handovers : List (Handover Payload)

def Memory.handedOn (m : Memory Payload) : List Payload := m.handovers.flatMap Handover.batch

def publish (runningLoop sessionMaker : Bool) (m : Memory Payload) : Memory Payload :=
  if m.pending.isEmpty then ⟨[], m.handovers⟩
  else if runningLoop = false then ⟨[], m.handovers⟩
  else if sessionMaker = false then ⟨[], m.handovers ++ [.task m.pending]⟩
  else ⟨[], m.handovers ++ [.resolver m.pending]⟩

def listen (runningLoop sessionMaker : Bool) : Listener (Change Obj) Payload (Memory Payload)
  | .beforeFlush changes, _, m => { m with pending := m.pending ++ capture hooks changes }
  | .afterCommit, _, m => publish runningLoop sessionMaker m
  | .afterRollback, _, m => { m with pending := [] }
  | .afterTransactionEnd _, _, m => m

abbrev State (Obj Payload : Type) := Session (Change Obj) Payload × Memory Payload

def start : State Obj Payload := (Session.start, ⟨[], []⟩)

inductive Op (Obj : Type)
  | change (c : Change Obj)
  | flush
  | beginNested
  | release
  | rollbackTo
  | commit
  | rollback

def step (runningLoop sessionMaker : Bool) (p : State Obj Payload) : Op Obj → Option (State Obj Payload)
  | .change c => some (p.1.add c, p.2)
  | .flush => some (Savepoints.flush (capture hooks) (listen hooks runningLoop sessionMaker) p)
  | .beginNested =>
    some (Savepoints.beginNested (capture hooks) (listen hooks runningLoop sessionMaker) p)
  | .release =>
    if p.1.nested then
      some (Savepoints.release (capture hooks) (listen hooks runningLoop sessionMaker) p)
    else none
  | .rollbackTo =>
    if p.1.nested then some (Savepoints.rollbackTo (listen hooks runningLoop sessionMaker) p) else none
  | .commit => some (Savepoints.commit (capture hooks) (listen hooks runningLoop sessionMaker) p)
  | .rollback => some (Savepoints.rollback (listen hooks runningLoop sessionMaker) p)

def OwnEntries (p : State Obj Payload) : Op Obj → Prop
  | .release => p.1.nested = true → p.2.pending ++ capture hooks p.1.unflushed = []
  | .rollbackTo => p.1.nested = true → p.1.frames.tail.flatten = []
  | _ => True

variable {hooks} {sessionMaker : Bool}

def captured (s : Session (Change Obj) Payload) : List Payload := s.frames.reverse.flatten

structure Exact (p : State Obj Payload) : Prop where
  pending : p.2.pending = captured p.1
  handedOn : p.2.handedOn = p.1.durable

lemma capture_nil : capture hooks [] = [] := rfl

lemma captured_writeTop (xs : List Payload) (fs : List (List Payload)) :
    (writeTop xs fs).reverse.flatten = fs.reverse.flatten ++ xs := by
  cases fs with
  | nil => simp [writeTop]
  | cons top rest => simp [writeTop, List.append_assoc]

lemma captured_opened (s : Session (Change Obj) Payload) : captured s.opened = captured s := by
  cases s with
  | mk unflushed frames durable => cases frames <;> rfl

lemma captured_merge (s : Session (Change Obj) Payload) : captured s.merge = captured s := by
  cases s with
  | mk unflushed frames durable =>
    match frames with
    | [] | [_] => rfl
    | inner :: outer :: rest => simp [captured, Session.merge]

lemma captured_flush (s : Session (Change Obj) Payload) :
    captured (s.flush (capture hooks)) = captured s ++ capture hooks s.unflushed := by
  rw [Session.flush]
  split_ifs with h
  · simp [List.isEmpty_iff.mp h, capture_nil]
  · exact captured_writeTop _ _

lemma flush_memory (runningLoop : Bool) (p : State Obj Payload) :
    (Savepoints.flush (capture hooks) (listen hooks runningLoop sessionMaker) p).2 =
      { p.2 with pending := p.2.pending ++ capture hooks p.1.unflushed } := by
  rw [Savepoints.flush]
  split_ifs with h
  · simp [List.isEmpty_iff.mp h, capture_nil]
  · rfl

variable (hooks) in
lemma flush_unflushed (s : Session (Change Obj) Payload) :
    (s.flush (capture hooks)).unflushed = [] := by
  rw [Session.flush]
  split_ifs with h
  · exact List.isEmpty_iff.mp h
  · rfl

lemma publish_pending (m : Memory Payload) : (publish true sessionMaker m).pending = [] := by
  cases sessionMaker <;> by_cases h : m.pending.isEmpty <;> simp [publish, h]

variable (sessionMaker) in
lemma publish_handedOn (m : Memory Payload) :
    (publish true sessionMaker m).handedOn = m.handedOn ++ m.pending := by
  by_cases h : m.pending = []
  · simp [publish, h, Memory.handedOn]
  · cases sessionMaker <;> simp [publish, h, Memory.handedOn, Handover.batch]

lemma publish_settled {m : Memory Payload} (h : m.pending = []) : publish true sessionMaker m = m := by
  cases m with
  | mk pending handovers =>
    obtain rfl : pending = [] := h
    rfl

variable (hooks sessionMaker) in
lemma Exact.flush {p : State Obj Payload} (hp : Exact p) :
    Exact (Savepoints.flush (capture hooks) (listen hooks true sessionMaker) p) := by
  refine ⟨?_, ?_⟩
  · rw [flush_memory, flush_session, captured_flush, ← hp.pending]
  · rw [flush_memory, flush_session, flush_durable]
    exact hp.handedOn

structure Ahead (p : State Obj Payload) : Prop where
  unflushed : p.1.unflushed = []
  pending : p.2.pending = []
  handedOn : p.2.handedOn = p.1.durable ++ captured p.1

lemma flush_settled {runningLoop : Bool} {p : State Obj Payload} (h : p.1.unflushed = []) :
    Savepoints.flush (capture hooks) (listen hooks runningLoop sessionMaker) p = p := by
  simp [Savepoints.flush, h]

variable (hooks sessionMaker) in
lemma Exact.release_ahead {p : State Obj Payload} (hp : Exact p) (hn : p.1.nested = true) :
    Ahead (Savepoints.release (capture hooks) (listen hooks true sessionMaker) p) := by
  have hf := hp.flush hooks sessionMaker
  rw [release_of_nested hn]
  refine ⟨?_, publish_pending _, ?_⟩
  · rw [flush_session]
    have hu := flush_unflushed hooks p.1
    rw [Session.merge]
    split <;> exact hu
  · have hh := publish_handedOn sessionMaker
      (Savepoints.flush (capture hooks) (listen hooks true sessionMaker) p).2
    rw [hf.handedOn, hf.pending] at hh
    rw [captured_merge, merge_durable]
    exact hh

lemma Ahead.release {p : State Obj Payload} (hp : Ahead p) :
    Ahead (Savepoints.release (capture hooks) (listen hooks true sessionMaker) p) := by
  by_cases hn : p.1.nested = true
  · rw [release_of_nested hn, flush_settled hp.unflushed]
    refine ⟨?_, publish_pending _, ?_⟩
    · have hu := hp.unflushed
      rw [Session.merge]
      split <;> exact hu
    · rw [captured_merge, merge_durable]
      change (publish true sessionMaker p.2).handedOn = _
      rw [publish_settled hp.pending]
      exact hp.handedOn
  · simpa [Savepoints.release, hn] using hp

lemma Ahead.commitRoot {p : State Obj Payload} (hp : Ahead p) (hl : p.1.frames.length = 1) :
    Exact (Savepoints.commitRoot (capture hooks) (listen hooks true sessionMaker) p) := by
  obtain ⟨root, hroot⟩ := List.length_eq_one_iff.mp hl
  have hm : listen hooks true sessionMaker .afterCommit p.1.finish p.2 = p.2 :=
    publish_settled hp.pending
  rw [Savepoints.commitRoot, flush_settled hp.unflushed, hm]
  refine ⟨?_, ?_⟩
  · simp [Session.finish, hroot, captured, listen, hp.pending]
  · have hh := hp.handedOn
    simp only [captured, hroot, List.reverse_singleton, List.flatten_singleton] at hh
    simpa [Session.finish, hroot, listen] using hh

lemma Exact.commit {p : State Obj Payload} (hp : Exact p) :
    Exact (Savepoints.commit (capture hooks) (listen hooks true sessionMaker) p) := by
  by_cases hn : p.1.nested = true
  · -- The first release hands everything on; the others and the outermost commit only merge levels.
    have hl : 2 ≤ p.1.frames.length := by simpa [Session.nested] using hn
    have ha := hp.release_ahead hooks sessionMaker hn
    have hall : Ahead ((Savepoints.release (capture hooks) (listen hooks true sessionMaker))^[p.1.frames.length - 2]
        (Savepoints.release (capture hooks) (listen hooks true sessionMaker) p)) :=
      Function.Iterate.rec (fun q => Ahead q) ha (fun _ h => Ahead.release h) _
    rw [commit_of_nested hn]
    refine hall.commitRoot (length_iterate (fun q hq => length_release hq) _ ?_)
    have hr : (Savepoints.release (capture hooks) (listen hooks true sessionMaker) p).1.frames.length = _ :=
      length_release (by omega)
    omega
  · rw [Bool.not_eq_true] at hn
    rw [commit_of_flat hn, Savepoints.commitRoot, flush_session, finish_flush _ capture_nil hn,
      flush_memory]
    refine ⟨publish_pending _, ?_⟩
    have hh := publish_handedOn sessionMaker
      { p.2 with pending := p.2.pending ++ capture hooks p.1.opened.unflushed }
    have hu : p.1.opened.unflushed = p.1.unflushed := by
      rw [Session.opened]
      split <;> rfl
    have hf : captured p.1 = p.1.frames.flatten := by
      simp only [Session.nested, decide_eq_false_iff_not] at hn
      rcases hm : p.1.frames with _ | ⟨root, _ | ⟨top, fs⟩⟩
      · simp [captured, hm]
      · simp [captured, hm]
      · simp [hm] at hn
    refine hh.trans ?_
    change p.2.handedOn ++ _ = _
    rw [hp.handedOn, hp.pending, hu, hf]

variable (hooks sessionMaker) in
lemma rollbackTo_handedOn (p : State Obj Payload) :
    (Savepoints.rollbackTo (listen hooks true sessionMaker) p).2.handedOn = p.2.handedOn ∧
      (Savepoints.rollbackTo (listen hooks true sessionMaker) p).1.durable = p.1.durable := by
  rw [Savepoints.rollbackTo]
  split_ifs with hn
  · exact ⟨rfl, undo_durable p.1⟩
  · exact ⟨rfl, rfl⟩

lemma Exact.rollback {p : State Obj Payload} (hp : Exact p) :
    Exact (Savepoints.rollback (listen hooks true sessionMaker) p) := by
  rw [Savepoints.rollback]
  split_ifs with he
  · exact hp
  · have hne : p.1.frames.length ≠ 0 := by simpa using he
    have hl := length_iterate (f := Savepoints.rollbackTo (listen hooks true sessionMaker))
      (fun q hq => length_rollbackTo hq) (p.1.frames.length - 1) (p := p) (by omega)
    have hh : ∀ n, ((Savepoints.rollbackTo (listen hooks true sessionMaker))^[n] p).2.handedOn =
        ((Savepoints.rollbackTo (listen hooks true sessionMaker))^[n] p).1.durable := by
      intro n
      refine Function.Iterate.rec (fun q : State Obj Payload => q.2.handedOn = q.1.durable) hp.handedOn ?_ n
      intro q hq
      obtain ⟨h₁, h₂⟩ := rollbackTo_handedOn hooks sessionMaker q
      rw [h₁, h₂, hq]
    obtain ⟨root, hroot⟩ := List.length_eq_one_iff.mp hl
    refine ⟨?_, ?_⟩
    · simp [Session.undo, hroot, captured, listen]
    · rw [undo_durable]
      exact hh _

lemma Exact.beginNested {p : State Obj Payload} (hp : Exact p) :
    Exact (Savepoints.beginNested (capture hooks) (listen hooks true sessionMaker) p) := by
  have ho : Exact (p.1.opened, p.2) :=
    ⟨by rw [captured_opened]; exact hp.pending, by rw [opened_durable]; exact hp.handedOn⟩
  have hf := ho.flush hooks sessionMaker
  refine ⟨?_, hf.handedOn⟩
  rw [Savepoints.beginNested, hf.pending]
  simp [captured, Session.nest]

lemma Exact.release {p : State Obj Payload} (hp : Exact p) (hn : p.1.nested = true)
    (hok : OwnEntries hooks p .release) :
    Exact (Savepoints.release (capture hooks) (listen hooks true sessionMaker) p) := by
  have ha := hp.release_ahead hooks sessionMaker hn
  have hc : captured (Savepoints.release (capture hooks) (listen hooks true sessionMaker) p).1 = [] := by
    rw [release_of_nested hn, captured_merge, flush_session, captured_flush, ← hp.pending]
    exact hok hn
  refine ⟨by rw [ha.pending, hc], ?_⟩
  rw [ha.handedOn, hc, List.append_nil]

lemma Exact.rollbackTo {p : State Obj Payload} (hp : Exact p) (hn : p.1.nested = true)
    (hok : OwnEntries hooks p .rollbackTo) :
    Exact (Savepoints.rollbackTo (listen hooks true sessionMaker) p) := by
  obtain ⟨h₁, h₂⟩ := rollbackTo_handedOn hooks sessionMaker p
  refine ⟨?_, by rw [h₁, h₂, hp.handedOn]⟩
  have ht := hok hn
  simp only [Savepoints.rollbackTo, hn, if_true, listen, captured]
  cases hf : p.1.frames with
  | nil => simp [Session.undo, hf]
  | cons top rest =>
    rw [hf, List.tail_cons, List.flatten_eq_nil_iff] at ht
    simp only [Session.undo, hf]
    symm
    rw [List.flatten_eq_nil_iff]
    intro l hl
    exact ht l (List.mem_reverse.mp hl)

lemma step_exact {p q : State Obj Payload} {op : Op Obj} (hp : Exact p) (hok : OwnEntries hooks p op)
    (h : step hooks true sessionMaker p op = some q) : Exact q := by
  cases op with
  | change c =>
    obtain rfl := Option.some.inj h
    refine ⟨?_, ?_⟩
    · rw [hp.pending, ← captured_opened]
      rfl
    · rw [hp.handedOn, ← opened_durable p.1]
      rfl
  | flush =>
    obtain rfl := Option.some.inj h
    exact hp.flush hooks sessionMaker
  | beginNested =>
    obtain rfl := Option.some.inj h
    exact hp.beginNested
  | release =>
    simp only [step] at h
    split_ifs at h with hn
    obtain rfl := Option.some.inj h
    exact hp.release hn hok
  | rollbackTo =>
    simp only [step] at h
    split_ifs at h with hn
    obtain rfl := Option.some.inj h
    exact hp.rollbackTo hn hok
  | commit =>
    obtain rfl := Option.some.inj h
    exact hp.commit
  | rollback =>
    obtain rfl := Option.some.inj h
    exact hp.rollback

theorem handed_on_is_committed_history (hooks : Hooks Obj Payload) (sessionMaker : Bool)
    (ops : List (Op Obj)) (p : State Obj Payload)
    (hok : Runs.Along (step hooks true sessionMaker) (OwnEntries hooks) start ops)
    (hrun : Runs.run (step hooks true sessionMaker) start ops = some p) :
    p.2.handedOn = p.1.durable :=
  (Runs.run_along (fun _ _ _ hp hok h => step_exact hp hok h)
    (⟨rfl, rfl⟩ : Exact (start : State Obj Payload)) hok hrun).handedOn

def plainHooks : Hooks String (String × String) where
  isAuditable _ := true
  diffChanged _ := .ok true
  buildPayload action obj := .ok (action, obj)

theorem committed_change_handed_on :
    ∃ p, Runs.run (step plainHooks true true) start [.change ⟨.new, "order"⟩, .commit, .beginNested,
        .change ⟨.new, "leg"⟩, .rollbackTo, .commit] = some p ∧ p.2.handedOn = p.1.durable := by
  refine ⟨_, rfl, handed_on_is_committed_history plainHooks true [.change ⟨.new, "order"⟩, .commit,
    .beginNested, .change ⟨.new, "leg"⟩, .rollbackTo, .commit] _ ?_ rfl⟩
  refine ⟨trivial, ?_⟩
  rintro _ ⟨⟩
  refine ⟨trivial, ?_⟩
  rintro _ ⟨⟩
  refine ⟨trivial, ?_⟩
  rintro _ ⟨⟩
  refine ⟨trivial, ?_⟩
  rintro _ ⟨⟩
  refine ⟨fun _ => rfl, ?_⟩
  rintro _ ⟨⟩
  exact ⟨trivial, fun _ _ => trivial⟩

theorem savepoints_break_the_trail :
    (∃ p, Runs.run (step plainHooks true true) start [.beginNested, .change ⟨.new, "order"⟩, .release,
        .rollback] = some p ∧ p.2.handedOn = [("create", "order")] ∧ p.1.durable = []) ∧
    ∃ p, Runs.run (step plainHooks true true) start [.change ⟨.new, "order"⟩, .beginNested, .rollbackTo,
        .commit] = some p ∧ p.2.handedOn = [] ∧ p.1.durable = [("create", "order")] :=
  ⟨⟨_, rfl, by decide, rfl⟩, ⟨_, rfl, by decide, rfl⟩⟩

end TheCargo.Audit.Listeners
