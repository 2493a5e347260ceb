import Mathlib.Data.List.Induction
import TheCargo.Db.StatementRouter
import TheCargo.Foundation.Savepoints

/-! Sessions that read through one engine until a statement needs the write transaction. -/

namespace TheCargo.Db.Routing

open Foundation Foundation.Savepoints

inductive Engine
  | read
  | write
  | other (name : String)
  deriving DecidableEq, Repr

inductive Column
  | label (element : Column)
  | function (name : String)
  | text (sql : String)
  | other
  deriving DecidableEq, Repr

inductive Clause
  | dml
  | text (sql : String)
  | select (forUpdate : Bool) (columns : List Column)
  | other
  deriving DecidableEq, Repr

def Column.unlabelled : Column → Column
  | .label element => element
  | column => column

namespace StatementRouter

variable (unicode : Unicode) (router : StatementRouter)

def columnNeedsTransaction (column : Column) : Bool :=
  match column.unlabelled with
  | .function name => unicode.lower name ∈ router.functions
  | .text sql => router.sqlNeedsTransaction unicode sql
  | _ => false

def needsTransaction : Option Clause → Bool
  | none => false
  | some .dml => true
  | some (.text sql) => router.sqlNeedsTransaction unicode sql
  | some (.select forUpdate columns) => forUpdate || columns.any (router.columnNeedsTransaction unicode)
  | some .other => false

end StatementRouter

inductive Occurrence
  | statement (flushing : Bool) (clause : Option Clause) (bind : Option Engine) (engine : Engine)
  | held
  | ended (outermost : Bool)
  deriving DecidableEq, Repr

structure RoutingSession where
  writing : Bool
  trace : List Occurrence

variable (unicode : Unicode) (router : StatementRouter) (readBind : Option Engine)

def sessionBind (bind : Option Engine) : Engine := bind.getD .write

def getBind (flushing : Bool) (clause : Option Clause) (bind : Option Engine) (s : RoutingSession) :
    Engine × RoutingSession :=
  match bind, readBind, s.writing with
  | none, some engine, false =>
    if !flushing && !router.needsTransaction unicode clause then (engine, s)
    else (sessionBind none, { s with writing := true })
  | bind, _, _ => (sessionBind bind, s)

def RoutingSession.record (s : RoutingSession) (o : Occurrence) : RoutingSession := { s with trace := s.trace ++ [o] }

def ask (flushing : Bool) (clause : Option Clause) (bind : Option Engine) (s : RoutingSession) : RoutingSession :=
  let (engine, s) := getBind unicode router readBind flushing clause bind s
  s.record (.statement flushing clause bind engine)

def hold (s : RoutingSession) : RoutingSession := { s with writing := true }.record .held

def backToReads (outermost : Bool) (s : RoutingSession) : RoutingSession :=
  if outermost then { s with writing := false } else s

-- The objects of a flush stand for the clauses of its statements.
def listen : Listener (Option Clause) Unit RoutingSession
  | .beforeFlush clauses, _, s => clauses.foldl (fun s clause => ask unicode router readBind true clause none s) s
  | .afterTransactionEnd outermost, _, s => (backToReads outermost s).record (.ended outermost)
  | _, _, s => s

inductive Op
  | add (clause : Option Clause)
  | flush
  | execute (clause : Option Clause) (bind : Option Engine)
  | connection (isolationLevel : Option String) (bind : Option Engine)
  | beginNested
  | release
  | rollbackTo
  | commit
  | rollback
  | close

abbrev State := Session (Option Clause) Unit × RoutingSession

def start : State := (Session.start, ⟨false, []⟩)

def emit (_ : List (Option Clause)) : List Unit := []

def step (p : State) : Op → State
  | .add clause => (p.1.add clause, p.2)
  | .flush => Savepoints.flush emit (listen unicode router readBind) p
  | .execute clause bind => (p.1.opened, ask unicode router readBind false clause bind p.2)
  | .connection isolationLevel bind =>
    let s := if isolationLevel ≠ some "AUTOCOMMIT" then hold p.2 else p.2
    (p.1.opened, ask unicode router readBind false none bind s)
  | .beginNested => Savepoints.beginNested emit (listen unicode router readBind) (p.1, hold p.2)
  | .release => Savepoints.release emit (listen unicode router readBind) p
  | .rollbackTo => Savepoints.rollbackTo (listen unicode router readBind) p
  | .commit => Savepoints.commit emit (listen unicode router readBind) p
  | .rollback => Savepoints.rollback (listen unicode router readBind) p
  | .close => Savepoints.close (listen unicode router readBind) p

def run (ops : List Op) : State := ops.foldl (step unicode router readBind) start

section Traces

def Occurrence.asksWrite : Occurrence → Bool
  | .statement flushing clause none _ => flushing || router.needsTransaction unicode clause
  | .statement _ _ (some _) _ => false
  | .held => true
  | .ended _ => false

def Writing (past : List Occurrence) : Prop :=
  ∃ before o after, past = before ++ o :: after ∧ o.asksWrite unicode router = true ∧ .ended true ∉ after

structure Routed (trace : List Occurrence) : Prop where
  named : ∀ past flushing clause named engine rest,
    trace = past ++ .statement flushing clause (some named) engine :: rest → engine = named
  writes : ∀ past flushing clause engine rest, trace = past ++ .statement flushing clause none engine :: rest →
    flushing = true ∨ router.needsTransaction unicode clause = true → engine = .write
  sticks : ∀ past o between flushing clause engine rest,
    trace = past ++ o :: between ++ .statement flushing clause none engine :: rest →
      o.asksWrite unicode router = true → .ended true ∉ between → engine = .write
  returns : ∀ past between clause engine rest,
    trace = past ++ between ++ .statement false clause none engine :: rest →
      past = [] ∨ past.getLast? = some (.ended true) → (∀ o ∈ between, o.asksWrite unicode router = false) →
        router.needsTransaction unicode clause = false → engine = .read

def Bound (past : List Occurrence) : Occurrence → Prop
  | .statement _ _ (some named) engine => engine = named
  | .statement flushing clause none engine =>
    (flushing = true ∨ router.needsTransaction unicode clause = true ∨ Writing unicode router past →
      engine = .write) ∧
      (¬ (flushing = true ∨ router.needsTransaction unicode clause = true ∨ Writing unicode router past) →
        engine = .read)
  | _ => True

structure Tracked (s : RoutingSession) : Prop where
  writing : s.writing = true ↔ Writing unicode router s.trace
  bound : ∀ past o rest, s.trace = past ++ o :: rest → Bound unicode router past o

end Traces

variable {unicode router}

lemma writing_snoc {past : List Occurrence} {o : Occurrence} : Writing unicode router (past ++ [o]) ↔
    o.asksWrite unicode router = true ∨ Writing unicode router past ∧ o ≠ .ended true := by
  constructor
  · rintro ⟨before, a, after, h, ha, hn⟩
    rcases List.eq_nil_or_concat after with rfl | ⟨after, b, rfl⟩
    · have hoa := (List.append_inj' h rfl).2
      obtain rfl := List.singleton_inj.mp hoa
      exact Or.inl ha
    · rw [List.concat_eq_append] at h hn
      rw [← List.cons_append, ← List.append_assoc] at h
      obtain ⟨rfl, hb⟩ := List.append_inj' h rfl
      obtain rfl := List.singleton_inj.mp hb
      simp only [List.mem_append, List.mem_singleton, not_or] at hn
      exact Or.inr ⟨⟨before, a, after, rfl, ha, hn.1⟩, Ne.symm hn.2⟩
  · rintro (ho | ⟨⟨before, a, after, rfl, ha, hn⟩, ho⟩)
    · exact ⟨past, o, [], rfl, ho, List.not_mem_nil⟩
    · refine ⟨before, a, after ++ [o], by simp, ha, ?_⟩
      simp only [List.mem_append, List.mem_singleton, not_or]
      exact ⟨hn, Ne.symm ho⟩

lemma not_writing_nil : ¬ Writing unicode router [] := by
  rintro ⟨before, o, after, h, _⟩
  simp at h

lemma not_writing_append {past between : List Occurrence} (hpast : past = [] ∨ past.getLast? = some (.ended true))
    (hb : ∀ o ∈ between, o.asksWrite unicode router = false) : ¬ Writing unicode router (past ++ between) := by
  induction between using List.reverseRecOn with
  | nil =>
    rw [List.append_nil]
    rcases hpast with rfl | hl
    · exact not_writing_nil
    · obtain ⟨ys, rfl⟩ := List.getLast?_eq_some_iff.mp hl
      rw [writing_snoc]
      rintro (ha | ⟨_, ho⟩)
      · simp [Occurrence.asksWrite] at ha
      · exact ho rfl
  | append_singleton between o ih =>
    rw [← List.append_assoc, writing_snoc]
    rintro (ha | ⟨hw, _⟩)
    · rw [hb o (by simp)] at ha
      exact absurd ha (by simp)
    · exact ih (fun a ha => hb a (by simp [ha])) hw

lemma Tracked.record {s t : RoutingSession} {o : Occurrence} (h : Tracked unicode router s)
    (ht : t.trace = s.trace ++ [o])
    (hw : t.writing = true ↔
      o.asksWrite unicode router = true ∨ Writing unicode router s.trace ∧ o ≠ .ended true)
    (hb : Bound unicode router s.trace o) : Tracked unicode router t := by
  constructor
  · rw [ht, writing_snoc]
    exact hw
  · intro past a rest hs
    rw [ht] at hs
    rcases List.eq_nil_or_concat rest with rfl | ⟨rest, b, rfl⟩
    · obtain ⟨rfl, ha⟩ := List.append_inj' hs rfl
      obtain rfl := List.singleton_inj.mp ha
      exact hb
    · rw [List.concat_eq_append, ← List.cons_append, ← List.append_assoc] at hs
      exact h.bound past a rest (List.append_inj' hs rfl).1

lemma getBind_none (flushing : Bool) (clause : Option Clause) (s : RoutingSession) :
    getBind unicode router (some .read) flushing clause none s =
      if s.writing || (flushing || router.needsTransaction unicode clause) then (.write, ⟨true, s.trace⟩)
      else (.read, s) := by
  cases s with
  | mk writing trace =>
    cases writing with
    | true => rfl
    | false =>
      cases flushing <;> cases h : router.needsTransaction unicode clause <;> simp [getBind, sessionBind, h]

lemma Tracked.ask {s : RoutingSession} (h : Tracked unicode router s) (flushing : Bool) (clause : Option Clause)
    (bind : Option Engine) : Tracked unicode router (ask unicode router (some .read) flushing clause bind s) := by
  cases bind with
  | some named =>
    apply h.record (o := .statement flushing clause (some named) named)
    · rfl
    · simp [Occurrence.asksWrite, ← h.writing, Routing.ask, getBind, RoutingSession.record]
    · rfl
  | none =>
    by_cases hn : (s.writing || (flushing || router.needsTransaction unicode clause)) = true
    · apply h.record (o := .statement flushing clause none .write)
      · simp only [Routing.ask, getBind_none, if_pos hn, RoutingSession.record]
      · simp only [Routing.ask, getBind_none, if_pos hn, RoutingSession.record, true_iff]
        rw [Bool.or_eq_true, h.writing, or_comm] at hn
        exact hn.imp_right (fun hw => ⟨hw, by simp⟩)
      · rw [Bool.or_eq_true, Bool.or_eq_true, h.writing] at hn
        refine ⟨fun _ => rfl, fun hno => ?_⟩
        exact absurd hn (by tauto)
    · apply h.record (o := .statement flushing clause none .read)
      · simp only [Routing.ask, getBind_none, if_neg hn, RoutingSession.record]
      · simp only [Routing.ask, getBind_none, if_neg hn, RoutingSession.record, Occurrence.asksWrite, h.writing]
        rw [Bool.or_eq_true, h.writing] at hn
        exact iff_of_false (fun hw => hn (Or.inl hw)) (fun hw => hn (hw.symm.imp_left And.left))
      · rw [Bool.or_eq_true, Bool.or_eq_true, h.writing] at hn
        refine ⟨fun hyes => ?_, fun _ => rfl⟩
        exact absurd hyes (by tauto)

lemma Tracked.hold {s : RoutingSession} (h : Tracked unicode router s) : Tracked unicode router (hold s) := by
  apply h.record (o := .held)
  · rfl
  · exact iff_of_true rfl (Or.inl rfl)
  · trivial

lemma Tracked.ended {s : RoutingSession} (h : Tracked unicode router s) (outermost : Bool) :
    Tracked unicode router ((backToReads outermost s).record (.ended outermost)) := by
  apply h.record (o := .ended outermost)
  · cases outermost <;> rfl
  · cases outermost <;> simp [backToReads, RoutingSession.record, Occurrence.asksWrite, h.writing]
  · trivial

lemma tracked_listen (e : Savepoints.Event (Option Clause)) (t : Session (Option Clause) Unit) (s : RoutingSession)
    (h : Tracked unicode router s) : Tracked unicode router (listen unicode router (some .read) e t s) := by
  cases e with
  | beforeFlush clauses =>
    simp only [listen]
    induction clauses generalizing s with
    | nil => exact h
    | cons clause clauses ih => exact ih _ (h.ask true clause none)
  | afterCommit => exact h
  | afterRollback => exact h
  | afterTransactionEnd outermost => exact h.ended outermost

lemma tracked_step {p : State} (h : Tracked unicode router p.2) (op : Op) :
    Tracked unicode router (step unicode router (some .read) p op).2 := by
  cases op with
  | add clause => exact h
  | flush => exact flush_keeps tracked_listen h
  | execute clause bind => exact h.ask false clause bind
  | connection isolationLevel bind =>
    simp only [step]
    split
    · exact h.hold.ask false none bind
    · exact h.ask false none bind
  | beginNested => exact beginNested_keeps tracked_listen h.hold
  | release => exact release_keeps tracked_listen h
  | rollbackTo => exact rollbackTo_keeps tracked_listen h
  | commit => exact commit_keeps tracked_listen h
  | rollback => exact rollback_keeps tracked_listen h
  | close => exact close_keeps tracked_listen h

lemma tracked_run (ops : List Op) : Tracked unicode router (run unicode router (some .read) ops).2 := by
  induction ops using List.reverseRecOn with
  | nil =>
    constructor
    · exact iff_of_false (by simp [run, start]) not_writing_nil
    · intro past o rest h
      exact absurd h (by simp [run, start])
  | append_singleton ops op ih =>
    rw [run, List.foldl_append]
    exact tracked_step ih op

lemma Tracked.routed {s : RoutingSession} (h : Tracked unicode router s) : Routed unicode router s.trace := by
  constructor
  · intro past flushing clause named engine rest ht
    exact h.bound _ _ _ ht
  · intro past flushing clause engine rest ht ho
    exact (h.bound _ _ _ ht).1 (ho.imp_right Or.inl)
  · intro past o between flushing clause engine rest ht ho hb
    exact (h.bound _ _ _ ht).1 (Or.inr (Or.inr ⟨past, o, between, rfl, ho, hb⟩))
  · intro past between clause engine rest ht hpast hb hclause
    apply (h.bound _ _ _ ht).2
    rintro (hf | hn | hw)
    · exact absurd hf (by simp)
    · rw [hclause] at hn
      exact absurd hn (by simp)
    · exact not_writing_append hpast hb hw

def Idle (p : State) : Prop := p.1.frames = [] → p.2.writing = false

def Op.endsAll : Op → Bool
  | .commit | .rollback | .close => true
  | _ => false

lemma step_ending {p : State} (h : Idle p) {op : Op} (ho : op.endsAll = true) :
    (step unicode router (some .read) p op).2.writing = false := by
  cases op with
  | commit => rfl
  | rollback =>
    simp only [step, Savepoints.rollback]
    split
    · rename_i hf
      exact h (List.isEmpty_iff.mp hf)
    · rfl
  | close =>
    simp only [step, Savepoints.close]
    split
    · rename_i hf
      exact h (List.isEmpty_iff.mp hf)
    · rfl
  | _ => exact absurd ho (by simp [Op.endsAll])

lemma step_idle {p : State} (h : Idle p) (op : Op) : Idle (step unicode router (some .read) p op) := by
  cases op with
  | add clause => exact fun hf => absurd hf p.1.opened_ne_nil
  | flush =>
    simp only [step, Savepoints.flush]
    split
    · exact h
    · rename_i hu
      exact fun hf => absurd hf (p.1.flush_ne_nil hu)
  | execute clause bind => exact fun hf => absurd hf p.1.opened_ne_nil
  | connection isolationLevel bind => exact fun hf => absurd hf p.1.opened_ne_nil
  | beginNested => exact fun hf => absurd hf (List.cons_ne_nil _ _)
  | release =>
    by_cases hn : p.1.nested = true
    · have hl : 2 ≤ p.1.frames.length := of_decide_eq_true hn
      have hr : (step unicode router (some .read) p .release).1.frames.length = max 1 (p.1.frames.length - 1) :=
        length_release (by omega)
      intro hf
      rw [hf, List.length_nil] at hr
      omega
    · have hp : step unicode router (some .read) p .release = p := by simp only [step, Savepoints.release, if_neg hn]
      rwa [hp]
  | rollbackTo =>
    by_cases hn : p.1.nested = true
    · have hl : 2 ≤ p.1.frames.length := of_decide_eq_true hn
      have hr : (step unicode router (some .read) p .rollbackTo).1.frames.length = max 1 (p.1.frames.length - 1) :=
        length_rollbackTo (by omega)
      intro hf
      rw [hf, List.length_nil] at hr
      omega
    · have hp : step unicode router (some .read) p .rollbackTo = p := by
        simp only [step, Savepoints.rollbackTo, if_neg hn]
      rwa [hp]
  | commit => exact fun _ => step_ending h rfl
  | rollback => exact fun _ => step_ending h rfl
  | close => exact fun _ => step_ending h rfl

lemma run_idle (ops : List Op) : Idle (run unicode router (some .read) ops) := by
  induction ops using List.reverseRecOn with
  | nil => exact fun _ => rfl
  | append_singleton ops op ih =>
    rw [run, List.foldl_append]
    exact step_idle ih op

lemma plain_read {p : State} (hw : p.2.writing = false) {clause : Option Clause}
    (hc : router.needsTransaction unicode clause = false) :
    (step unicode router (some .read) p (.execute clause none)).2.trace.getLast? =
      some (.statement false clause none .read) := by
  simp only [step, ask, getBind_none, hw, hc, Bool.or_self, Bool.false_eq_true, if_false, RoutingSession.record,
    List.getLast?_concat]

lemma read_after_ending (ops : List Op) {ending : Op} (he : ending.endsAll = true) {clause : Option Clause}
    (hc : router.needsTransaction unicode clause = false) :
    (run unicode router (some .read) (ops ++ [ending, .execute clause none])).2.trace.getLast? =
      some (.statement false clause none .read) := by
  have hw : (step unicode router (some .read) (run unicode router (some .read) ops) ending).2.writing = false :=
    step_ending (run_idle ops) he
  rw [run, List.foldl_append]
  exact plain_read hw hc

theorem reads_own_writes_and_comes_back (unicode : Unicode) (router : StatementRouter) (ops : List Op) :
    Routed unicode router (run unicode router (some .read) ops).2.trace ∧
      ∀ ending clause, Op.endsAll ending = true → router.needsTransaction unicode clause = false →
        (run unicode router (some .read) (ops ++ [ending, .execute clause none])).2.trace.getLast? =
          some (.statement false clause none .read) :=
  ⟨(tracked_run ops).routed, fun _ _ he hc => read_after_ending ops he hc⟩

def plainRead : Option Clause := some (.select false [.other])

theorem read_after_savepoint_and_commit :
    (run .ascii (.init .ascii []) (some .read)
        ([.beginNested, .add none, .release, .execute plainRead none] ++ [.commit, .execute plainRead none])).2.trace =
      [.held, .statement true none none .write, .ended false, .ended false, .statement false plainRead none .write,
        .ended true, .statement false plainRead none .read] ∧
    (run .ascii (.init .ascii []) (some .read)
        ([.beginNested, .add none, .release, .execute plainRead none] ++
          [.commit, .execute plainRead none])).2.trace.getLast? = some (.statement false plainRead none .read) :=
  ⟨by decide, (reads_own_writes_and_comes_back .ascii (.init .ascii []) _).2 .commit plainRead rfl rfl⟩

theorem own_bind_escapes_the_router :
    (StatementRouter.init .ascii []).needsTransaction .ascii (some .dml) = true ∧
    (run .ascii (.init .ascii []) (some .read) [.execute (some .dml) (some .read)]).2.trace =
      [.statement false (some .dml) (some .read) .read] ∧
    (run .ascii (.init .ascii []) (some .read)
        [.execute (some .dml) (some .write), .execute plainRead none]).2.trace =
      [.statement false (some .dml) (some .write) .write, .statement false plainRead none .read] := by
  decide

end TheCargo.Db.Routing
