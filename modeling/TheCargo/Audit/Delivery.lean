import TheCargo.Audit.Independence
import TheCargo.Coalesce

/-! From the commits of many sessions to the broker: what the listeners hand on waits for the resolver of its session
maker, gets its labels and is published one payload at a time. -/

namespace TheCargo.Audit.Delivery

open Foundation Foundation.Runs Foundation.Updates Listeners

structure Message where
  captured : Payload
  payload : Payload

def Message.raw (p : Payload) : Message := ⟨p, p⟩

/-- A call of `_resolve_and_publish`. -/
inductive Pass
  | resolving (batch : List Payload)
  | publishing (left : List Message)

structure World where
  sessions : List (State Obj Payload)
  resolver : Coalesce.World Unit Payload
  passes : List Pass
  published : List (String × Message)
  failed : List Message
  lost : List Payload

def start : World := ⟨[], Coalesce.start, [], [], [], []⟩

-- Where `_resolve_refs` raises it has written nothing yet, and the bare payloads are published.
def resolved : Option Database → List Payload → List Message
  | none, batch => batch.map Message.raw
  | some db, batch => List.zipWith Message.mk batch (resolveRefs db batch)

def routingKey (p : Payload) : String := "audit." ++ p.service ++ "." ++ p.action

def publishOne (m : Message) : String × Message :=
  (routingKey m.payload, { m with payload := { m.payload with pendingRefs := [] } })

def World.handOver (w : World) : Handover Payload → World
  | .task batch => { w with passes := w.passes ++ [.publishing (batch.map Message.raw)] }
  | .resolver batch => { w with resolver := w.resolver.add () batch }

def Pass.captured : Pass → List Payload
  | .resolving batch => batch
  | .publishing left => left.map Message.captured

inductive Turn
  | drain (t : Coalesce.Turn)
  | resolve (k : ℕ) (answer : Option Database)
  | publish (k : ℕ) (accepted : Bool)

def turn (w : World) : Turn → Option World
  | .drain t => (Coalesce.turn w.resolver t).map (fun r =>
      { w with resolver := r, passes := w.passes ++ (r.flushed.drop w.resolver.flushed.length).map Pass.resolving })
  | .resolve k answer =>
    match w.passes[k]? with
    | some (.resolving batch) => some { w with passes := w.passes.set k (.publishing (resolved answer batch)) }
    | _ => none
  | .publish k accepted =>
    match w.passes[k]? with
    | some (.publishing (m :: left)) =>
      if accepted then
        some { w with passes := w.passes.set k (.publishing left), published := w.published ++ [publishOne m] }
      -- The failure is logged, and the next payload has its turn.
      else some { w with passes := w.passes.set k (.publishing left), failed := w.failed ++ [m] }
    | _ => none

inductive Op
  | connect
  | session (i : ℕ) (ctx : AuditContext) (op : Listeners.Op Obj)
  | turn (t : Turn)
  | cancelDrain (id : ℕ)
  | cancelPass (k : ℕ)

variable (eq : Val → Val → Bool) (serviceName : Option String) (sessionMaker : Bool)

def step (w : World) : Op → Option World
  | .connect => some { w with sessions := w.sessions ++ [Listeners.start] }
  | .session i ctx op => do
    let p ← w.sessions[i]?
    let q ← Listeners.step (hooks eq serviceName ctx) true sessionMaker p op
    return (q.2.handovers.drop p.2.handovers.length).foldl World.handOver { w with sessions := w.sessions.set i q }
  | .turn t => turn w t
  | .cancelDrain id => (Coalesce.step () w.resolver (.cancel id)).map (fun r => { w with resolver := r })
  | .cancelPass k => (w.passes[k]?).map (fun pass =>
      { w with passes := w.passes.set k (.publishing []), lost := w.lost ++ pass.captured })

def committed (w : World) : List Payload := w.sessions.flatMap (fun p => p.1.durable)

def attempted (w : World) : List Payload :=
  w.published.map (fun e => e.2.captured) ++ w.failed.map Message.captured

def waiting (w : World) : List Payload := w.passes.flatMap Pass.captured ++ w.resolver.coalescer.items

def Labelled (m : Message) : Prop :=
  ∃ ws, (ws = [] ∨ ∃ db batch, m.captured ∈ batch ∧ ws = labelsGiven db batch m.captured) ∧
    m.payload = ws.foldl Payload.write m.captured

structure Delivered (key : String) (m : Message) : Prop where
  key_eq : key = routingKey m.captured
  labelled : ∃ sent, Labelled ⟨m.captured, sent⟩ ∧ m.payload = { sent with pendingRefs := [] }

structure Accounts (w : World) : Prop where
  total : (committed w : Multiset Payload) = attempted w + w.lost + waiting w
  delivered : ∀ e ∈ w.published, Delivered e.1 e.2

def AtRest (w : World) : Prop := ∀ t, turn w t = none

structure Settles (w : World) : Prop where
  rests : ∃ n, ∀ turns v, run turn w turns = some v → turns.length ≤ n
  whole : ∀ turns v, run turn w turns = some v → AtRest v → (committed w : Multiset Payload) = attempted v

def Own (w : World) : Op → Prop
  | .session i ctx op => ∀ p ∈ w.sessions[i]?, OwnEntries (hooks eq serviceName ctx) p op
  | _ => True

def Unharmed (w : World) : Op → Prop
  | .cancelDrain id => Coalesce.Begun w.resolver (.cancel id)
  | .cancelPass _ => False
  | _ => True

variable {eq serviceName sessionMaker} {w v : World} {m : Message}

section Messages

lemma Labelled.raw (p : Payload) : Labelled (.raw p) := ⟨[], .inl rfl, rfl⟩

lemma resolved_eq (db : Database) (batch : List Payload) : resolved (some db) batch =
    batch.map (fun p => ⟨p, (labelsGiven db batch p).foldl Payload.write p⟩) := by
  rw [resolved, resolveRefs_eq, List.zipWith_map_right, List.zipWith_self]

lemma captured_resolved (answer : Option Database) (batch : List Payload) :
    (resolved answer batch).map Message.captured = batch := by
  cases answer with
  | none => exact (List.map_map ..).trans (List.map_id batch)
  | some db =>
    rw [resolved_eq, List.map_map]
    exact List.map_id batch

lemma resolved_labelled {answer : Option Database} {batch : List Payload} (hm : m ∈ resolved answer batch) :
    Labelled m := by
  cases answer with
  | none =>
    obtain ⟨p, _, rfl⟩ := List.mem_map.mp hm
    exact Labelled.raw p
  | some db =>
    rw [resolved_eq] at hm
    obtain ⟨p, hp, rfl⟩ := List.mem_map.mp hm
    exact ⟨_, .inr ⟨db, batch, hp, rfl⟩, rfl⟩

lemma Labelled.delivered (h : Labelled m) : Delivered (publishOne m).1 (publishOne m).2 := by
  obtain ⟨ws, hws, hpayload⟩ := h
  refine ⟨?_, m.payload, ⟨ws, hws, hpayload⟩, rfl⟩
  have hkey : routingKey m.payload = routingKey m.captured := by
    rw [hpayload, writes_frame]
    rfl
  exact hkey

end Messages

structure Inv (w : World) : Prop where
  exact : ∀ p ∈ w.sessions, Exact p
  accounts : Accounts w
  labelled : ∀ left, Pass.publishing left ∈ w.passes → ∀ m ∈ left, Labelled m

section Turns

lemma drain_flushed {r r' : Coalesce.World Unit Payload} {t : Coalesce.Turn} (ht : Coalesce.turn r t = some r') :
    ∃ batches, r'.flushed = r.flushed ++ batches ∧ batches.flatten ++ r'.coalescer.items = r.coalescer.items := by
  cases Coalesce.turn_turns ht with
  | moves _ _ _ _ _ _ _ => exact ⟨[], (List.append_nil _).symm, rfl⟩
  | takes _ _ _ _ _ => exact ⟨[r.coalescer.items], rfl, (List.append_nil _).trans (List.flatten_singleton ..)⟩

lemma set_labelled {k : ℕ} {pass : Pass}
    (hw : ∀ left, Pass.publishing left ∈ w.passes → ∀ m ∈ left, Labelled m)
    (hpass : ∀ left, pass = .publishing left → ∀ m ∈ left, Labelled m) :
    ∀ left, Pass.publishing left ∈ w.passes.set k pass → ∀ m ∈ left, Labelled m := by
  intro left hleft
  rcases List.mem_or_eq_of_mem_set hleft with hleft | rfl
  · exact hw left hleft
  · exact hpass left rfl

lemma turn_inv {t : Turn} (h : Inv w) (ht : turn w t = some v) : Inv v := by
  obtain ⟨hexact, ⟨htotal, hdelivered⟩, hlabelled⟩ := h
  cases t with
  | drain t =>
    obtain ⟨r, hr, rfl⟩ := Option.map_eq_some_iff.mp ht
    obtain ⟨batches, hflushed, hitems⟩ := drain_flushed hr
    refine ⟨hexact, ⟨htotal.trans ?_, hdelivered⟩, ?_⟩
    · have hbatches : (batches.map Pass.resolving).flatMap Pass.captured = batches.flatten := by
        rw [List.flatMap_map]
        exact List.flatMap_id'
      simp only [waiting, attempted]
      rw [hflushed, List.drop_left, List.flatMap_append, hbatches, List.append_assoc, hitems]
    · intro left hleft
      rcases List.mem_append.mp hleft with hleft | hleft
      · exact hlabelled left hleft
      · obtain ⟨_, _, hbatch⟩ := List.mem_map.mp hleft
        cases hbatch
  | resolve k answer =>
    rw [turn] at ht
    split at ht
    · rename_i batch hbatch
      obtain rfl := Option.some.inj ht
      refine ⟨hexact, ⟨htotal.trans ?_, hdelivered⟩, set_labelled hlabelled ?_⟩
      · have hset := flatMap_set_add hbatch (.publishing (resolved answer batch)) Pass.captured
        simp only [Pass.captured, captured_resolved] at hset
        simp only [waiting, attempted, ← Multiset.coe_add]
        rw [add_right_cancel hset]
      · rintro left ⟨⟩ m hm
        exact resolved_labelled hm
    · exact absurd ht (by simp)
  | publish k accepted =>
    rw [turn] at ht
    split at ht
    · rename_i m left hpass
      have hm : Labelled m := hlabelled _ (List.mem_of_getElem? hpass) m List.mem_cons_self
      have hleft : ∀ m ∈ left, Labelled m := fun m' hm' =>
        hlabelled _ (List.mem_of_getElem? hpass) m' (List.mem_cons_of_mem m hm')
      have hcaptured : Pass.captured (.publishing (m :: left)) = [m.captured] ++ Pass.captured (.publishing left) := rfl
      have hset := flatMap_set_add hpass (.publishing left) Pass.captured
      rw [hcaptured, ← Multiset.coe_add, ← add_assoc] at hset
      rw [waiting, ← Multiset.coe_add, ← add_right_cancel hset] at htotal
      have hset' : ∀ rest, Pass.publishing rest ∈ w.passes.set k (.publishing left) → ∀ m ∈ rest, Labelled m :=
        set_labelled hlabelled (by rintro _ ⟨⟩; exact hleft)
      split at ht
      · obtain rfl := Option.some.inj ht
        refine ⟨hexact, ⟨htotal.trans ?_, ?_⟩, hset'⟩
        · simp only [waiting, attempted, List.map_append, List.map_singleton, ← Multiset.coe_add]
          change _ = _ + ([m.captured] : Multiset Payload) + _ + _ + _
          ac_rfl
        · intro e he
          rcases List.mem_append.mp he with he | he
          · exact hdelivered e he
          · rw [List.mem_singleton.mp he]
            exact hm.delivered
      · obtain rfl := Option.some.inj ht
        refine ⟨hexact, ⟨htotal.trans ?_, hdelivered⟩, hset'⟩
        simp only [waiting, attempted, List.map_append, List.map_singleton, ← Multiset.coe_add]
        ac_rfl
    · exact absurd ht (by simp)

end Turns

section Sessions

variable {hooks : Hooks Obj Payload} {runningLoop : Bool}

lemma listen_extends {before : List (Handover Payload)} (e : Savepoints.Event (Change Obj))
    (s : Savepoints.Session (Change Obj) Payload) (m : Memory Payload) (h : before <+: m.handovers) :
    before <+: (Listeners.listen hooks runningLoop sessionMaker e s m).handovers := by
  cases e with
  | beforeFlush changes => exact h
  | afterCommit =>
    simp only [Listeners.listen, Listeners.publish]
    split_ifs
    · exact h
    · exact h
    · exact h.trans (List.prefix_append _ _)
    · exact h.trans (List.prefix_append _ _)
  | afterRollback => exact h
  | afterTransactionEnd outermost => exact h

lemma session_extends {p q : State Obj Payload} {op : Listeners.Op Obj}
    (h : Listeners.step hooks runningLoop sessionMaker p op = some q) : p.2.handovers <+: q.2.handovers := by
  have hself : p.2.handovers <+: p.2.handovers := List.prefix_rfl
  cases op with
  | change c =>
    obtain rfl := Option.some.inj h
    exact hself
  | flush =>
    obtain rfl := Option.some.inj h
    exact Savepoints.flush_keeps listen_extends hself
  | beginNested =>
    obtain rfl := Option.some.inj h
    exact Savepoints.beginNested_keeps listen_extends hself
  | release =>
    simp only [Listeners.step] at h
    split_ifs at h
    obtain rfl := Option.some.inj h
    exact Savepoints.release_keeps listen_extends hself
  | rollbackTo =>
    simp only [Listeners.step] at h
    split_ifs at h
    obtain rfl := Option.some.inj h
    exact Savepoints.rollbackTo_keeps listen_extends hself
  | commit =>
    obtain rfl := Option.some.inj h
    exact Savepoints.commit_keeps listen_extends hself
  | rollback =>
    obtain rfl := Option.some.inj h
    exact Savepoints.rollback_keeps listen_extends hself

lemma durable_handedOn {p q : State Obj Payload} (hp : Exact p) (hq : Exact q) (h : p.2.handovers <+: q.2.handovers) :
    q.1.durable = p.1.durable ++ (q.2.handovers.drop p.2.handovers.length).flatMap Handover.batch := by
  obtain ⟨new, hnew⟩ := h
  rw [← hq.handedOn, ← hp.handedOn, Memory.handedOn, Memory.handedOn, ← hnew, List.drop_left, List.flatMap_append]

structure Received (w v : World) (items : List Payload) : Prop where
  sessions : v.sessions = w.sessions
  attempted : attempted v = attempted w
  published : v.published = w.published
  lost : v.lost = w.lost
  waiting : (waiting v : Multiset Payload) = waiting w + items
  labelled : (∀ left, Pass.publishing left ∈ w.passes → ∀ m ∈ left, Labelled m) →
    ∀ left, Pass.publishing left ∈ v.passes → ∀ m ∈ left, Labelled m

lemma add_items (r : Coalesce.World Unit Payload) (batch : List Payload) :
    (r.add () batch).coalescer.items = r.coalescer.items ++ batch ∧ (r.add () batch).flushed = r.flushed := by
  have hloop : r.coalescer.ofLoop () = r.coalescer := if_neg (by simp)
  rw [Coalesce.World.add, hloop]
  cases r.coalescer.task with
  | none => exact ⟨rfl, rfl⟩
  | some t => exact ⟨rfl, rfl⟩

lemma handOver_received (w : World) (h : Handover Payload) : Received w (w.handOver h) h.batch := by
  cases h with
  | task batch =>
    have hcaptured : Pass.captured (.publishing (batch.map Message.raw)) = batch :=
      (List.map_map ..).trans (List.map_id batch)
    refine ⟨rfl, rfl, rfl, rfl, ?_, ?_⟩
    · simp only [waiting, World.handOver, List.flatMap_append, List.flatMap_singleton, hcaptured, Handover.batch,
        ← Multiset.coe_add]
      ac_rfl
    · intro hw left hleft m hm
      rcases List.mem_append.mp hleft with hleft | hleft
      · exact hw left hleft m hm
      · obtain rfl := Pass.publishing.inj (List.mem_singleton.mp hleft)
        obtain ⟨p, _, rfl⟩ := List.mem_map.mp hm
        exact Labelled.raw p
  | resolver batch =>
    refine ⟨rfl, rfl, rfl, rfl, ?_, fun hw => hw⟩
    simp only [waiting, World.handOver, (add_items w.resolver batch).1, Handover.batch, ← Multiset.coe_add]
    ac_rfl

lemma handOvers_received (hs : List (Handover Payload)) (w : World) :
    Received w (hs.foldl World.handOver w) (hs.flatMap Handover.batch) := by
  induction hs generalizing w with
  | nil => exact ⟨rfl, rfl, rfl, rfl, (add_zero _).symm, fun hw => hw⟩
  | cons h hs ih =>
    have hfirst := handOver_received w h
    have hrest := ih (w.handOver h)
    refine ⟨hrest.sessions.trans hfirst.sessions, hrest.attempted.trans hfirst.attempted,
      hrest.published.trans hfirst.published, hrest.lost.trans hfirst.lost, ?_,
      fun hw => hrest.labelled (hfirst.labelled hw)⟩
    rw [List.foldl_cons, hrest.waiting, hfirst.waiting, List.flatMap_cons, ← Multiset.coe_add]
    ac_rfl

end Sessions

lemma session_inv {i : ℕ} {ctx : AuditContext} {op : Listeners.Op Obj} (h : Inv w)
    (hown : Own eq serviceName w (.session i ctx op))
    (hv : step eq serviceName sessionMaker w (.session i ctx op) = some v) : Inv v := by
  obtain ⟨p, hp, hv⟩ := Option.bind_eq_some_iff.mp hv
  obtain ⟨q, hq, hv⟩ := Option.bind_eq_some_iff.mp hv
  obtain rfl := Option.some.inj hv
  have hexact := h.exact p (List.mem_of_getElem? hp)
  have hexact' := step_exact hexact (hown p hp) hq
  have hdurable := durable_handedOn hexact hexact' (session_extends hq)
  set new := q.2.handovers.drop p.2.handovers.length with hnew
  have hreceived := handOvers_received new { w with sessions := w.sessions.set i q }
  refine ⟨?_, ⟨?_, ?_⟩, hreceived.labelled h.labelled⟩
  · rw [hreceived.sessions]
    intro p' hp'
    rcases List.mem_or_eq_of_mem_set hp' with hp' | rfl
    · exact h.exact p' hp'
    · exact hexact'
  · have hset := flatMap_set_add hp q (fun p => p.1.durable)
    rw [hdurable, ← Multiset.coe_add, add_comm (p.1.durable : Multiset Payload), ← add_assoc] at hset
    rw [committed, hreceived.sessions, hreceived.attempted, hreceived.lost, hreceived.waiting,
      add_right_cancel hset]
    change (committed w : Multiset Payload) + _ = attempted w + w.lost + (waiting w + _)
    rw [h.accounts.total]
    ac_rfl
  · rw [hreceived.published]
    exact h.accounts.delivered

lemma step_inv {op : Op} (h : Inv w) (hown : Own eq serviceName w op)
    (hv : step eq serviceName sessionMaker w op = some v) : Inv v := by
  cases op with
  | connect =>
    obtain rfl := Option.some.inj hv
    refine ⟨?_, ⟨?_, h.accounts.delivered⟩, h.labelled⟩
    · intro p hp
      rcases List.mem_append.mp hp with hp | hp
      · exact h.exact p hp
      · rw [List.mem_singleton.mp hp]
        exact ⟨rfl, rfl⟩
    · have hcommitted : committed { w with sessions := w.sessions ++ [Listeners.start] } = committed w := by
        rw [committed, List.flatMap_append]
        exact List.append_nil _
      rw [hcommitted]
      exact h.accounts.total
  | session i ctx op => exact session_inv h hown hv
  | turn t => exact turn_inv h hv
  | cancelDrain id =>
    obtain ⟨r, hr, rfl⟩ := Option.map_eq_some_iff.mp hv
    obtain ⟨d, _, rfl⟩ := Option.map_eq_some_iff.mp hr
    exact ⟨h.exact, ⟨h.accounts.total, h.accounts.delivered⟩, h.labelled⟩
  | cancelPass k =>
    obtain ⟨pass, hpass, rfl⟩ := Option.map_eq_some_iff.mp hv
    refine ⟨h.exact, ⟨h.accounts.total.trans ?_, h.accounts.delivered⟩, set_labelled h.labelled ?_⟩
    · have hset := (flatMap_set_add hpass (.publishing []) Pass.captured).trans (add_zero _)
      simp only [waiting, attempted, ← Multiset.coe_add]
      rw [← hset]
      ac_rfl
    · rintro _ ⟨⟩ m hm
      exact absurd hm List.not_mem_nil

section Rest

def Pass.left : Pass → ℕ
  | .resolving batch => batch.length + 1
  | .publishing left => left.length

def left (w : World) : ℕ :=
  2 * Coalesce.left w.resolver + w.resolver.coalescer.items.length + (w.passes.map Pass.left).sum

lemma turn_left {t : Turn} (ht : turn w t = some v) : left v < left w := by
  cases t with
  | drain t =>
    obtain ⟨r, hr, rfl⟩ := Option.map_eq_some_iff.mp ht
    have hlt := Coalesce.turn_left hr
    cases Coalesce.turn_turns hr with
    | moves id d d' _ _ _ _ =>
      have hnew : (w.resolver.set id d').flushed.drop w.resolver.flushed.length = [] := List.drop_length
      have hitems : (w.resolver.set id d').coalescer.items = w.resolver.coalescer.items := rfl
      simp only [left, hnew, hitems, List.map_nil, List.append_nil]
      omega
    | takes id d _ _ _ =>
      have hnew : (w.resolver.flush.set id .flushing).flushed.drop w.resolver.flushed.length =
          [w.resolver.coalescer.items] := List.drop_left
      have hitems : (w.resolver.flush.set id .flushing).coalescer.items = [] := rfl
      simp only [left, hnew, hitems, List.map_singleton, sum_concat, Pass.left, List.length_nil]
      omega
  | resolve k answer =>
    rw [turn] at ht
    split at ht
    · rename_i batch hbatch
      obtain rfl := Option.some.inj ht
      have hset := sum_set_add hbatch (.publishing (resolved answer batch)) Pass.left
      have hlength : (resolved answer batch).length = batch.length := by
        rw [← congrArg List.length (captured_resolved answer batch), List.length_map]
      simp only [Pass.left, hlength] at hset
      simp only [left]
      omega
    · exact absurd ht (by simp)
  | publish k accepted =>
    rw [turn] at ht
    split at ht
    · rename_i m rest hpass
      have hset := sum_set_add hpass (.publishing rest) Pass.left
      simp only [Pass.left, List.length_cons] at hset
      split at ht
      · obtain rfl := Option.some.inj ht
        simp only [left]
        omega
      · obtain rfl := Option.some.inj ht
        simp only [left]
        omega
    · exact absurd ht (by simp)

lemma waiting_nil (hlive : Coalesce.Live () w.resolver) (hrest : AtRest w) : waiting w = [] := by
  have hresolver : Coalesce.AtRest w.resolver := fun t => Option.map_eq_none_iff.mp (hrest (.drain t))
  have hpass : ∀ pass ∈ w.passes, pass.captured = [] := by
    intro pass hmem
    obtain ⟨k, hk⟩ := List.mem_iff_getElem?.mp hmem
    cases pass with
    | resolving batch =>
      have hnone := hrest (.resolve k none)
      simp [turn, hk] at hnone
    | publishing left =>
      cases left with
      | nil => rfl
      | cons m left =>
        have hnone := hrest (.publish k true)
        simp [turn, hk] at hnone
  have hitems : w.resolver.coalescer.items = [] := by
    have horder := hlive.inOrder
    rwa [hlive.whole hresolver, List.append_right_eq_self] at horder
  rw [waiting, hitems, List.flatMap_eq_nil_iff.mpr hpass]
  rfl

end Rest

structure Whole (w : World) : Prop where
  live : Coalesce.Live () w.resolver
  lost : w.lost = []

lemma turn_whole {t : Turn} (h : Whole w) (ht : turn w t = some v) : Whole v := by
  cases t with
  | drain t =>
    obtain ⟨r, hr, rfl⟩ := Option.map_eq_some_iff.mp ht
    exact ⟨Coalesce.turn_live h.live hr, h.lost⟩
  | resolve k answer =>
    rw [turn] at ht
    split at ht
    · obtain rfl := Option.some.inj ht
      exact ⟨h.live, h.lost⟩
    · exact absurd ht (by simp)
  | publish k accepted =>
    rw [turn] at ht
    split at ht
    · split at ht
      · obtain rfl := Option.some.inj ht
        exact ⟨h.live, h.lost⟩
      · obtain rfl := Option.some.inj ht
        exact ⟨h.live, h.lost⟩
    · exact absurd ht (by simp)

lemma handOvers_whole (hs : List (Handover Payload)) (h : Whole w) : Whole (hs.foldl World.handOver w) := by
  induction hs generalizing w with
  | nil => exact h
  | cons handover hs ih =>
    cases handover with
    | task batch => exact ih ⟨h.live, h.lost⟩
    | resolver batch => exact ih ⟨h.live.add batch, h.lost⟩

lemma step_whole {op : Op} (h : Whole w) (hunharmed : Unharmed w op)
    (hv : step eq serviceName sessionMaker w op = some v) : Whole v := by
  cases op with
  | connect =>
    obtain rfl := Option.some.inj hv
    exact ⟨h.live, h.lost⟩
  | session i ctx op =>
    obtain ⟨p, _, hv⟩ := Option.bind_eq_some_iff.mp hv
    obtain ⟨q, _, hv⟩ := Option.bind_eq_some_iff.mp hv
    obtain rfl := Option.some.inj hv
    exact handOvers_whole _ ⟨h.live, h.lost⟩
  | turn t => exact turn_whole h hv
  | cancelDrain id =>
    obtain ⟨r, hr, rfl⟩ := Option.map_eq_some_iff.mp hv
    have hbegun : Coalesce.Begun w.resolver (.cancel id) := hunharmed
    exact ⟨Coalesce.step_live h.live hbegun hr, h.lost⟩
  | cancelPass k => exact absurd hunharmed id

lemma committed_turn {t : Turn} (ht : turn w t = some v) : committed v = committed w := by
  cases t with
  | drain t =>
    obtain ⟨r, _, rfl⟩ := Option.map_eq_some_iff.mp ht
    rfl
  | resolve k answer =>
    rw [turn] at ht
    split at ht
    · rw [← Option.some.inj ht]
      rfl
    · exact absurd ht (by simp)
  | publish k accepted =>
    rw [turn] at ht
    split at ht
    · split at ht
      · rw [← Option.some.inj ht]
        rfl
      · rw [← Option.some.inj ht]
        rfl
    · exact absurd ht (by simp)

lemma Whole.settles (h : Whole w) (hinv : Inv w) : Settles w := by
  refine ⟨⟨left w, fun turns v hv => run_length_le (fun _ _ _ => turn_left) hv⟩, ?_⟩
  intro turns v hv hrest
  have hinv' := run_invariant (fun _ _ _ => turn_inv) hinv hv
  have hwhole := run_invariant (fun _ _ _ => turn_whole) h hv
  have hcommitted : committed v = committed w := by
    refine run_relates (R := fun w v : World => committed v = committed w) (fun _ => rfl) ?_ ?_ hv
    · intro s t u h₁ h₂
      exact h₂.trans h₁
    · intro s t u hu
      exact committed_turn hu
  have htotal := hinv'.accounts.total
  rw [hwhole.lost, waiting_nil hwhole.live hrest, Multiset.coe_nil, add_zero, add_zero] at htotal
  rw [← hcommitted, htotal]

lemma inv_start : Inv start :=
  ⟨fun _ hp => absurd hp List.not_mem_nil, ⟨rfl, fun _ he => absurd he List.not_mem_nil⟩,
    fun _ hl => absurd hl List.not_mem_nil⟩

theorem committed_is_published_once (eq : Val → Val → Bool) (serviceName : Option String) (sessionMaker : Bool)
    (ops : List Op) (w : World) (hrun : run (step eq serviceName sessionMaker) start ops = some w)
    (hown : Along (step eq serviceName sessionMaker) (Own eq serviceName) start ops) :
    Accounts w ∧ (Along (step eq serviceName sessionMaker) Unharmed start ops → Settles w) := by
  have hinv : Inv w := run_along (fun _ _ _ => step_inv) inv_start hown hrun
  refine ⟨hinv.accounts, fun hunharmed => ?_⟩
  have hwhole : Whole w := run_along (fun _ _ _ => step_whole) ⟨Coalesce.live_start, rfl⟩ hunharmed hrun
  exact hwhole.settles hinv

def twoSessions : List Op :=
  [.connect, .connect, .session 0 byNobody (.change ⟨.new, user "a1" fun _ => none⟩), .session 0 byNobody .commit,
    .session 1 byNobody (.change ⟨.new, user "b1" fun _ => none⟩), .session 1 byNobody .rollback,
    .turn (.drain (.resume 0)), .turn (.drain (.expire 0)), .turn (.drain (.resume 0)), .turn (.resolve 0 none),
    .turn (.publish 0 true)]

theorem commit_is_published_rollback_is_not :
    ∃ w, run (step (fun _ _ => false) none true) start twoSessions = some w ∧
      w.published.map (fun e => (e.1, e.2.captured.auditId)) = [("audit.unknown.create", "a1")] ∧ Accounts w ∧
      Settles w := by
  have hown : Along (step (fun _ _ => false) none true) (Own (fun _ _ => false) none) start twoSessions := by
    simp [twoSessions, Along, Own, OwnEntries]
  have hunharmed : Along (step (fun _ _ => false) none true) Unharmed start twoSessions := by
    simp [twoSessions, Along, Unharmed]
  have hrun := committed_is_published_once (fun _ _ => false) none true twoSessions _ rfl hown
  exact ⟨_, rfl, rfl, hrun.1, hrun.2 hunharmed⟩

end TheCargo.Audit.Delivery
