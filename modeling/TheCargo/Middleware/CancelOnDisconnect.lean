import Mathlib.Data.Int.Notation
import TheCargo.Foundation.Runs

/-! A request that is cancelled when its client goes away: the pump, the app and the middleware between them. -/

namespace TheCargo.Middleware

open Foundation.Runs

/-- `moreBody` is the truth of `message.get("more_body", False)`; `rest` is what the middleware does not read. -/
structure Message (β : Type*) where
  type : String
  status : Option ℤ
  moreBody : Bool
  rest : β
  deriving DecidableEq

structure Scope where
  type : String
  method : Option String

structure CancelOnDisconnectMiddleware where
  methods : List String

def init (upper : String → String) (methods : List String) : CancelOnDisconnectMiddleware := ⟨methods.map upper⟩

def CancelOnDisconnectMiddleware.cancels (upper : String → String) (mw : CancelOnDisconnectMiddleware)
    (scope : Scope) : Bool :=
  scope.type = "http" && mw.methods.contains (upper (scope.method.getD ""))

inductive Result
  | returned
  | raised
  | cancelled
  deriving DecidableEq

inductive Task
  | running (cancelled : Bool)
  | done (result : Result)
  deriving DecidableEq

def Task.isDone : Task → Bool
  | .running _ => false
  | .done _ => true

def Task.cancel : Task → Task
  | .running _ => .running true
  | .done result => .done result

inductive Phase
  | waiting
  | joining
  | cancelling
  | sendingStart
  | sendingBody
  | ended
  deriving DecidableEq

inductive Sender
  | app
  | middleware
  deriving DecidableEq

structure World (β : Type*) where
  phase : Phase
  app : Task
  pump : Task
  queue : List (Message β)
  disconnected : Bool
  started : Bool
  completed : Bool
  delivered : List (Message β)
  received : List (Message β)
  handed : List (Message β)
  sent : List (Sender × Message β)
  deriving DecidableEq

inductive Event (β : Type*)
  | deliver (m : Message β)
  | receiveFails
  | pumpStops
  | get
  | send (m : Message β)
  | finish (result : Result)
  | wake
  | answered (ok : Bool)

variable {β : Type*}

def call (upper : String → String) (mw : CancelOnDisconnectMiddleware) (scope : Scope) : Option (World β) :=
  if mw.cancels upper scope then
    some ⟨.waiting, .running false, .running false, [], false, false, false, [], [], [], []⟩
  else none

def Message.isStart (m : Message β) : Bool := m.type = "http.response.start"

def Message.isFinal (m : Message β) : Bool := m.type = "http.response.body" && !m.moreBody

def World.pumped (w : World β) (m : Message β) : World β :=
  let w := { w with delivered := w.delivered ++ [m], queue := w.queue ++ [m] }
  if m.type = "http.disconnect" then { w with disconnected := true, pump := .done .returned } else w

def World.trackingSend (w : World β) (m : Message β) : World β :=
  let w :=
    if m.type = "http.response.start" then { w with started := true }
    else if m.type = "http.response.body" ∧ m.moreBody = false then { w with completed := true }
    else w
  { w with handed := w.handed ++ [m], sent := w.sent ++ [(.app, m)] }

def World.leave (w : World β) : World β := { w with phase := .ended, pump := w.pump.cancel }

-- The synthetic response; `noHeaders` and `noBody` are its entries that nothing reads.
variable (noHeaders noBody : β)

def closedStart : Message β := ⟨"http.response.start", some 499, false, noHeaders⟩

def closedBody : Message β := ⟨"http.response.body", none, false, noBody⟩

def World.own (w : World β) (phase : Phase) (m : Message β) : World β :=
  { w with phase := phase, sent := w.sent ++ [(.middleware, m)] }

def World.wake (w : World β) : Option (World β) :=
  match w.phase with
  | .waiting =>
    if w.app.isDone then some w.leave
    else if w.pump.isDone then
      if w.disconnected = false then some { w with phase := .joining }
      else if w.completed then some { w with phase := .joining }
      else some { w with phase := .cancelling, app := w.app.cancel }
    else none
  | .joining => if w.app.isDone then some w.leave else none
  | .cancelling =>
    match w.app with
    | .running _ => none
    | .done .raised => some w.leave
    | .done _ => if w.started then some w.leave else some (w.own .sendingStart (closedStart noHeaders))
  | _ => none

def step (w : World β) : Event β → Option (World β)
  | .deliver m => if w.pump = .running false then some (w.pumped m) else none
  | .receiveFails => if w.pump = .running false then some { w with pump := .done .raised } else none
  | .pumpStops => if w.pump = .running true then some { w with pump := .done .cancelled } else none
  | .get =>
    match w.queue with
    | m :: queue =>
      if w.app.isDone then none else some { w with queue := queue, received := w.received ++ [m] }
    | [] => none
  | .send m => if w.app.isDone then none else some (w.trackingSend m)
  | .finish result => if w.app.isDone then none else some { w with app := .done result }
  | .wake => w.wake noHeaders
  | .answered ok =>
    match w.phase with
    | .sendingStart => if ok then some (w.own .sendingBody (closedBody noBody)) else some w.leave
    | .sendingBody => some w.leave
    | _ => none

structure KeepsResponse (w : World β) : Prop where
  cancels : ∀ e v, step noHeaders noBody w e = some v → w.app ≠ .running true → v.app = .running true →
    (∃ m ∈ w.delivered, m.type = "http.disconnect") ∧ ∀ m ∈ w.handed, m.isFinal = false
  starts : w.sent.countP (fun s => s.2.isStart) ≤ 1
  synthetic : ∀ s ∈ w.sent, s.1 = .middleware → ∀ m ∈ w.handed, m.isStart = false
  inOrder : w.received <+: w.delivered

def World.mine (w : World β) : List (Sender × Message β) := w.sent.filter (fun s => s.1 = .middleware)

variable {noHeaders noBody} {w v : World β} {m : Message β}

structure Kept (noHeaders noBody : β) (w : World β) : Prop where
  started : w.started = w.handed.any Message.isStart
  completed : w.completed = w.handed.any Message.isFinal
  disconnected : w.disconnected = true → ∃ m ∈ w.delivered, m.type = "http.disconnect"
  queue : w.received ++ w.queue = w.delivered
  apps : (w.sent.filter (fun s => s.1 = .app)).map Prod.snd = w.handed
  before : w.phase = .waiting ∨ w.phase = .joining ∨ w.phase = .cancelling → w.mine = []
  opened : w.phase = .sendingStart → w.mine = [(.middleware, closedStart noHeaders)]
  few : w.mine <+: [(.middleware, closedStart noHeaders), (.middleware, closedBody noBody)]
  after : w.mine ≠ [] → w.app.isDone = true ∧ w.started = false

lemma kept_call {upper : String → String} {mw : CancelOnDisconnectMiddleware} {scope : Scope}
    (h : call upper mw scope = some w) : Kept noHeaders noBody w := by
  rw [call] at h
  split at h
  · obtain rfl := Option.some.inj h
    exact ⟨rfl, rfl, by simp, rfl, rfl, fun _ => rfl, by simp, List.nil_prefix, by simp [World.mine]⟩
  · exact absurd h (by simp)

lemma Kept.pumped (h : Kept noHeaders noBody w) (m : Message β) : Kept noHeaders noBody (w.pumped m) := by
  have hqueue : w.received ++ (w.queue ++ [m]) = w.delivered ++ [m] := by rw [← List.append_assoc, h.queue]
  rw [World.pumped]
  split
  · rename_i hm
    refine ⟨h.started, h.completed, ?_, hqueue, h.apps, h.before, h.opened, h.few, h.after⟩
    intro _
    exact ⟨m, List.mem_append_right _ (List.mem_singleton_self m), hm⟩
  · refine ⟨h.started, h.completed, ?_, hqueue, h.apps, h.before, h.opened, h.few, h.after⟩
    intro hd
    obtain ⟨m', hm', ht⟩ := h.disconnected hd
    exact ⟨m', List.mem_append_left _ hm', ht⟩

lemma trackingSend_eq (w : World β) (m : Message β) :
    w.trackingSend m =
      { w with
        started := w.started || m.isStart
        completed := w.completed || m.isFinal
        handed := w.handed ++ [m]
        sent := w.sent ++ [(.app, m)] } := by
  rw [World.trackingSend, Message.isStart, Message.isFinal]
  split
  · rename_i hm
    simp [hm]
  · rename_i hm
    split
    · rename_i hf
      simp [hf.1, hf.2]
    · rename_i hf
      have hmore : m.type = "http.response.body" → m.moreBody = true := by simpa using hf
      by_cases ht : m.type = "http.response.body"
      · simp [hm, hmore ht]
      · simp [hm, ht]

lemma Kept.trackingSend (h : Kept noHeaders noBody w) (m : Message β) (happ : w.app.isDone = false) :
    Kept noHeaders noBody (w.trackingSend m) := by
  have hmine : (w.trackingSend m).mine = w.mine := by
    rw [trackingSend_eq, World.mine, World.mine, List.filter_append]
    simp
  rw [trackingSend_eq] at hmine ⊢
  refine ⟨?_, ?_, h.disconnected, h.queue, ?_, ?_, ?_, ?_, ?_⟩
  · rw [List.any_append, h.started]
    simp
  · rw [List.any_append, h.completed]
    simp
  · rw [List.filter_append, List.map_append, h.apps]
    simp
  · rw [hmine]
    exact h.before
  · rw [hmine]
    exact h.opened
  · rw [hmine]
    exact h.few
  · rw [hmine]
    intro hne
    exact absurd (h.after hne).1 (by simp [happ])

lemma Kept.leave (h : Kept noHeaders noBody w) : Kept noHeaders noBody w.leave :=
  ⟨h.started, h.completed, h.disconnected, h.queue, h.apps, by simp [World.leave], by simp [World.leave],
    h.few, h.after⟩

lemma Kept.own (h : Kept noHeaders noBody w) {phase : Phase} {m : Message β} (hdone : w.app.isDone = true)
    (hstarted : w.started = false)
    (hfew : w.mine ++ [(.middleware, m)] <+: [(.middleware, closedStart noHeaders), (.middleware, closedBody noBody)])
    (hphase : (phase = .sendingStart ∧ w.mine = [] ∧ m = closedStart noHeaders) ∨ phase = .sendingBody) :
    Kept noHeaders noBody (w.own phase m) := by
  have hmine : (w.own phase m).mine = w.mine ++ [(.middleware, m)] := by
    rw [World.own, World.mine, World.mine, List.filter_append]
    simp
  refine ⟨h.started, h.completed, h.disconnected, h.queue, ?_, ?_, ?_, ?_, fun _ => ⟨hdone, hstarted⟩⟩
  · rw [World.own, List.filter_append, List.map_append, h.apps]
    simp
  · intro hbefore
    rcases hphase with ⟨rfl, _⟩ | rfl
    · simp [World.own] at hbefore
    · simp [World.own] at hbefore
  · intro hopened
    rcases hphase with ⟨_, hnone, rfl⟩ | rfl
    · rw [hmine, hnone, List.nil_append]
    · simp [World.own] at hopened
  · rwa [hmine]

inductive Moves (noHeaders noBody : β) (w : World β) : World β → Prop
  | pumped (m : Message β) : Moves noHeaders noBody w (w.pumped m)
  | stopped (pump : Task) : Moves noHeaders noBody w { w with pump := pump }
  | got (m : Message β) (queue : List (Message β)) (hqueue : w.queue = m :: queue) :
      Moves noHeaders noBody w { w with queue := queue, received := w.received ++ [m] }
  | handed (m : Message β) (happ : w.app.isDone = false) : Moves noHeaders noBody w (w.trackingSend m)
  | finished (result : Result) : Moves noHeaders noBody w { w with app := .done result }
  | joined (hphase : w.phase = .waiting) : Moves noHeaders noBody w { w with phase := .joining }
  | cancelled (hphase : w.phase = .waiting) (hdisc : w.disconnected = true) (hcomp : w.completed = false) :
      Moves noHeaders noBody w { w with phase := .cancelling, app := w.app.cancel }
  | left : Moves noHeaders noBody w w.leave
  | opened (hphase : w.phase = .cancelling) (happ : w.app.isDone = true) (hstarted : w.started = false) :
      Moves noHeaders noBody w (w.own .sendingStart (closedStart noHeaders))
  | closed (hphase : w.phase = .sendingStart) :
      Moves noHeaders noBody w (w.own .sendingBody (closedBody noBody))

lemma wake_moves (h : w.wake noHeaders = some v) : Moves noHeaders noBody w v := by
  rw [World.wake] at h
  split at h
  · rename_i hphase
    split at h
    · obtain rfl := Option.some.inj h
      exact .left
    · split at h
      · split at h
        · obtain rfl := Option.some.inj h
          exact .joined hphase
        · rename_i hdisc
          split at h
          · obtain rfl := Option.some.inj h
            exact .joined hphase
          · rename_i hcomp
            obtain rfl := Option.some.inj h
            exact .cancelled hphase (Bool.not_eq_false _ ▸ hdisc) (Bool.eq_false_iff.mpr hcomp)
      · exact absurd h (by simp)
  · split at h
    · obtain rfl := Option.some.inj h
      exact .left
    · exact absurd h (by simp)
  · rename_i hphase
    split at h
    · exact absurd h (by simp)
    · obtain rfl := Option.some.inj h
      exact .left
    · rename_i happ
      split at h
      · obtain rfl := Option.some.inj h
        exact .left
      · rename_i hstarted
        obtain rfl := Option.some.inj h
        refine .opened hphase ?_ (Bool.eq_false_iff.mpr hstarted)
        rw [happ]
        rfl
  · exact absurd h (by simp)

lemma step_moves {e : Event β} (h : step noHeaders noBody w e = some v) : Moves noHeaders noBody w v := by
  cases e with
  | deliver m =>
    obtain ⟨_, hv⟩ := Option.ite_none_right_eq_some.mp h
    obtain rfl := Option.some.inj hv
    exact .pumped m
  | receiveFails =>
    obtain ⟨_, hv⟩ := Option.ite_none_right_eq_some.mp h
    obtain rfl := Option.some.inj hv
    exact .stopped _
  | pumpStops =>
    obtain ⟨_, hv⟩ := Option.ite_none_right_eq_some.mp h
    obtain rfl := Option.some.inj hv
    exact .stopped _
  | get =>
    rw [step] at h
    split at h
    · rename_i m queue hqueue
      obtain ⟨_, hv⟩ := Option.ite_none_left_eq_some.mp h
      obtain rfl := Option.some.inj hv
      exact .got m queue hqueue
    · exact absurd h (by simp)
  | send m =>
    obtain ⟨happ, hv⟩ := Option.ite_none_left_eq_some.mp h
    obtain rfl := Option.some.inj hv
    exact .handed m (Bool.eq_false_iff.mpr happ)
  | finish result =>
    obtain ⟨_, hv⟩ := Option.ite_none_left_eq_some.mp h
    obtain rfl := Option.some.inj hv
    exact .finished result
  | wake => exact wake_moves h
  | answered ok =>
    rw [step] at h
    split at h
    · rename_i hphase
      split at h
      · obtain rfl := Option.some.inj h
        exact .closed hphase
      · obtain rfl := Option.some.inj h
        exact .left
    · obtain rfl := Option.some.inj h
      exact .left
    · exact absurd h (by simp)

lemma Moves.kept (hm : Moves noHeaders noBody w v) (h : Kept noHeaders noBody w) : Kept noHeaders noBody v := by
  cases hm with
  | pumped m => exact h.pumped m
  | stopped pump =>
    exact ⟨h.started, h.completed, h.disconnected, h.queue, h.apps, h.before, h.opened, h.few, h.after⟩
  | got m queue hqueue =>
    refine ⟨h.started, h.completed, h.disconnected, ?_, h.apps, h.before, h.opened, h.few, h.after⟩
    rw [← h.queue, hqueue, List.append_assoc, List.singleton_append]
  | handed m happ => exact h.trackingSend m happ
  | finished result =>
    refine ⟨h.started, h.completed, h.disconnected, h.queue, h.apps, h.before, h.opened, h.few, ?_⟩
    intro hne
    exact ⟨rfl, (h.after hne).2⟩
  | joined hphase =>
    exact ⟨h.started, h.completed, h.disconnected, h.queue, h.apps, fun _ => h.before (Or.inl hphase), by simp, h.few,
      h.after⟩
  | cancelled hphase _ _ =>
    have hmine := h.before (Or.inl hphase)
    exact ⟨h.started, h.completed, h.disconnected, h.queue, h.apps, fun _ => hmine, by simp, h.few,
      fun hne => absurd hmine hne⟩
  | left => exact h.leave
  | opened hphase happ hstarted =>
    have hmine := h.before (Or.inr (Or.inr hphase))
    refine h.own happ hstarted ?_ (Or.inl ⟨rfl, hmine, rfl⟩)
    rw [hmine]
    exact ⟨[(.middleware, closedBody noBody)], rfl⟩
  | closed hphase =>
    have hmine := h.opened hphase
    obtain ⟨hdone, hstarted⟩ := h.after (by simp [hmine])
    refine h.own hdone hstarted ?_ (Or.inr rfl)
    rw [hmine]
    exact List.prefix_refl _

lemma Moves.cancels (hm : Moves noHeaders noBody w v) (hw : w.app ≠ .running true) (hv : v.app = .running true) :
    w.disconnected = true ∧ w.completed = false := by
  cases hm with
  | pumped m =>
    rw [World.pumped] at hv
    split at hv <;> exact absurd hv hw
  | stopped _ => exact absurd hv hw
  | got _ _ _ => exact absurd hv hw
  | handed m _ =>
    rw [trackingSend_eq] at hv
    exact absurd hv hw
  | finished _ => simp at hv
  | joined _ => exact absurd hv hw
  | cancelled _ hdisc hcomp => exact ⟨hdisc, hcomp⟩
  | left => exact absurd hv hw
  | opened _ _ _ => exact absurd hv hw
  | closed _ => exact absurd hv hw

lemma Kept.starts (h : Kept noHeaders noBody w) (hone : w.handed.countP Message.isStart ≤ 1) :
    w.sent.countP (fun s => s.2.isStart) ≤ 1 := by
  have happs : (w.sent.filter (fun s => s.1 = .app)).countP (fun s => s.2.isStart) =
      w.handed.countP Message.isStart := by
    rw [← h.apps, List.countP_map]
    rfl
  have hmine : w.sent.filter (fun s => !decide (s.1 = .app)) = w.mine := by
    rw [World.mine]
    congr 1
    funext s
    cases s.1 <;> rfl
  rw [List.countP_eq_countP_filter_add w.sent _ (fun s => s.1 = .app), happs, hmine]
  by_cases hnone : w.mine = []
  · rw [hnone]
    exact hone
  · have hhanded : w.handed.countP Message.isStart = 0 := by
      have hstarted := (h.after hnone).2
      rw [h.started, List.any_eq_false] at hstarted
      exact List.countP_eq_zero.mpr hstarted
    have hfew := h.few.sublist.countP_le (p := fun s => s.2.isStart)
    rw [hhanded, Nat.zero_add]
    exact Nat.le_trans hfew (by simp [closedStart, closedBody, Message.isStart])

end TheCargo.Middleware
