import TheCargo.Foundation.Runs
import TheCargo.Foundation.Updates

/-! Items queued within a delay are handed to one flush. -/

namespace TheCargo.Coalesce

open Foundation.Runs Foundation.Updates

structure Handle (Loop : Type*) where
  loop : Loop
  id : ℕ
  deriving DecidableEq

structure Coalescer (Loop α : Type*) where
  items : List α
  task : Option (Handle Loop)

inductive Drain
  | created (cancelled : Bool)
  | sleeping (cancelled expired : Bool)
  | flushing
  | finished
  deriving DecidableEq

structure World (Loop α : Type*) where
  coalescer : Coalescer Loop α
  drains : List Drain
  flushed : List (List α)
  added : List α

variable {Loop α : Type*} (running : Loop)

def Coalescer.take (c : Coalescer Loop α) : List α × Coalescer Loop α := (c.items, ⟨[], none⟩)

def Coalescer.ofLoop [DecidableEq Loop] (c : Coalescer Loop α) : Coalescer Loop α :=
  if c.task.any (fun t => t.loop ≠ running) then ⟨[], none⟩ else c

def World.add [DecidableEq Loop] (w : World Loop α) (items : List α) : World Loop α :=
  let c := w.coalescer.ofLoop running
  match c.task with
  | none =>
    { w with
      coalescer := ⟨c.items ++ items, some ⟨running, w.drains.length⟩⟩
      drains := w.drains ++ [.created false]
      added := w.added ++ items }
  | some t => { w with coalescer := ⟨c.items ++ items, some t⟩, added := w.added ++ items }

def Drain.cancel : Drain → Drain
  | .created _ => .created true
  | .sleeping _ expired => .sleeping true expired
  | .flushing => .flushing
  | .finished => .finished

def World.set (w : World Loop α) (id : ℕ) (d : Drain) : World Loop α := { w with drains := w.drains.set id d }

def World.flush (w : World Loop α) : World Loop α :=
  { w with coalescer := w.coalescer.take.2, flushed := w.flushed ++ [w.coalescer.take.1] }

/-- What the loop does of its own: a delay expires, a task takes its next step. -/
inductive Turn
  | expire (id : ℕ)
  | resume (id : ℕ)

def turn (w : World Loop α) : Turn → Option (World Loop α)
  | .expire id =>
    match w.drains[id]? with
    | some (.sleeping cancelled false) => some (w.set id (.sleeping cancelled true))
    | _ => none
  | .resume id =>
    match w.drains[id]? with
    | some (.created true) => some (w.set id .finished)
    | some (.created false) => some (w.set id (.sleeping false false))
    | some (.sleeping cancelled expired) => if cancelled || expired then some (w.flush.set id .flushing) else none
    | some .flushing => some (w.set id .finished)
    | _ => none

inductive Event (α : Type*)
  | add (items : List α)
  | cancel (id : ℕ)
  | turn (t : Turn)

def step [DecidableEq Loop] (w : World Loop α) : Event α → Option (World Loop α)
  | .add items => some (w.add running items)
  | .cancel id => (w.drains[id]?).map (fun d => w.set id d.cancel)
  | .turn t => turn w t

def start : World Loop α := ⟨⟨[], none⟩, [], [], []⟩

def AtRest (w : World Loop α) : Prop := ∀ t, turn w t = none

structure HandsOver (w : World Loop α) : Prop where
  inOrder : w.flushed.flatten ++ w.coalescer.items = w.added
  rests : ∃ n, ∀ turns v, run turn w turns = some v → turns.length ≤ n
  whole : ∀ turns v, run turn w turns = some v → AtRest v → v.flushed.flatten = w.added

def Begun (w : World Loop α) : Event α → Prop
  | .cancel id => ∀ cancelled, w.drains[id]? ≠ some (.created cancelled)
  | _ => True

instance (w : World Loop α) : (e : Event α) → Decidable (Begun w e)
  | .add _ => inferInstanceAs (Decidable True)
  | .cancel id => inferInstanceAs (Decidable (∀ cancelled, w.drains[id]? ≠ some (.created cancelled)))
  | .turn _ => inferInstanceAs (Decidable True)

def Drain.pending : Drain → Bool
  | .created _ => true
  | .sleeping _ _ => true
  | _ => false

def Drain.left : Drain → ℕ
  | .created _ => 4
  | .sleeping _ false => 3
  | .sleeping _ true => 2
  | .flushing => 1
  | .finished => 0

def left (w : World Loop α) : ℕ := (w.drains.map Drain.left).sum

variable {running}

structure Live (running : Loop) (w : World Loop α) : Prop where
  inOrder : w.flushed.flatten ++ w.coalescer.items = w.added
  held : w.coalescer.task = none → w.coalescer.items = []
  known : ∀ t, w.coalescer.task = some t → t.loop = running ∧ t.id < w.drains.length
  pending : ∀ (id : ℕ) d, w.drains[id]? = some d → (d.pending = true ↔ w.coalescer.task = some ⟨running, id⟩)
  entered : .created true ∉ w.drains

lemma live_start : Live running (start : World Loop α) := by
  refine ⟨rfl, fun _ => rfl, ?_, ?_, by simp [start]⟩
  · intro t ht
    simp [start] at ht
  · intro id d hd
    simp [start] at hd

variable {w v : World Loop α} {id : ℕ} {d d' : Drain}

lemma Live.set (h : Live running w) (hd : w.drains[id]? = some d) (hp : d'.pending = d.pending)
    (hn : d' ≠ .created true) : Live running (w.set id d') := by
  refine ⟨h.inOrder, h.held, ?_, ?_, ?_⟩
  · intro t ht
    rw [World.set, List.length_set]
    exact h.known t ht
  · intro id' e he
    rw [World.set, List.getElem?_set] at he
    split at he
    · rename_i heq
      subst heq
      obtain rfl : d' = e := by
        split at he
        · exact Option.some.inj he
        · exact absurd he (by simp)
      rw [hp]
      exact h.pending id d hd
    · exact h.pending id' e he
  · intro hm
    rcases List.mem_or_eq_of_mem_set hm with hm | rfl
    · exact h.entered hm
    · exact hn rfl

lemma Live.flush (h : Live running w) (hd : w.drains[id]? = some d) (hp : d.pending = true) :
    Live running (w.flush.set id .flushing) := by
  have htask := (h.pending id d hd).mp hp
  refine ⟨?_, fun _ => rfl, ?_, ?_, ?_⟩
  · have ho := h.inOrder
    simpa [World.flush, World.set, Coalescer.take] using ho
  · intro t ht
    simp [World.flush, World.set, Coalescer.take] at ht
  · intro id' e he
    rw [World.set, List.getElem?_set] at he
    have hno : e.pending = false := by
      split at he
      · split at he
        · rw [← Option.some.inj he]
          rfl
        · exact absurd he (by simp)
      · rename_i hne
        rw [Bool.eq_false_iff]
        intro hpe
        have hother := (h.pending id' e he).mp hpe
        rw [htask] at hother
        exact hne (congrArg Handle.id (Option.some.inj hother))
    simp [hno, World.set, World.flush, Coalescer.take]
  · intro hm
    rcases List.mem_or_eq_of_mem_set hm with hm | hm
    · exact h.entered hm
    · simp at hm

lemma Live.add [DecidableEq Loop] (h : Live running w) (items : List α) : Live running (w.add running items) := by
  have hloop : w.coalescer.ofLoop running = w.coalescer := by
    rw [Coalescer.ofLoop, if_neg]
    intro hany
    obtain ⟨t, ht, hne⟩ := (Option.any_eq_true _ _).mp hany
    exact of_decide_eq_true hne (h.known t ht).1
  have horder : w.flushed.flatten ++ (w.coalescer.items ++ items) = w.added ++ items := by
    rw [← List.append_assoc, h.inOrder]
  rw [World.add, hloop]
  cases htask : w.coalescer.task with
  | none =>
    refine ⟨horder, by simp, ?_, ?_, ?_⟩
    · intro t ht
      obtain rfl := Option.some.inj ht
      exact ⟨rfl, by simp⟩
    · intro id d hd
      rcases Nat.lt_or_ge id w.drains.length with hlt | hge
      · rw [List.getElem?_append_left hlt] at hd
        have hp := h.pending id d hd
        rw [htask] at hp
        have hne : w.drains.length ≠ id := by omega
        simpa [hne] using hp
      · rw [List.getElem?_append_right hge] at hd
        obtain ⟨hid, rfl⟩ : id - w.drains.length = 0 ∧ .created false = d := by
          rw [List.getElem?_singleton] at hd
          split at hd
          · rename_i hz
            exact ⟨hz, Option.some.inj hd⟩
          · exact absurd hd (by simp)
        have hlen : w.drains.length = id := by omega
        simp [Drain.pending, hlen]
    · simpa using h.entered
  | some t =>
    refine ⟨horder, by simp, ?_, ?_, h.entered⟩
    · intro u hu
      exact h.known u (htask.trans hu)
    · intro id d hd
      rw [h.pending id d hd, htask]

inductive Turns (w : World Loop α) : World Loop α → Prop
  | moves (id : ℕ) (d d' : Drain) (hd : w.drains[id]? = some d) (hleft : d'.left < d.left)
      (hp : d = .created true ∨ d'.pending = d.pending) (hn : d' ≠ .created true) : Turns w (w.set id d')
  | takes (id : ℕ) (d : Drain) (hd : w.drains[id]? = some d) (hleft : Drain.flushing.left < d.left)
      (hp : d.pending = true) : Turns w (w.flush.set id .flushing)

lemma turn_turns {t : Turn} (ht : turn w t = some v) : Turns w v := by
  cases t with
  | expire id =>
    rw [turn] at ht
    split at ht
    · rename_i hd
      obtain rfl := Option.some.inj ht
      exact .moves id _ _ hd (Nat.lt_succ_self _) (Or.inr rfl) (by simp)
    · exact absurd ht (by simp)
  | resume id =>
    rw [turn] at ht
    split at ht
    · rename_i hd
      obtain rfl := Option.some.inj ht
      exact .moves id _ _ hd (by simp [Drain.left]) (Or.inl rfl) (by simp)
    · rename_i hd
      obtain rfl := Option.some.inj ht
      exact .moves id _ _ hd (Nat.lt_succ_self _) (Or.inr rfl) (by simp)
    · rename_i expired hd
      split at ht
      · obtain rfl := Option.some.inj ht
        exact .takes id _ hd (by cases expired <;> simp [Drain.left]) rfl
      · exact absurd ht (by simp)
    · rename_i hd
      obtain rfl := Option.some.inj ht
      exact .moves id _ _ hd (Nat.lt_succ_self _) (Or.inr rfl) (by simp)
    · exact absurd ht (by simp)

lemma turn_live {t : Turn} (h : Live running w) (ht : turn w t = some v) : Live running v := by
  cases turn_turns ht with
  | moves id d d' hd _ hp hn =>
    rcases hp with rfl | hp
    · exact absurd (List.mem_of_getElem? hd) h.entered
    · exact h.set hd hp hn
  | takes id d hd _ hp => exact h.flush hd hp

lemma step_live [DecidableEq Loop] {e : Event α} (h : Live running w) (hb : Begun w e)
    (he : step running w e = some v) : Live running v := by
  cases e with
  | add items =>
    obtain rfl := Option.some.inj he
    exact h.add items
  | cancel id =>
    obtain ⟨d, hd, rfl⟩ := Option.map_eq_some_iff.mp he
    cases d with
    | created cancelled => exact absurd hd (hb cancelled)
    | sleeping _ _ => exact h.set hd rfl (by simp [Drain.cancel])
    | flushing => exact h.set hd rfl (by simp [Drain.cancel])
    | finished => exact h.set hd rfl (by simp [Drain.cancel])
  | turn t => exact turn_live h he

lemma left_set (hd : w.drains[id]? = some d) (hlt : d'.left < d.left) : left (w.set id d') < left w := by
  have hsum := sum_set_add hd d' Drain.left
  simp only [left, World.set]
  omega

lemma turn_left {t : Turn} (ht : turn w t = some v) : left v < left w := by
  cases turn_turns ht with
  | moves id d d' hd hleft _ _ => exact left_set hd hleft
  | takes id d hd hleft _ => exact left_set hd hleft

lemma turn_added {t : Turn} (ht : turn w t = some v) : v.added = w.added := by
  cases turn_turns ht with
  | moves _ _ _ _ _ _ _ => rfl
  | takes _ _ _ _ _ => rfl

lemma not_atRest (hd : w.drains[id]? = some d) (hp : d.pending = true) : ¬ AtRest w := by
  intro hrest
  have hresume := hrest (.resume id)
  have hexpire := hrest (.expire id)
  simp only [turn, hd] at hresume hexpire
  cases d with
  | created cancelled => cases cancelled <;> simp at hresume
  | sleeping cancelled expired => cases expired <;> simp at hresume hexpire
  | flushing => simp [Drain.pending] at hp
  | finished => simp [Drain.pending] at hp

lemma Live.whole (h : Live running w) (hrest : AtRest w) : w.flushed.flatten = w.added := by
  have htask : w.coalescer.task = none := by
    cases ht : w.coalescer.task with
    | none => rfl
    | some t =>
      obtain ⟨hloop, hlt⟩ := h.known t ht
      have hd := List.getElem?_eq_getElem hlt
      refine absurd hrest (not_atRest hd ((h.pending _ _ hd).mpr ?_))
      rw [ht, ← hloop]
  have horder := h.inOrder
  rwa [h.held htask, List.append_nil] at horder

lemma Live.handsOver (h : Live running w) : HandsOver w := by
  refine ⟨h.inOrder, ⟨left w, ?_⟩, ?_⟩
  · intro turns v hv
    exact run_length_le (fun _ _ _ => turn_left) hv
  · intro turns v hv hrest
    have hlive := run_invariant (fun _ _ _ => turn_live) h hv
    have hadded : v.added = w.added := by
      refine run_relates (R := fun w v : World Loop α => v.added = w.added) (fun _ => rfl) ?_ ?_ hv
      · intro s t u h₁ h₂
        exact h₂.trans h₁
      · intro s t u hu
        exact turn_added hu
    rw [hlive.whole hrest, hadded]

theorem begun_drains_hand_over [DecidableEq Loop] (running : Loop) (events : List (Event α)) (w : World Loop α)
    (hrun : run (step running) start events = some w) (hbegun : Along (step running) Begun start events) :
    HandsOver w :=
  (run_along (fun _ _ _ => step_live) live_start hbegun hrun).handsOver

theorem sleeping_drain_hands_over :
    HandsOver (⟨⟨[], none⟩, [.flushing, .flushing], [[1, 2], [3]], [1, 2, 3]⟩ : World Unit ℕ) :=
  begun_drains_hand_over ()
    [.add [1], .add [2], .turn (.resume 0), .cancel 0, .turn (.resume 0), .add [3], .turn (.resume 1),
      .turn (.expire 1), .turn (.resume 1)] _ rfl (by decide)

theorem unbegun_drain_keeps_its_items :
    ∃ w : World Unit ℕ,
      run (step ()) start [.add [1], .cancel 0, .turn (.resume 0), .add [2]] = some w ∧ ¬ HandsOver w := by
  refine ⟨⟨⟨[1, 2], some ⟨(), 0⟩⟩, [.finished], [], [1, 2]⟩, rfl, ?_⟩
  intro h
  have hrest : AtRest (⟨⟨[1, 2], some ⟨(), 0⟩⟩, [.finished], [], [1, 2]⟩ : World Unit ℕ) := by
    intro t
    cases t with
    | expire id => cases id <;> rfl
    | resume id => cases id <;> rfl
  have hwhole := h.whole [] _ rfl hrest
  simp at hwhole

end TheCargo.Coalesce
