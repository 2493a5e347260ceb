import TheCargo.Middleware.CancelOnDisconnect

/-! What a cancellation of the task that runs the middleware does at each of its awaits. -/

namespace TheCargo.Middleware.CallerCancelled

open Foundation.Runs

variable {β : Type*} (noHeaders noBody : β)

inductive Event (β : Type*)
  | inner (e : Middleware.Event β)
  | cancel

/-- Awaiting a task passes the cancellation on to it while it runs; every other await is left by `CancelledError`, which
the `try` around the cancelled app alone catches. -/
def cancelled (w : World β) : Option (World β) :=
  match w.phase with
  | .waiting => some w.leave
  | .joining => if w.app.isDone then some w.leave else some { w with app := w.app.cancel }
  | .cancelling =>
    if w.app.isDone then
      if w.started then some w.leave else some (w.own .sendingStart (closedStart noHeaders))
    else some { w with app := w.app.cancel }
  | .sendingStart => some w.leave
  | .sendingBody => some w.leave
  | .ended => none

def step (w : World β) : Event β → Option (World β)
  | .inner e => Middleware.step noHeaders noBody w e
  | .cancel => cancelled noHeaders w

def Stopping (task : Task) : Prop := task ≠ .running false

def LeavesNothing (w : World β) : Prop := w.phase = .ended → Stopping w.app ∧ Stopping w.pump

def NotWhileWaiting (w : World β) : Event β → Prop
  | .inner _ => True
  | .cancel => w.phase = .waiting → w.app.isDone = true

instance decidableNotWhileWaiting (w : World β) : (e : Event β) → Decidable (NotWhileWaiting w e)
  | .inner _ => inferInstanceAs (Decidable True)
  | .cancel => inferInstanceAs (Decidable (w.phase = .waiting → w.app.isDone = true))

structure Settled (w : World β) : Prop where
  waiting : w.phase = .waiting → w.app ≠ .running true
  sending : w.phase = .sendingStart ∨ w.phase = .sendingBody → w.app.isDone = true
  ended : LeavesNothing w

variable {noHeaders noBody} {w v : World β}

lemma stopping_of_isDone {task : Task} (h : task.isDone = true) : Stopping task := by
  rintro rfl
  cases h

lemma stopping_cancel (task : Task) : Stopping task.cancel := by
  cases task with
  | running _ => exact fun h => by cases h
  | done _ => exact fun h => by cases h

lemma isDone_cancel (task : Task) : task.cancel.isDone = task.isDone := by
  cases task <;> rfl

lemma settled_leave (h : Stopping w.app) : Settled w.leave := by
  refine ⟨nofun, ?_, fun _ => ⟨h, stopping_cancel w.pump⟩⟩
  exact fun hphase => hphase.elim nofun nofun

lemma settled_own {phase : Phase} {m : Message β} (h : w.app.isDone = true)
    (hphase : phase = .sendingStart ∨ phase = .sendingBody) : Settled (w.own phase m) := by
  rcases hphase with rfl | rfl
  · exact ⟨nofun, fun _ => h, nofun⟩
  · exact ⟨nofun, fun _ => h, nofun⟩

lemma Settled.of_same (h : Settled w) (hphase : v.phase = w.phase) (happ : v.app = w.app ∨ v.app.isDone = true)
    (hpump : Stopping w.pump → Stopping v.pump) : Settled v := by
  refine ⟨?_, ?_, ?_⟩
  · intro hw
    rcases happ with happ | happ
    · rw [happ]
      exact h.waiting (hphase ▸ hw)
    · intro hv
      rw [hv] at happ
      cases happ
  · intro hw
    rcases happ with happ | happ
    · rw [happ]
      exact h.sending (hphase ▸ hw)
    · exact happ
  · intro hw
    obtain ⟨hkeep, hpump'⟩ := h.ended (hphase ▸ hw)
    refine ⟨?_, hpump hpump'⟩
    rcases happ with happ | happ
    · rw [happ]
      exact hkeep
    · exact stopping_of_isDone happ

lemma settled_wake (hw : w.wake noHeaders = some v) : Settled v := by
  rw [World.wake] at hw
  split at hw
  · rename_i hphase
    split at hw
    · rename_i hdone
      obtain rfl := Option.some.inj hw
      exact settled_leave (stopping_of_isDone hdone)
    · have hnext : v.phase = .joining ∨ v.phase = .cancelling := by
        split at hw
        · split at hw
          · obtain rfl := Option.some.inj hw
            exact Or.inl rfl
          · split at hw
            · obtain rfl := Option.some.inj hw
              exact Or.inl rfl
            · obtain rfl := Option.some.inj hw
              exact Or.inr rfl
        · cases hw
      rcases hnext with hnext | hnext
      · exact ⟨by simp [hnext], by simp [hnext], fun he => by simp [hnext] at he⟩
      · exact ⟨by simp [hnext], by simp [hnext], fun he => by simp [hnext] at he⟩
  · obtain ⟨hdone, hv⟩ := Option.ite_none_right_eq_some.mp hw
    obtain rfl := Option.some.inj hv
    exact settled_leave (stopping_of_isDone hdone)
  · split at hw
    · cases hw
    · rename_i happ
      obtain rfl := Option.some.inj hw
      exact settled_leave (stopping_of_isDone (by rw [happ]; rfl))
    · rename_i result _ happ
      have hdone : w.app.isDone = true := by
        rw [happ]
        rfl
      split at hw
      · obtain rfl := Option.some.inj hw
        exact settled_leave (stopping_of_isDone hdone)
      · obtain rfl := Option.some.inj hw
        exact settled_own hdone (Or.inl rfl)
  · cases hw

lemma Settled.inner (h : Settled w) {e : Middleware.Event β} (hv : Middleware.step noHeaders noBody w e = some v) :
    Settled v := by
  cases e with
  | deliver m =>
    obtain ⟨hpump, hv⟩ := Option.ite_none_right_eq_some.mp hv
    obtain rfl := Option.some.inj hv
    rw [World.pumped]
    split
    · exact h.of_same rfl (Or.inl rfl) (fun _ => stopping_of_isDone rfl)
    · exact h.of_same rfl (Or.inl rfl) id
  | receiveFails =>
    obtain ⟨_, hv⟩ := Option.ite_none_right_eq_some.mp hv
    obtain rfl := Option.some.inj hv
    exact h.of_same rfl (Or.inl rfl) (fun _ => stopping_of_isDone rfl)
  | pumpStops =>
    obtain ⟨_, hv⟩ := Option.ite_none_right_eq_some.mp hv
    obtain rfl := Option.some.inj hv
    exact h.of_same rfl (Or.inl rfl) (fun _ => stopping_of_isDone rfl)
  | get =>
    rw [Middleware.step] at hv
    split at hv
    · obtain ⟨_, hv⟩ := Option.ite_none_left_eq_some.mp hv
      obtain rfl := Option.some.inj hv
      exact h.of_same rfl (Or.inl rfl) id
    · cases hv
  | send m =>
    obtain ⟨_, hv⟩ := Option.ite_none_left_eq_some.mp hv
    obtain rfl := Option.some.inj hv
    rw [trackingSend_eq]
    exact h.of_same rfl (Or.inl rfl) id
  | finish result =>
    obtain ⟨_, hv⟩ := Option.ite_none_left_eq_some.mp hv
    obtain rfl := Option.some.inj hv
    exact h.of_same rfl (Or.inr rfl) id
  | wake => exact settled_wake hv
  | answered ok =>
    rw [Middleware.step] at hv
    split at hv
    · rename_i hphase
      have hdone := h.sending (Or.inl hphase)
      split at hv
      · obtain rfl := Option.some.inj hv
        exact settled_own hdone (Or.inr rfl)
      · obtain rfl := Option.some.inj hv
        exact settled_leave (stopping_of_isDone hdone)
    · rename_i hphase
      obtain rfl := Option.some.inj hv
      exact settled_leave (stopping_of_isDone (h.sending (Or.inr hphase)))
    · cases hv

lemma Settled.cancelling (h : Settled w) (hphase : w.phase = .joining ∨ w.phase = .cancelling) :
    Settled { w with app := w.app.cancel } := by
  have hnot : w.phase ≠ .waiting ∧ w.phase ≠ .ended := by
    rcases hphase with hphase | hphase <;> simp [hphase]
  refine ⟨fun hp => absurd hp hnot.1, ?_, fun hp => absurd hp hnot.2⟩
  intro hp
  exact (isDone_cancel w.app).trans (h.sending hp)

lemma Settled.cancelled (h : Settled w) (hok : w.phase = .waiting → w.app.isDone = true)
    (hv : CallerCancelled.cancelled noHeaders w = some v) : Settled v := by
  rw [CallerCancelled.cancelled] at hv
  split at hv
  · rename_i hphase
    obtain rfl := Option.some.inj hv
    exact settled_leave (stopping_of_isDone (hok hphase))
  · rename_i hphase
    split at hv
    · rename_i hdone
      obtain rfl := Option.some.inj hv
      exact settled_leave (stopping_of_isDone hdone)
    · obtain rfl := Option.some.inj hv
      exact h.cancelling (Or.inl hphase)
  · rename_i hphase
    split at hv
    · rename_i hdone
      split at hv
      · obtain rfl := Option.some.inj hv
        exact settled_leave (stopping_of_isDone hdone)
      · obtain rfl := Option.some.inj hv
        exact settled_own hdone (Or.inl rfl)
    · obtain rfl := Option.some.inj hv
      exact h.cancelling (Or.inr hphase)
  · rename_i hphase
    obtain rfl := Option.some.inj hv
    exact settled_leave (stopping_of_isDone (h.sending (Or.inl hphase)))
  · rename_i hphase
    obtain rfl := Option.some.inj hv
    exact settled_leave (stopping_of_isDone (h.sending (Or.inr hphase)))
  · cases hv

lemma settled_call {upper : String → String} {mw : CancelOnDisconnectMiddleware} {scope : Scope}
    (h : call upper mw scope = some w) : Settled w := by
  rw [call] at h
  split at h
  · obtain rfl := Option.some.inj h
    refine ⟨?_, ?_, ?_⟩
    · intro _ happ
      cases happ
    · rintro (hp | hp)
      · cases hp
      · cases hp
    · intro hp
      cases hp
  · cases h

lemma Settled.step (h : Settled w) {e : Event β} (hok : NotWhileWaiting w e)
    (hv : CallerCancelled.step noHeaders noBody w e = some v) : Settled v := by
  cases e with
  | inner e => exact h.inner hv
  | cancel => exact h.cancelled hok hv

lemma Settled.leavesNothing_iff (h : Settled w) (e : Event β) :
    NotWhileWaiting w e ↔ ∀ v, CallerCancelled.step noHeaders noBody w e = some v → LeavesNothing v := by
  refine ⟨fun hok v hv => (h.step hok hv).ended, ?_⟩
  intro hleaves
  cases e with
  | inner e => trivial
  | cancel =>
    intro hphase
    have hleft : CallerCancelled.step noHeaders noBody w .cancel = some w.leave := by
      rw [CallerCancelled.step, CallerCancelled.cancelled, hphase]
    obtain ⟨hstopping, -⟩ := hleaves w.leave hleft rfl
    have happ := h.waiting hphase
    cases ha : w.app with
    | running asked =>
      cases asked with
      | false => exact absurd ha hstopping
      | true => exact absurd ha happ
    | done result => rfl

theorem nothing_is_left_iff (upper : String → String) (mw : CancelOnDisconnectMiddleware) (scope : Scope)
    (noHeaders noBody : β) (start : World β) (events : List (Event β)) (hcall : call upper mw scope = some start) :
    Along (CallerCancelled.step noHeaders noBody)
        (fun w e => ∀ v, CallerCancelled.step noHeaders noBody w e = some v → LeavesNothing v) start events ↔
      Along (CallerCancelled.step noHeaders noBody) NotWhileWaiting start events := by
  symm
  exact along_congr (fun w e hw => hw.leavesNothing_iff e) (fun w e v hw hok hv => hw.step hok hv) (settled_call hcall)

theorem nothing_is_left_after_a_joining_cancel :
    Along (CallerCancelled.step () ())
      (fun w e => ∀ v, CallerCancelled.step () () w e = some v → LeavesNothing v)
      (⟨.waiting, .running false, .running false, [], false, false, false, [], [], [], []⟩ : World Unit)
      [.inner .receiveFails, .inner .wake, .cancel, .inner (.finish .cancelled), .inner .wake] :=
  (nothing_is_left_iff id (init id ["GET", "HEAD"]) ⟨"http", some "GET"⟩ () () _ _ (if_pos (by decide +kernel))).mpr
    (by decide +kernel)

theorem a_waiting_cancel_leaves_the_app :
    ∃ start w : World Unit, call id (init id ["GET", "HEAD"]) ⟨"http", some "GET"⟩ = some start ∧
      run (CallerCancelled.step () ()) start
        [.inner (.deliver ⟨"http.request", none, false, ()⟩), .inner .get, .cancel] = some w ∧
      ¬LeavesNothing w :=
  ⟨_, _, if_pos (by decide +kernel), rfl, fun h => (h rfl).1 rfl⟩

end TheCargo.Middleware.CallerCancelled
