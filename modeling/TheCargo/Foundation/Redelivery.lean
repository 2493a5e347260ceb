import TheCargo.Foundation.Runs

/-! Events handled one at a time, where one that fails is held and handled again after events that followed it. -/

namespace TheCargo.Foundation.Redelivery

variable {σ ε ρ : Type*} (handle : σ → ε → Except ρ σ)

def apply (s : σ) (e : ε) : σ :=
  match handle s e with
  | .ok t => t
  | .error _ => s

def inOrder (s : σ) (history : List ε) : σ := history.foldl (apply handle) s

structure Delivery (σ ε : Type*) where
  state : σ
  ahead : List ε
  held : List ε

def start (s : σ) (history : List ε) : Delivery σ ε := ⟨s, history, []⟩

inductive Op
  | first (fails : Bool)
  | again (i : ℕ)
  deriving DecidableEq, Repr

def step (d : Delivery σ ε) : Op → Option (Delivery σ ε)
  | .first fails =>
    match d.ahead with
    | [] => none
    | e :: ahead =>
      if fails then some ⟨d.state, ahead, d.held ++ [e]⟩
      else
        match handle d.state e with
        | .ok s => some ⟨s, ahead, d.held⟩
        | .error _ => some ⟨d.state, ahead, d.held ++ [e]⟩
  | .again i =>
    match d.held[i]? with
    | some e => some ⟨apply handle d.state e, d.ahead, d.held.eraseIdx i⟩
    | none => none

-- `clear s e f`: in state `s` the later `f` may be handled although the earlier `e` is still held.
def Clears (clear : σ → ε → ε → Prop) (d : Delivery σ ε) : Op → Prop
  | .first true => True
  | .first false => ∀ f ∈ d.ahead.head?, ∀ e ∈ d.held, clear d.state e f
  | .again i => ∀ f ∈ d.held[i]?, ∀ e ∈ d.held.take i, clear d.state e f

instance (clear : σ → ε → ε → Prop) [∀ s e f, Decidable (clear s e f)] (d : Delivery σ ε) :
    (op : Op) → Decidable (Clears clear d op)
  | .first true => inferInstanceAs (Decidable True)
  | .first false => inferInstanceAs (Decidable (∀ f ∈ d.ahead.head?, ∀ e ∈ d.held, clear d.state e f))
  | .again i => inferInstanceAs (Decidable (∀ f ∈ d.held[i]?, ∀ e ∈ d.held.take i, clear d.state e f))

structure Commutes (clear : σ → ε → ε → Prop) : Prop where
  swap : ∀ {s e f}, clear s e f →
    apply handle (apply handle s e) f = apply handle (apply handle s f) e
  stays : ∀ {s e e' f}, clear s e f → clear s e' f → clear (apply handle s e) e' f

variable {handle} {clear : σ → ε → ε → Prop}

lemma overtake (hc : Commutes handle clear) {held : List ε} {s : σ} {f : ε}
    (h : ∀ e ∈ held, clear s e f) :
    inOrder handle s (held ++ [f]) = inOrder handle (apply handle s f) held := by
  induction held generalizing s with
  | nil => rfl
  | cons e held ih =>
    have he := h e List.mem_cons_self
    have hrest : ∀ e' ∈ held, clear (apply handle s e) e' f :=
      fun e' he' => hc.stays he (h e' (List.mem_cons_of_mem e he'))
    have hih := ih hrest
    rw [hc.swap he] at hih
    exact hih

lemma inOrder_append (s : σ) (as bs : List ε) :
    inOrder handle s (as ++ bs) = inOrder handle (inOrder handle s as) bs :=
  List.foldl_append

def Converging (handle : σ → ε → Except ρ σ) (goal : σ) (d : Delivery σ ε) : Prop :=
  inOrder handle d.state (d.held ++ d.ahead) = goal

lemma step_converging (hc : Commutes handle clear) {goal : σ} (d : Delivery σ ε) (op : Op)
    (d' : Delivery σ ε) (hd : Converging handle goal d) (hok : Clears clear d op)
    (h : step handle d op = some d') : Converging handle goal d' := by
  obtain ⟨s, ahead, held⟩ := d
  cases op with
  | first fails =>
    cases ahead with
    | nil => exact absurd h (by simp [step])
    | cons f ahead =>
      have hheld : inOrder handle s ((held ++ [f]) ++ ahead) = goal := by
        rw [List.append_assoc]
        exact hd
      cases fails with
      | true =>
        obtain rfl := Option.some.inj h
        exact hheld
      | false =>
        simp only [step, Bool.false_eq_true, if_false] at h
        split at h
        · rename_i t ht
          obtain rfl := Option.some.inj h
          have ha : apply handle s f = t := by
            rw [apply, ht]
          rw [inOrder_append, overtake hc (hok f rfl), ha] at hheld
          rw [Converging, inOrder_append]
          exact hheld
        · obtain rfl := Option.some.inj h
          exact hheld
  | again i =>
    simp only [step] at h
    split at h
    · rename_i f hf
      obtain rfl := Option.some.inj h
      obtain ⟨hi, rfl⟩ := List.getElem?_eq_some_iff.mp hf
      have hsplit : held = held.take i ++ [held[i]] ++ held.drop (i + 1) := by
        rw [List.append_assoc, List.singleton_append, List.getElem_cons_drop, List.take_append_drop]
      have herase : held.eraseIdx i = held.take i ++ held.drop (i + 1) := List.eraseIdx_eq_take_drop_succ held i
      rw [Converging, herase, List.append_assoc, inOrder_append, ← overtake hc (hok _ hf),
        ← inOrder_append, ← List.append_assoc, ← hsplit]
      exact hd
    · exact absurd h (by simp)

lemma converges (hc : Commutes handle clear) {s : σ} {history : List ε} {ops : List Op}
    {d : Delivery σ ε} (hok : Runs.Along (step handle) (Clears clear) (start s history) ops)
    (h : Runs.run (step handle) (start s history) ops = some d) :
    Converging handle (inOrder handle s history) d := by
  have hstart : Converging handle (inOrder handle s history) (start s history) := rfl
  exact Runs.run_along (step_converging hc) hstart hok h

end TheCargo.Foundation.Redelivery
