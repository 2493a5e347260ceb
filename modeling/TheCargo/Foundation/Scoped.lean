import TheCargo.Foundation.Runs

/-! Values that every thread holds for itself, and blocks that put back what they found. A thread enters a block with
a note of what to put back and leaves it in the reverse order; a thread it starts begins with a copy of its value and
with no blocks of its own. -/

namespace TheCargo.Foundation.Scoped

variable {σ φ ρ : Type*}

-- The innermost block comes first.
structure Thread (σ φ : Type*) where
  value : σ
  blocks : List φ

inductive Op (σ φ : Type*)
  | set (f : σ → σ)
  | enter (note : σ → φ) (f : σ → σ)
  | leave
  | spawn

abbrev World (σ φ : Type*) := List (Thread σ φ)

variable (restore : φ → σ → σ)

def step (w : World σ φ) (a : ℕ × Op σ φ) : Option (World σ φ) :=
  match w[a.1]? with
  | none => none
  | some thread =>
    match a.2 with
    | .set f => some (w.set a.1 { thread with value := f thread.value })
    | .enter note f => some (w.set a.1 ⟨f thread.value, note thread.value :: thread.blocks⟩)
    | .leave =>
      match thread.blocks with
      | [] => none
      | block :: blocks => some (w.set a.1 ⟨restore block thread.value, blocks⟩)
    | .spawn => some (w ++ [⟨thread.value, []⟩])

inductive Balanced (i : ℕ) : List (ℕ × Op σ φ) → Prop
  | nil : Balanced i []
  | other {j : ℕ} {op : Op σ φ} {as : List (ℕ × Op σ φ)} (apart : j ≠ i) (rest : Balanced i as) :
      Balanced i ((j, op) :: as)
  | set {f : σ → σ} {as : List (ℕ × Op σ φ)} (rest : Balanced i as) : Balanced i ((i, .set f) :: as)
  | spawn {as : List (ℕ × Op σ φ)} (rest : Balanced i as) : Balanced i ((i, .spawn) :: as)
  | block {note : σ → φ} {f : σ → σ} {body as : List (ℕ × Op σ φ)} (inner : Balanced i body)
      (rest : Balanced i as) : Balanced i ((i, .enter note f) :: (body ++ (i, .leave) :: as))

inductive Keeps {γ : Type*} (part : σ → γ) (i : ℕ) : List (ℕ × Op σ φ) → Prop
  | nil : Keeps part i []
  | other {j : ℕ} {op : Op σ φ} {as : List (ℕ × Op σ φ)} (apart : j ≠ i) (rest : Keeps part i as) :
      Keeps part i ((j, op) :: as)
  | set {f : σ → σ} {as : List (ℕ × Op σ φ)} (same : ∀ v, part (f v) = part v) (rest : Keeps part i as) :
      Keeps part i ((i, .set f) :: as)
  | spawn {as : List (ℕ × Op σ φ)} (rest : Keeps part i as) : Keeps part i ((i, .spawn) :: as)
  | restored {note : σ → φ} {f : σ → σ} {body as : List (ℕ × Op σ φ)}
      (back : ∀ v v', part (restore (note v) v') = part v) (inner : Balanced i body) (rest : Keeps part i as) :
      Keeps part i ((i, .enter note f) :: (body ++ (i, .leave) :: as))
  | through {note : σ → φ} {f : σ → σ} {body as : List (ℕ × Op σ φ)} (same : ∀ v, part (f v) = part v)
      (past : ∀ v v', part (restore (note v) v') = part v') (inner : Keeps part i body) (rest : Keeps part i as) :
      Keeps part i ((i, .enter note f) :: (body ++ (i, .leave) :: as))

variable {restore} {w w' : World σ φ} {i j : ℕ} {thread : Thread σ φ}

lemma step_other {op : Op σ φ} (hij : j ≠ i) (hi : w[i]? = some thread) (h : step restore w (j, op) = some w') :
    w'[i]? = some thread := by
  simp only [step] at h
  split at h
  · exact absurd h (by simp)
  · have hset : ∀ t, (w.set j t)[i]? = some thread := by
      intro t
      rw [List.getElem?_set_ne hij]
      exact hi
    split at h
    · exact Option.some.inj h ▸ hset _
    · exact Option.some.inj h ▸ hset _
    · split at h
      · exact absurd h (by simp)
      · exact Option.some.inj h ▸ hset _
    · obtain rfl := Option.some.inj h
      rw [List.getElem?_append_left (List.getElem?_eq_some_iff.mp hi).1]
      exact hi

lemma step_set {f : σ → σ} (hi : w[i]? = some thread) (h : step restore w (i, .set f) = some w') :
    w'[i]? = some { thread with value := f thread.value } := by
  simp only [step, hi] at h
  exact Option.some.inj h ▸ List.getElem?_set_self (List.getElem?_eq_some_iff.mp hi).1

lemma step_spawn (hi : w[i]? = some thread) (h : step restore w (i, .spawn) = some w') : w'[i]? = some thread := by
  simp only [step, hi] at h
  obtain rfl := Option.some.inj h
  rw [List.getElem?_append_left (List.getElem?_eq_some_iff.mp hi).1]
  exact hi

lemma step_enter {note : σ → φ} {f : σ → σ} (hi : w[i]? = some thread)
    (h : step restore w (i, .enter note f) = some w') :
    w'[i]? = some ⟨f thread.value, note thread.value :: thread.blocks⟩ := by
  simp only [step, hi] at h
  exact Option.some.inj h ▸ List.getElem?_set_self (List.getElem?_eq_some_iff.mp hi).1

lemma step_leave {block : φ} {blocks : List φ} (hi : w[i]? = some thread) (hb : thread.blocks = block :: blocks)
    (h : step restore w (i, .leave) = some w') : w'[i]? = some ⟨restore block thread.value, blocks⟩ := by
  simp only [step, hi, hb] at h
  exact Option.some.inj h ▸ List.getElem?_set_self (List.getElem?_eq_some_iff.mp hi).1

lemma balanced_blocks {as : List (ℕ × Op σ φ)} {v : σ} {blocks : List φ} (hb : Balanced i as)
    (hi : w[i]? = some ⟨v, blocks⟩) (h : Runs.run (step restore) w as = some w') :
    ∃ v', w'[i]? = some ⟨v', blocks⟩ := by
  induction hb generalizing w w' v blocks with
  | nil =>
    obtain rfl := Option.some.inj h
    exact ⟨v, hi⟩
  | other apart _ ih =>
    obtain ⟨u, hu, hr⟩ := Runs.run_cons.mp h
    exact ih (step_other apart hi hu) hr
  | set _ ih =>
    obtain ⟨u, hu, hr⟩ := Runs.run_cons.mp h
    exact ih (step_set hi hu) hr
  | spawn _ ih =>
    obtain ⟨u, hu, hr⟩ := Runs.run_cons.mp h
    exact ih (step_spawn hi hu) hr
  | block _ _ ihinner ihrest =>
    obtain ⟨u, hu, hr⟩ := Runs.run_cons.mp h
    obtain ⟨x, hx, hr⟩ := Runs.run_split hr
    obtain ⟨v', hv'⟩ := ihinner (step_enter hi hu) hx
    obtain ⟨y, hy, hr⟩ := Runs.run_cons.mp hr
    exact ihrest (step_leave hv' rfl hy) hr

lemma keeps_part {γ : Type*} {part : σ → γ} {as : List (ℕ × Op σ φ)} {v : σ} {blocks : List φ}
    (hk : Keeps restore part i as) (hi : w[i]? = some ⟨v, blocks⟩) (h : Runs.run (step restore) w as = some w') :
    ∃ v', w'[i]? = some ⟨v', blocks⟩ ∧ part v' = part v := by
  induction hk generalizing w w' v blocks with
  | nil =>
    obtain rfl := Option.some.inj h
    exact ⟨v, hi, rfl⟩
  | other apart _ ih =>
    obtain ⟨u, hu, hr⟩ := Runs.run_cons.mp h
    exact ih (step_other apart hi hu) hr
  | set same _ ih =>
    obtain ⟨u, hu, hr⟩ := Runs.run_cons.mp h
    obtain ⟨v', hv', hpart⟩ := ih (step_set hi hu) hr
    exact ⟨v', hv', hpart.trans (same v)⟩
  | spawn _ ih =>
    obtain ⟨u, hu, hr⟩ := Runs.run_cons.mp h
    exact ih (step_spawn hi hu) hr
  | restored back inner _ ih =>
    obtain ⟨u, hu, hr⟩ := Runs.run_cons.mp h
    obtain ⟨x, hx, hr⟩ := Runs.run_split hr
    obtain ⟨x', hx'⟩ := balanced_blocks inner (step_enter hi hu) hx
    obtain ⟨y, hy, hr⟩ := Runs.run_cons.mp hr
    obtain ⟨v', hv', hpart⟩ := ih (step_leave hx' rfl hy) hr
    exact ⟨v', hv', hpart.trans (back v x')⟩
  | through same past _ _ ihinner ihrest =>
    obtain ⟨u, hu, hr⟩ := Runs.run_cons.mp h
    obtain ⟨x, hx, hr⟩ := Runs.run_split hr
    obtain ⟨x', hx', hinner⟩ := ihinner (step_enter hi hu) hx
    obtain ⟨y, hy, hr⟩ := Runs.run_cons.mp hr
    obtain ⟨v', hv', hpart⟩ := ihrest (step_leave hx' rfl hy) hr
    exact ⟨v', hv', hpart.trans ((past v x').trans (hinner.trans (same v)))⟩

end TheCargo.Foundation.Scoped
