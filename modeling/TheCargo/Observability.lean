import TheCargo.Foundation.Trail

namespace TheCargo.Observability

open Foundation

/-- The exceptions that are there, told apart by `id`. A class of exceptions may define `__bool__` or `__len__`. -/
structure Exceptions (α : Type*) where
  isCancelledError : α → Bool
  truthy : α → Bool
  cause : α → Option α
  context : α → Option α

variable {α : Type*} (g : Exceptions α)

-- `exc.__cause__ or exc.__context__` asks whether the cause counts as true, not whether there is one.
def Exceptions.next (exc : α) : Option α :=
  match g.cause exc with
  | some cause => if g.truthy cause then some cause else g.context exc
  | none => g.context exc

def Exceptions.linked (exc : α) : Option α := (g.cause exc).or (g.context exc)

inductive Exceptions.Chain : Option α → α → Prop where
  | start (exc : α) : Chain (some exc) exc
  | cause {exc c x : α} : g.cause exc = some c → Chain (some c) x → Chain (some exc) x
  | context {exc c x : α} : g.cause exc = none → g.context exc = some c → Chain (some c) x → Chain (some exc) x

/-- Nothing where it has not ended after so many rounds of the loop. -/
def isCancellation [DecidableEq α] (rounds : ℕ) (exc : Option α) : Option Bool :=
  Trail.follow g.next g.isCancelledError rounds ∅ exc

/-- Where the chain, before any cancellation, first comes to an exception whose cause is false in `or` and not its
context as well, the cause has a cancellation behind it exactly if the path from the context has. -/
def Exceptions.CausesCount (exc : Option α) : Prop :=
  ∀ start ∈ exc, ∀ x cause, Trail.Together g.linked g.next g.isCancelledError start x →
    g.isCancelledError x = false → g.cause x = some cause → g.truthy cause = false → g.context x ≠ some cause →
      ((∃ y, g.Chain (some cause) y ∧ g.isCancelledError y = true) ↔
        Trail.Hits g.next g.isCancelledError (g.context x))

variable {g} {exc : Option α} {x : α}

lemma linked_eq_some {c : α} :
    g.linked x = some c ↔ g.cause x = some c ∨ g.cause x = none ∧ g.context x = some c := by
  rw [Exceptions.linked]
  cases g.cause x with
  | none => simp
  | some d => simp

lemma chain_iff : g.Chain exc x ↔ ∃ start ∈ exc, Trail.Reaches g.linked start x := by
  constructor
  · intro h
    induction h with
    | start exc => exact ⟨exc, rfl, .refl⟩
    | cause hcause _ ih =>
      obtain ⟨start, hstart, hreach⟩ := ih
      obtain rfl := Option.mem_some_iff.mp hstart
      exact ⟨_, rfl, .head (linked_eq_some.mpr (.inl hcause)) hreach⟩
    | context hcause hcontext _ ih =>
      obtain ⟨start, hstart, hreach⟩ := ih
      obtain rfl := Option.mem_some_iff.mp hstart
      exact ⟨_, rfl, .head (linked_eq_some.mpr (.inr ⟨hcause, hcontext⟩)) hreach⟩
  · rintro ⟨start, hstart, hreach⟩
    obtain rfl := Option.mem_def.mp hstart
    induction hreach using Relation.ReflTransGen.head_induction_on with
    | refl => exact .start x
    | head hnext _ ih =>
      rcases linked_eq_some.mp hnext with hcause | ⟨hcause, hcontext⟩
      · exact .cause hcause (ih rfl)
      · exact .context hcause hcontext (ih rfl)

lemma chain_hits : (∃ x, g.Chain exc x ∧ g.isCancelledError x = true) ↔ Trail.Hits g.linked g.isCancelledError exc := by
  constructor
  · rintro ⟨x, hchain, hhit⟩
    obtain ⟨start, hstart, hreach⟩ := chain_iff.mp hchain
    exact ⟨start, hstart, x, hreach, hhit⟩
  · rintro ⟨start, hstart, x, hreach, hhit⟩
    exact ⟨x, chain_iff.mpr ⟨start, hstart, hreach⟩, hhit⟩

lemma linked_ne_next_iff : g.linked x ≠ g.next x ↔
    ∃ cause, g.cause x = some cause ∧ g.truthy cause = false ∧ g.context x ≠ some cause := by
  rw [Exceptions.linked, Exceptions.next]
  cases g.cause x with
  | none => simp
  | some cause =>
    cases htruthy : g.truthy cause with
    | true => simp [htruthy]
    | false =>
      have hsame : (some cause ≠ g.context x) ↔ g.context x ≠ some cause := ne_comm
      simpa [htruthy] using hsame

lemma linked_of_cause {cause : α} (h : g.cause x = some cause) : g.linked x = some cause :=
  linked_eq_some.mpr (.inl h)

lemma next_of_falsy {cause : α} (h : g.cause x = some cause) (htruthy : g.truthy cause = false) :
    g.next x = g.context x := by
  simp only [Exceptions.next, h, htruthy, if_neg Bool.false_ne_true]

lemma causesCount_iff : g.CausesCount exc ↔
    (Trail.Hits g.next g.isCancelledError exc ↔ Trail.Hits g.linked g.isCancelledError exc) := by
  cases exc with
  | none =>
    refine iff_of_true (fun start hstart => absurd hstart (Option.not_mem_none _)) ?_
    exact ⟨fun ⟨_, hmem, _⟩ => absurd hmem (Option.not_mem_none _),
      fun ⟨_, hmem, _⟩ => absurd hmem (Option.not_mem_none _)⟩
  | some start =>
    rw [Iff.comm (a := Trail.Hits g.next _ _), Trail.hits_alike_iff]
    constructor
    · intro h y hy hmiss hne
      obtain ⟨cause, hcause, htruthy, hcontext⟩ := linked_ne_next_iff.mp hne
      rw [linked_of_cause hcause, next_of_falsy hcause htruthy, ← chain_hits]
      exact h start rfl y cause hy hmiss hcause htruthy hcontext
    · intro h z hz x cause hx hmiss hcause htruthy hcontext
      obtain rfl := Option.mem_some_iff.mp hz
      have hparts := h x hx hmiss (linked_ne_next_iff.mpr ⟨cause, hcause, htruthy, hcontext⟩)
      rwa [linked_of_cause hcause, next_of_falsy hcause htruthy, ← chain_hits] at hparts

theorem isCancellation_exact_iff [Fintype α] [DecidableEq α] (g : Exceptions α) (exc : Option α) (more : ℕ) :
    ∃ b, isCancellation g (Fintype.card α + 1 + more) exc = some b ∧
      ((b = true ↔ ∃ x, g.Chain exc x ∧ g.isCancelledError x = true) ↔ g.CausesCount exc) := by
  have hrounds : Fintype.card α < Fintype.card α + 1 + more := by omega
  obtain ⟨b, hb, hhits⟩ : ∃ b, isCancellation g (Fintype.card α + 1 + more) exc = some b ∧
      (b = true ↔ Trail.Hits g.next g.isCancelledError exc) := Trail.follow_empty hrounds exc
  refine ⟨b, hb, ?_⟩
  rw [hhits, chain_hits, causesCount_iff]

def behindEmptyError : Exceptions (Fin 3) where
  isCancelledError exc := exc = 2
  truthy exc := exc ≠ 1
  cause exc := if exc = 0 then some 1 else if exc = 1 then some 2 else none
  context _ := none

theorem a_falsy_cause_hides_cancellation :
    isCancellation behindEmptyError 4 (some 0) = some false ∧
      ∃ x, behindEmptyError.Chain (some 0) x ∧ behindEmptyError.isCancelledError x = true :=
  ⟨by decide, 2, .cause rfl (.cause rfl (.start 2)), rfl⟩

example : isCancellation (⟨fun _ => false, fun _ => true, fun exc => some !exc, fun _ => none⟩ : Exceptions Bool) 3
    (some true) = some false := by
  decide

end TheCargo.Observability
