import Mathlib.Logic.Function.Basic
import TheCargo.Foundation.Runs

/-! The ClickHouse client of an event loop, and the generator that closes it when the loop ends. -/

namespace TheCargo.Clickhouse

open Foundation.Runs

/-- Numbered in the order `get_async_client` returns them. -/
abbrev Client := ℕ

/-- Where a call is: `creating`, `starting` and `closing` await `get_async_client`, `closer.asend` and
`client.close`. -/
inductive Call
  | absent
  | creating
  | starting (c : Client)
  | closing (c : Client)
  | returned (result : Option Client)
  | raised
  deriving DecidableEq

def Call.inFlight : Call → Bool
  | .creating => true
  | .starting _ => true
  | .closing _ => true
  | _ => false

abbrev Loop := ℕ

structure State where
  configured : Bool
  clients : Loop → Option Client
  closers : Loop → Bool
  opened : ℕ
  closed : List Client
  calls : ℕ → Call

namespace State

def become (s : State) (i : ℕ) (call : Call) : State := { s with calls := Function.update s.calls i call }

def setClient (s : State) (loop : Loop) (c : Option Client) : State :=
  { s with clients := Function.update s.clients loop c }

def dropStale (s : State) (isClosed : Loop → Bool) : State :=
  { s with
    clients := fun loop => if s.closers loop && isClosed loop then none else s.clients loop
    closers := fun loop => s.closers loop && !isClosed loop }

end State

inductive Action
  | configureClickhouse
  | getClient (i : ℕ) (isClosed : Loop → Bool)
  | closeClickhouse (i : ℕ)
  | answers (i : ℕ)
  | fails (i : ℕ)

variable (running : Loop)

def getClient (s : State) (i : ℕ) (isClosed : Loop → Bool) : State :=
  if s.configured then
    let s := s.dropStale isClosed
    match s.clients running with
    | some c => s.become i (.returned (some c))
    | none => s.become i .creating
  else s.become i .raised

/-- `get_async_client` has returned. -/
def register (s : State) (i : ℕ) : State :=
  let c := s.opened
  let s := { s with opened := s.opened + 1 }.setClient running (some c)
  if s.closers running then s.become i (.returned (some c)) else s.become i (.starting c)

/-- `closer.asend` has returned. -/
def keepCloser (s : State) (i : ℕ) (c : Client) : State :=
  { s with closers := Function.update s.closers running true }.become i (.returned (some c))

def closeClickhouse (s : State) (i : ℕ) : State :=
  match s.clients running with
  | none => s.become i (.returned none)
  | some c => (s.setClient running none).become i (.closing c)

/-- `client.close` has returned. -/
def markClosed (s : State) (i : ℕ) (c : Client) : State :=
  { s with closed := c :: s.closed }.become i (.returned none)

def step (s : State) : Action → Option (State)
  | .configureClickhouse => some { s with configured := true }
  | .getClient i isClosed =>
    if s.calls i = .absent ∧ isClosed running = false then some (getClient running s i isClosed) else none
  | .closeClickhouse i => if s.calls i = .absent then some (closeClickhouse running s i) else none
  | .answers i =>
    match s.calls i with
    | .creating => some (register running s i)
    | .starting c => some (keepCloser running s i c)
    | .closing c => some (markClosed s i c)
    | _ => none
  | .fails i =>
    match s.calls i with
    | .creating => some (s.become i .raised)
    | _ => none

def closeWithLoop (s : State) : State :=
  if s.closers running then
    match s.clients running with
    | none => s
    | some c => { s.setClient running none with closed := c :: s.closed }
  else s

structure Fresh (s : State) : Prop where
  client : s.clients running = none
  closer : s.closers running = false
  opened : s.opened = 0
  closed : s.closed = []
  calls : ∀ i, s.calls i = .absent

def Accounted (s : State) : Prop :=
  ∀ c < s.opened, s.clients running = some c ∨ c ∈ s.closed ∨ ∃ i, s.calls i = .closing c

def AllClosed (s : State) : Prop := ∀ c < s.opened, c ∈ s.closed

structure KeepsTrack (s : State) : Prop where
  accounted : Accounted running s
  ends : (∀ i, (s.calls i).inFlight = false) → AllClosed (closeWithLoop running s)

def RegistersAlone (s : State) : Action → Prop
  | .answers i => s.calls i = .creating → s.clients running = none
  | _ => True

instance (s : State) : (a : Action) → Decidable (RegistersAlone running s a)
  | .configureClickhouse => isTrue trivial
  | .getClient _ _ => isTrue trivial
  | .closeClickhouse _ => isTrue trivial
  | .answers _ => inferInstanceAs (Decidable (_ → _))
  | .fails _ => isTrue trivial

structure Inv (s : State) : Prop where
  accounted : Accounted running s
  registered : ∀ c, s.clients running = some c → c < s.opened ∧ c ∉ s.closed ∧ ∀ i, s.calls i ≠ .closing c
  closing : ∀ i c, s.calls i = .closing c → c < s.opened
  closed : ∀ c ∈ s.closed, c < s.opened
  closer : s.clients running = none ∨ s.closers running = true ∨ ∃ i c, s.calls i = .starting c

variable {running : Loop} {s t : State} {i j : ℕ} {c : Client} {call : Call}

def Call.Plain (call : Call) : Prop := (∀ c, call ≠ .closing c) ∧ ∀ c, call ≠ .starting c

lemma become_calls (s : State) (i : ℕ) (call : Call) (j : ℕ) :
    (s.become i call).calls j = if j = i then call else s.calls j := Function.update_apply ..

lemma become_closing (hi : ∀ c, s.calls i ≠ .closing c) (hcall : ∀ c, call ≠ .closing c) :
    (s.become i call).calls j = .closing c ↔ s.calls j = .closing c := by
  rw [become_calls]
  split
  · next heq => exact iff_of_false (hcall c) (heq ▸ hi c)
  · exact Iff.rfl

lemma become_starting (hi : ∀ c, s.calls i ≠ .starting c) (hj : s.calls j = .starting c) :
    (s.become i call).calls j = .starting c := by
  rw [become_calls]
  split
  · next heq => exact absurd hj (heq ▸ hi c)
  · exact hj

lemma inv_become (h : Inv running s) (hi : (s.calls i).Plain) (hcall : call.Plain) :
    Inv running (s.become i call) where
  accounted c hc := by
    rcases h.accounted c hc with hregistered | hclosed | ⟨j, hj⟩
    · exact Or.inl hregistered
    · exact Or.inr (Or.inl hclosed)
    · exact Or.inr (Or.inr ⟨j, (become_closing hi.1 hcall.1).mpr hj⟩)
  registered c hc := by
    obtain ⟨hlt, hopen, hnot⟩ := h.registered c hc
    exact ⟨hlt, hopen, fun j hj => hnot j ((become_closing hi.1 hcall.1).mp hj)⟩
  closing j c hj := h.closing j c ((become_closing hi.1 hcall.1).mp hj)
  closed := h.closed
  closer := h.closer.imp_right (Or.imp_right fun ⟨j, c, hj⟩ => ⟨j, c, become_starting hi.2 hj⟩)

lemma inv_dropStale (h : Inv running s) {isClosed : Loop → Bool} (hrunning : isClosed running = false) :
    Inv running (s.dropStale isClosed) := by
  have hclient : (s.dropStale isClosed).clients running = s.clients running := by simp [State.dropStale, hrunning]
  have hcloser : (s.dropStale isClosed).closers running = s.closers running := by simp [State.dropStale, hrunning]
  refine ⟨fun c hc => ?_, fun c hc => h.registered c (hclient ▸ hc), h.closing, h.closed, ?_⟩
  · rw [hclient]
    exact h.accounted c hc
  · rw [hclient, hcloser]
    exact h.closer

lemma inv_getClient (h : Inv running s) {isClosed : Loop → Bool} (hrunning : isClosed running = false)
    (hi : s.calls i = .absent) : Inv running (getClient running s i isClosed) := by
  have hplain : (s.calls i).Plain := by simp [hi, Call.Plain]
  have hdrop := inv_dropStale h hrunning
  rw [getClient]
  split
  · dsimp only
    split
    · exact inv_become hdrop hplain (by simp [Call.Plain])
    · exact inv_become hdrop hplain (by simp [Call.Plain])
  · exact inv_become h hplain (by simp [Call.Plain])

-- The call goes on to start a closer where the loop has none.
lemma register_eq (running : Loop) (s : State) (i : ℕ) :
    ∃ call, (∀ c, call ≠ .closing c) ∧ (s.closers running = true ∨ call = .starting s.opened) ∧
      register running s i = ({ s with opened := s.opened + 1 }.setClient running (some s.opened)).become i call := by
  by_cases hcloser : s.closers running = true
  · exact ⟨.returned (some s.opened), by simp, Or.inl hcloser, if_pos hcloser⟩
  · exact ⟨.starting s.opened, by simp, Or.inr rfl, if_neg hcloser⟩

lemma register_parts (running : Loop) (s : State) (i : ℕ) :
    (register running s i).clients running = some s.opened ∧ (register running s i).opened = s.opened + 1 ∧
      (register running s i).closed = s.closed ∧ (register running s i).closers = s.closers := by
  obtain ⟨call, _, _, heq⟩ := register_eq running s i
  rw [heq]
  exact ⟨Function.update_self .., rfl, rfl, rfl⟩

lemma register_closing (hi : s.calls i = .creating) :
    (register running s i).calls j = .closing c ↔ s.calls j = .closing c := by
  obtain ⟨call, hcall, _, heq⟩ := register_eq running s i
  rw [heq]
  exact become_closing (by simp [State.setClient, hi]) hcall

lemma register_starting (hcloser : s.closers running = false) :
    (register running s i).calls i = .starting s.opened := by
  obtain ⟨call, _, hrest, heq⟩ := register_eq running s i
  rw [heq, become_calls, if_pos rfl]
  exact hrest.resolve_left (by simp [hcloser])

lemma inv_register (h : Inv running s) (hi : s.calls i = .creating) (hnone : s.clients running = none) :
    Inv running (register running s i) := by
  obtain ⟨hclient, hopened, hclosed, hclosers⟩ := register_parts running s i
  constructor
  · intro c hc
    rw [hopened] at hc
    simp only [hclient, hclosed, register_closing hi]
    rcases Nat.lt_or_eq_of_le (Nat.le_of_lt_succ hc) with hlt | rfl
    · have haccounted := h.accounted c hlt
      rw [hnone] at haccounted
      exact Or.inr (haccounted.resolve_left (by simp))
    · exact Or.inl rfl
  · intro c hc
    obtain rfl := Option.some.inj (hclient.symm.trans hc)
    rw [hopened, hclosed]
    refine ⟨Nat.lt_succ_self _, fun hmem => Nat.lt_irrefl _ (h.closed _ hmem), fun j hj => ?_⟩
    exact Nat.lt_irrefl _ (h.closing j _ ((register_closing hi).mp hj))
  · intro j c hj
    rw [hopened]
    exact Nat.lt_succ_of_lt (h.closing j c ((register_closing hi).mp hj))
  · intro c hc
    rw [hopened]
    exact Nat.lt_succ_of_lt (h.closed c (hclosed ▸ hc))
  · right
    rw [hclosers]
    cases hcloser : s.closers running with
    | true => exact Or.inl rfl
    | false => exact Or.inr ⟨i, s.opened, register_starting hcloser⟩

lemma inv_keepCloser (h : Inv running s) (hi : s.calls i = .starting c) :
    Inv running (keepCloser running s i c) := by
  have hclosing : ∀ j d, (keepCloser running s i c).calls j = .closing d ↔ s.calls j = .closing d :=
    fun j d =>
      become_closing (s := { s with closers := Function.update s.closers running true }) (by simp [hi]) (by simp)
  refine ⟨fun d hd => ?_, fun d hd => ?_, fun j d hj => h.closing j d ((hclosing j d).mp hj), h.closed, ?_⟩
  · simp only [hclosing]
    exact h.accounted d hd
  · obtain ⟨hlt, hopen, hnot⟩ := h.registered d hd
    exact ⟨hlt, hopen, fun j hj => hnot j ((hclosing j d).mp hj)⟩
  · exact Or.inr (Or.inl (Function.update_self ..))

lemma inv_closeClickhouse (h : Inv running s) (hi : s.calls i = .absent) :
    Inv running (closeClickhouse running s i) := by
  rw [closeClickhouse]
  cases hclient : s.clients running with
  | none => exact inv_become h (by simp [hi, Call.Plain]) (by simp [Call.Plain])
  | some c =>
    obtain ⟨hlt, _, _⟩ := h.registered c hclient
    have hcalls := become_calls (s.setClient running none) i (.closing c)
    refine ⟨fun d hd => ?_, fun d hd => ?_, fun j d hj => ?_, h.closed, Or.inl (Function.update_self ..)⟩
    · rcases h.accounted d hd with hregistered | hclosed | ⟨j, hj⟩
      · obtain rfl := Option.some.inj (hclient.symm.trans hregistered)
        exact Or.inr (Or.inr ⟨i, by rw [hcalls, if_pos rfl]⟩)
      · exact Or.inr (Or.inl hclosed)
      · refine Or.inr (Or.inr ⟨j, ?_⟩)
        rw [hcalls, if_neg]
        · exact hj
        · rintro rfl
          rw [hi] at hj
          cases hj
    · have hnone : ((s.setClient running none).become i (.closing c)).clients running = none := Function.update_self ..
      rw [hnone] at hd
      cases hd
    · rw [hcalls] at hj
      split at hj
      · exact Call.closing.inj hj ▸ hlt
      · exact h.closing j d hj

lemma inv_markClosed (h : Inv running s) (hi : s.calls i = .closing c) : Inv running (markClosed s i c) := by
  have hcalls := become_calls { s with closed := c :: s.closed } i (.returned none)
  have hkept : ∀ j d, (markClosed s i c).calls j = .closing d → s.calls j = .closing d := by
    intro j d hj
    rw [markClosed, hcalls] at hj
    split at hj
    · cases hj
    · exact hj
  refine ⟨fun d hd => ?_, fun d hd => ?_, fun j d hj => h.closing j d (hkept j d hj), fun d hd => ?_, ?_⟩
  · rcases h.accounted d hd with hregistered | hclosed | ⟨j, hj⟩
    · exact Or.inl hregistered
    · exact Or.inr (Or.inl (List.mem_cons_of_mem _ hclosed))
    · by_cases heq : j = i
      · obtain rfl := Call.closing.inj (hi.symm.trans (heq ▸ hj))
        exact Or.inr (Or.inl List.mem_cons_self)
      · exact Or.inr (Or.inr ⟨j, (hcalls j).trans ((if_neg heq).trans hj)⟩)
  · obtain ⟨hlt, hopen, hnot⟩ := h.registered d hd
    refine ⟨hlt, fun hmem => ?_, fun j hj => hnot j (hkept j d hj)⟩
    rcases List.mem_cons.mp hmem with rfl | hmem
    · exact hnot i hi
    · exact hopen hmem
  · rcases List.mem_cons.mp hd with rfl | hmem
    · exact h.closing i d hi
    · exact h.closed d hmem
  · refine h.closer.imp_right (Or.imp_right fun ⟨j, d, hj⟩ => ⟨j, d, (hcalls j).trans ((if_neg ?_).trans hj)⟩)
    rintro rfl
    rw [hi] at hj
    cases hj

lemma inv_step (h : Inv running s) {a : Action} (hok : RegistersAlone running s a)
    (ht : step running s a = some t) : Inv running t := by
  cases a with
  | configureClickhouse =>
    obtain rfl := Option.some.inj ht
    exact ⟨h.accounted, h.registered, h.closing, h.closed, h.closer⟩
  | getClient i isClosed =>
    obtain ⟨⟨hi, hrunning⟩, heq⟩ := Option.ite_none_right_eq_some.mp ht
    obtain rfl := Option.some.inj heq
    exact inv_getClient h hrunning hi
  | closeClickhouse i =>
    obtain ⟨hi, heq⟩ := Option.ite_none_right_eq_some.mp ht
    obtain rfl := Option.some.inj heq
    exact inv_closeClickhouse h hi
  | answers i =>
    cases hi : s.calls i with
    | creating =>
      simp only [step, hi, Option.some.injEq] at ht
      exact ht ▸ inv_register h hi (hok hi)
    | starting c =>
      simp only [step, hi, Option.some.injEq] at ht
      exact ht ▸ inv_keepCloser h hi
    | closing c =>
      simp only [step, hi, Option.some.injEq] at ht
      exact ht ▸ inv_markClosed h hi
    | _ => simp [step, hi] at ht
  | fails i =>
    cases hi : s.calls i with
    | creating =>
      simp only [step, hi, Option.some.injEq] at ht
      exact ht ▸ inv_become h (by simp [hi, Call.Plain]) (by simp [Call.Plain])
    | _ => simp [step, hi] at ht

lemma Fresh.inv (h : Fresh running s) : Inv running s where
  accounted c hc := by
    rw [h.opened] at hc
    exact absurd hc (Nat.not_lt_zero c)
  registered c hc := by
    rw [h.client] at hc
    cases hc
  closing i c hi := by
    rw [h.calls i] at hi
    cases hi
  closed c hc := by
    rw [h.closed] at hc
    cases hc
  closer := Or.inl h.client

lemma Inv.ends (h : Inv running s) (hdone : ∀ i, (s.calls i).inFlight = false) :
    AllClosed (closeWithLoop running s) := by
  have hnotClosing : ∀ i c, s.calls i ≠ .closing c := fun i c hi => by simpa [hi, Call.inFlight] using hdone i
  have hnotStarting : ∀ i c, s.calls i ≠ .starting c := fun i c hi => by simpa [hi, Call.inFlight] using hdone i
  have hclosed : ∀ c < s.opened, s.clients running = some c ∨ c ∈ s.closed := fun c hc =>
    (h.accounted c hc).imp_right (Or.resolve_right · fun ⟨i, hi⟩ => hnotClosing i c hi)
  rw [closeWithLoop]
  cases hclient : s.clients running with
  | none =>
    have hrest : AllClosed s := fun c hc => (hclosed c hc).resolve_left (by simp [hclient])
    split <;> exact hrest
  | some c =>
    have hcloser : s.closers running = true := by
      rcases h.closer with hnone | hcloser | ⟨i, d, hi⟩
      · rw [hclient] at hnone
        cases hnone
      · exact hcloser
      · exact absurd hi (hnotStarting i d)
    rw [if_pos hcloser]
    intro d hd
    rcases hclosed d hd with hregistered | hmem
    · obtain rfl := Option.some.inj (hclient.symm.trans hregistered)
      exact List.mem_cons_self
    · exact List.mem_cons_of_mem _ hmem

lemma Inv.keepsTrack (h : Inv running s) : KeepsTrack running s := ⟨h.accounted, h.ends⟩

-- The client that is registered until then is neither closed nor about to be.
lemma Inv.keepsTrack_iff (h : Inv running s) (a : Action) :
    (∀ t, step running s a = some t → KeepsTrack running t) ↔ RegistersAlone running s a := by
  constructor
  · intro htrack
    cases a with
    | answers i =>
      intro hi
      have htrack := (htrack (register running s i) (by simp [step, hi])).accounted
      cases hclient : s.clients running with
      | none => rfl
      | some c =>
        obtain ⟨hlt, hopen, hnot⟩ := h.registered c hclient
        obtain ⟨hnew, hopened, hclosed, _⟩ := register_parts running s i
        rcases htrack c (hopened ▸ Nat.lt_succ_of_lt hlt) with hregistered | hmem | ⟨j, hj⟩
        · exact absurd (Option.some.inj (hnew.symm.trans hregistered)).symm (Nat.ne_of_lt hlt)
        · exact absurd (hclosed ▸ hmem) hopen
        · exact absurd ((register_closing hi).mp hj) (hnot j)
    | _ => trivial
  · exact fun hok t ht => (inv_step h hok ht).keepsTrack

theorem always_keepsTrack_iff (hfresh : Fresh running s) (actions : List (Action)) :
    (∀ past t, past <+: actions → run (step running) s past = some t → KeepsTrack running t) ↔
      Along (step running) (RegistersAlone running) s actions := by
  rw [always_iff hfresh.inv.keepsTrack]
  refine along_congr (fun u a hu => hu.keepsTrack_iff a) (fun u a v hu hok hv => ?_) hfresh.inv
  exact inv_step hu ((hu.keepsTrack_iff a).mp hok) hv

def started : State := ⟨true, fun _ => none, fun _ => false, 0, [], fun _ => .absent⟩

def reopened : List Action :=
  [.getClient 0 fun _ => false, .answers 0, .answers 0, .getClient 1 fun _ => false, .closeClickhouse 2,
    .getClient 3 fun _ => false, .answers 3, .answers 2]

theorem always_keepsTrack_reopened : ∃ t, run (step 0) started reopened = some t ∧ KeepsTrack 0 t := by
  have hfresh : Fresh 0 started := ⟨rfl, rfl, rfl, rfl, fun _ => rfl⟩
  exact ⟨_, rfl, (always_keepsTrack_iff hfresh reopened).mpr (by decide) reopened _ (List.prefix_refl _) rfl⟩

def overlapping : List Action :=
  [.getClient 0 fun _ => false, .getClient 1 fun _ => false, .answers 0, .answers 1, .answers 0, .answers 1]

theorem always_keepsTrack_overlapping : ∃ t, run (step 0) started overlapping = some t ∧
    (∀ i, (t.calls i).inFlight = false) ∧ ¬ KeepsTrack 0 t ∧ ¬ AllClosed (closeWithLoop 0 t) := by
  refine ⟨_, rfl, fun i => ?_, fun h => ?_, fun h => ?_⟩
  · match i with
    | 0 => rfl
    | 1 => rfl
    | i + 2 => rfl
  · rcases h.accounted 0 (by decide) with hregistered | hclosed | ⟨i, hi⟩
    · exact absurd hregistered (by decide)
    · exact absurd hclosed (by decide)
    · match i with
      | 0 => cases hi
      | 1 => cases hi
      | i + 2 => cases hi
  · exact absurd (h 0 (by decide)) (by decide)

end TheCargo.Clickhouse
