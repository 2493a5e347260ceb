import TheCargo.Foundation.Runs
import TheCargo.Handlers

namespace TheCargo.Middleware.LoadShed

open Foundation Foundation.Runs I18n Handlers

structure Scope where
  type : String
  path : String
  acceptLanguage : Option String

def skipPrefixes : List String := ["/health", "/metrics", "/api/internal"]

structure LoadShedMiddleware where
  limit : ℤ
  skipPrefixes : List String

def LoadShedMiddleware.skips (mw : LoadShedMiddleware) (scope : Scope) : Bool :=
  scope.type ≠ "http" || mw.skipPrefixes.any (fun p => p.toList.isPrefixOf scope.path.toList)

inductive Ending
  | returned
  | raised
  | cancelled

inductive Phase
  | inApp (counted : Bool)
  | answering
  | ended (how : Ending)

-- `reached` says whether the app was called, `response` what it is answered without it.
structure Request where
  scope : Scope
  phase : Phase
  reached : Bool
  response : Option JSONResponse

structure Process where
  inFlight : ℤ
  requests : List Request

inductive Event
  | enter (scope : Scope)
  | appEnds (i : ℕ) (how : Ending)
  | answerEnds (i : ℕ) (how : Ending)

variable (unicode : Unicode) (format : Format) (tables : Tables) (mw : LoadShedMiddleware)

def start : Process := ⟨0, []⟩

def serverBusy (scope : Scope) : Except Raised JSONResponse := do
  let lang := getLanguage unicode scope.acceptLanguage
  let content ←
    envelope format tables "SERVER_BUSY" "common.server_busy" lang [] (.str "Server busy, retry shortly")
  let response ← jsonResponse 503 (.dict content)
  pure { response with headers := [("Retry-After", "1")] }

def enter (w : Process) (scope : Scope) : Process :=
  if mw.skips scope then { w with requests := w.requests ++ [⟨scope, .inApp false, true, none⟩] }
  else if mw.limit ≤ w.inFlight then
    match serverBusy unicode format tables scope with
    | .ok response => { w with requests := w.requests ++ [⟨scope, .answering, false, some response⟩] }
    | .error _ => { w with requests := w.requests ++ [⟨scope, .ended .raised, false, none⟩] }
  else ⟨w.inFlight + 1, w.requests ++ [⟨scope, .inApp true, true, none⟩]⟩

def step (w : Process) : Event → Option Process
  | .enter scope => some (enter unicode format tables mw w scope)
  | .appEnds i how =>
    match w.requests[i]? with
    | some ⟨scope, .inApp counted, reached, response⟩ =>
      some ⟨if counted then w.inFlight - 1 else w.inFlight,
        w.requests.set i ⟨scope, .ended how, reached, response⟩⟩
    | _ => none
  | .answerEnds i how =>
    match w.requests[i]? with
    | some ⟨scope, .answering, reached, response⟩ =>
      some { w with requests := w.requests.set i ⟨scope, .ended how, reached, response⟩ }
    | _ => none

def Request.admitted (r : Request) : Bool :=
  match r.phase with
  | .inApp _ => !mw.skips r.scope
  | _ => false

def running (w : Process) : ℕ := w.requests.countP (Request.admitted mw)

def Request.TurnedAway (r : Request) : Prop :=
  r.reached = false ∧ ∃ response, r.response = some response ∧ response.status = 503

structure CountsExactly (w : Process) : Prop where
  counted : w.inFlight = running mw w
  bounded : 0 ≤ w.inFlight ∧ w.inFlight ≤ mw.limit
  arrival : ∀ scope (v : Process), step unicode format tables mw w (.enter scope) = some v →
    ∃ r, v.requests = w.requests ++ [r] ∧ r.scope = scope ∧
      (r.TurnedAway ↔ mw.skips scope = false ∧ (running mw w : ℤ) = mw.limit) ∧
      (r.reached = false → r.TurnedAway)
  settled : ∀ e (v : Process) (i : ℕ) (r : Request), step unicode format tables mw w e = some v →
    w.requests[i]? = some r → ∃ phase, v.requests[i]? = some (Request.mk r.scope phase r.reached r.response)
  skipped : ∀ (i : ℕ) how (v : Process) (r : Request), step unicode format tables mw w (.appEnds i how) = some v →
    w.requests[i]? = some r → mw.skips r.scope = true → v.inFlight = w.inFlight
  passed : ∀ scope (v : Process), step unicode format tables mw w (.enter scope) = some v → mw.skips scope = true →
    v.inFlight = w.inFlight

structure Counted (w : Process) : Prop where
  counted : w.inFlight = running mw w
  bounded : w.inFlight ≤ mw.limit
  honest : ∀ r ∈ w.requests, ∀ counted, r.phase = .inApp counted → counted = !mw.skips r.scope

variable {unicode format tables mw} {w v : Process}

lemma serverBusy_ok (scope : Scope) :
    ∃ response, serverBusy unicode format tables scope = .ok response ∧ response.status = 503 := by
  have hanswers : Answers 503 (envelope format tables "SERVER_BUSY" "common.server_busy"
      (getLanguage unicode scope.acceptLanguage) [] (.str "Server busy, retry shortly") >>= fun content =>
        jsonResponse 503 (.dict content)) :=
    answers_envelope.mpr ⟨fills_nil _ _, List.forall_mem_nil _, Or.inr (PyValue.encodable_str _)⟩
  obtain ⟨response, hresponse, hstatus⟩ := answers_iff.mp hanswers
  obtain ⟨content, hcontent, hjson⟩ := bind_ok_iff.mp hresponse
  refine ⟨{ response with headers := [("Retry-After", "1")] }, ?_, hstatus⟩
  rw [serverBusy]
  exact bind_ok_iff.mpr ⟨content, hcontent, bind_ok_iff.mpr ⟨response, hjson, rfl⟩⟩

lemma enter_cases (w : Process) (scope : Scope) :
    (mw.skips scope = true ∧
      enter unicode format tables mw w scope =
        { w with requests := w.requests ++ [⟨scope, .inApp false, true, none⟩] }) ∨
    (mw.skips scope = false ∧ mw.limit ≤ w.inFlight ∧ ∃ response, response.status = 503 ∧
      enter unicode format tables mw w scope =
        { w with requests := w.requests ++ [⟨scope, .answering, false, some response⟩] }) ∨
    (mw.skips scope = false ∧ w.inFlight < mw.limit ∧
      enter unicode format tables mw w scope =
        ⟨w.inFlight + 1, w.requests ++ [⟨scope, .inApp true, true, none⟩]⟩) := by
  rw [enter]
  cases hskips : mw.skips scope with
  | true => exact Or.inl ⟨rfl, rfl⟩
  | false =>
    right
    by_cases hfull : mw.limit ≤ w.inFlight
    · obtain ⟨response, hresponse, hstatus⟩ :
          ∃ response, serverBusy unicode format tables scope = .ok response ∧ response.status = 503 :=
        serverBusy_ok scope
      exact Or.inl ⟨rfl, hfull, response, hstatus, by rw [if_neg Bool.false_ne_true, if_pos hfull, hresponse]⟩
    · exact Or.inr ⟨rfl, Int.not_le.mp hfull, by rw [if_neg Bool.false_ne_true, if_neg hfull]⟩

lemma appEnds_cases {i : ℕ} {how : Ending} (h : step unicode format tables mw w (.appEnds i how) = some v) :
    ∃ scope counted reached response, w.requests[i]? = some ⟨scope, .inApp counted, reached, response⟩ ∧
      v = ⟨if counted then w.inFlight - 1 else w.inFlight,
        w.requests.set i ⟨scope, .ended how, reached, response⟩⟩ := by
  rw [step] at h
  split at h
  · rename_i scope counted reached response hr
    exact ⟨scope, counted, reached, response, hr, (Option.some.inj h).symm⟩
  · cases h

lemma answerEnds_cases {i : ℕ} {how : Ending} (h : step unicode format tables mw w (.answerEnds i how) = some v) :
    ∃ scope reached response, w.requests[i]? = some ⟨scope, .answering, reached, response⟩ ∧
      v = { w with requests := w.requests.set i ⟨scope, .ended how, reached, response⟩ } := by
  rw [step] at h
  split at h
  · rename_i scope reached response hr
    exact ⟨scope, reached, response, hr, (Option.some.inj h).symm⟩
  · cases h

lemma running_append (inFlight : ℤ) (r : Request) :
    running mw ⟨inFlight, w.requests ++ [r]⟩ = running mw w + if r.admitted mw then 1 else 0 := by
  rw [running, running, List.countP_append, List.countP_singleton]

lemma admitted_ended (scope : Scope) (how : Ending) (reached : Bool) (response : Option JSONResponse) :
    Request.admitted mw ⟨scope, .ended how, reached, response⟩ = false := rfl

lemma running_ended {i : ℕ} {r : Request} (hr : w.requests[i]? = some r) (inFlight : ℤ) (how : Ending) :
    running mw ⟨inFlight, w.requests.set i ⟨r.scope, .ended how, r.reached, r.response⟩⟩ +
      (if r.admitted mw then 1 else 0) = running mw w := by
  obtain ⟨hlt, hget⟩ := List.getElem?_eq_some_iff.mp hr
  rw [running, running, List.countP_set hlt, hget, admitted_ended, if_neg Bool.false_ne_true]
  by_cases hadmitted : r.admitted mw = true
  · have hpos : 0 < w.requests.countP (Request.admitted mw) :=
      List.countP_pos_iff.mpr ⟨r, List.mem_of_getElem? hr, hadmitted⟩
    rw [if_pos hadmitted]
    omega
  · rw [if_neg hadmitted]
    omega

lemma counted_start (hlimit : 0 ≤ mw.limit) : Counted mw start :=
  ⟨rfl, hlimit, nofun⟩

lemma Counted.append (h : Counted mw w) {r : Request} {inFlight : ℤ}
    (hcount : inFlight = w.inFlight + if r.admitted mw then 1 else 0) (hbound : inFlight ≤ mw.limit)
    (hr : ∀ counted, r.phase = .inApp counted → counted = !mw.skips r.scope) :
    Counted mw ⟨inFlight, w.requests ++ [r]⟩ := by
  refine ⟨?_, hbound, ?_⟩
  · rw [running_append, hcount, h.counted]
    split <;> rfl
  · intro q hq
    rcases List.mem_append.mp hq with hq | hq
    · exact h.honest q hq
    · obtain rfl := List.mem_singleton.mp hq
      exact hr

lemma Counted.enter (h : Counted mw w) (scope : Scope) :
    Counted mw (LoadShed.enter unicode format tables mw w scope) := by
  rcases enter_cases w scope with ⟨hskips, henter⟩ | ⟨_, _, response, _, henter⟩ | ⟨hskips, hroom, henter⟩
  · rw [henter]
    apply h.append
    · simp [Request.admitted, hskips]
    · exact h.bounded
    · rintro counted hphase
      obtain rfl := Phase.inApp.inj hphase
      simp [hskips]
  · rw [henter]
    exact h.append (by simp [Request.admitted]) h.bounded nofun
  · rw [henter]
    apply h.append
    · simp [Request.admitted, hskips]
    · omega
    · rintro counted hphase
      obtain rfl := Phase.inApp.inj hphase
      simp [hskips]

lemma Counted.ended (h : Counted mw w) {i : ℕ} {r : Request} (hr : w.requests[i]? = some r) (how : Ending)
    {inFlight : ℤ} (hcount : inFlight = w.inFlight - if r.admitted mw then 1 else 0) :
    Counted mw ⟨inFlight, w.requests.set i ⟨r.scope, .ended how, r.reached, r.response⟩⟩ := by
  have hrunning : _ = running mw w := running_ended hr inFlight how
  have hcounted := h.counted
  have hbounded := h.bounded
  refine ⟨?_, ?_, ?_⟩
  · change inFlight = _
    by_cases hadmitted : r.admitted mw = true
    · rw [if_pos hadmitted] at hcount hrunning
      omega
    · rw [if_neg hadmitted] at hcount hrunning
      omega
  · change inFlight ≤ _
    split at hcount <;> omega
  · intro q hq
    rcases List.mem_or_eq_of_mem_set hq with hq | rfl
    · exact h.honest q hq
    · exact nofun

lemma Counted.step (h : Counted mw w) {e : Event} (hv : LoadShed.step unicode format tables mw w e = some v) :
    Counted mw v := by
  cases e with
  | enter scope =>
    obtain rfl := Option.some.inj hv
    exact h.enter scope
  | appEnds i how =>
    obtain ⟨scope, counted, reached, response, hr, rfl⟩ := appEnds_cases hv
    have hhonest := h.honest _ (List.mem_of_getElem? hr) counted rfl
    apply h.ended hr how
    rw [Request.admitted, ← hhonest]
    cases counted <;> simp
  | answerEnds i how =>
    obtain ⟨scope, reached, response, hr, rfl⟩ := answerEnds_cases hv
    apply h.ended hr how
    simp [Request.admitted]

lemma getElem?_set_ended {i j : ℕ} {q r : Request} (hq : w.requests[i]? = some q) (hr : w.requests[j]? = some r)
    (how : Ending) :
    ∃ phase, (w.requests.set i ⟨q.scope, .ended how, q.reached, q.response⟩)[j]? =
      some (Request.mk r.scope phase r.reached r.response) := by
  by_cases hij : i = j
  · subst hij
    obtain rfl := Option.some.inj (hq.symm.trans hr)
    obtain ⟨hlt, _⟩ := List.getElem?_eq_some_iff.mp hq
    exact ⟨.ended how, List.getElem?_set_self hlt⟩
  · exact ⟨r.phase, by rw [List.getElem?_set_ne hij, hr]⟩

lemma step_settled {e : Event} (hv : LoadShed.step unicode format tables mw w e = some v) {i : ℕ} {r : Request}
    (hr : w.requests[i]? = some r) :
    ∃ phase, v.requests[i]? = some (Request.mk r.scope phase r.reached r.response) := by
  cases e with
  | enter scope =>
    obtain rfl := Option.some.inj hv
    obtain ⟨q, hq⟩ : ∃ q, (enter unicode format tables mw w scope).requests = w.requests ++ [q] := by
      rcases enter_cases w scope with ⟨_, henter⟩ | ⟨_, _, response, _, henter⟩ | ⟨_, _, henter⟩
      · exact ⟨_, congrArg Process.requests henter⟩
      · exact ⟨_, congrArg Process.requests henter⟩
      · exact ⟨_, congrArg Process.requests henter⟩
    obtain ⟨hlt, _⟩ := List.getElem?_eq_some_iff.mp hr
    exact ⟨r.phase, by rw [hq, List.getElem?_append_left hlt, hr]⟩
  | appEnds j how =>
    obtain ⟨scope, counted, reached, response, hq, rfl⟩ := appEnds_cases hv
    exact getElem?_set_ended hq hr how
  | answerEnds j how =>
    obtain ⟨scope, reached, response, hq, rfl⟩ := answerEnds_cases hv
    exact getElem?_set_ended hq hr how

lemma Counted.arrival (h : Counted mw w) (scope : Scope) :
    ∃ r, (LoadShed.enter unicode format tables mw w scope).requests = w.requests ++ [r] ∧ r.scope = scope ∧
      (r.TurnedAway ↔ mw.skips scope = false ∧ (running mw w : ℤ) = mw.limit) ∧
      (r.reached = false → r.TurnedAway) := by
  have hcounted := h.counted
  have hbounded := h.bounded
  rcases enter_cases w scope with
    ⟨hskips, henter⟩ | ⟨hskips, hfull, response, hstatus, henter⟩ | ⟨hskips, hroom, henter⟩
  · refine ⟨_, congrArg Process.requests henter, rfl, ?_, nofun⟩
    simp [Request.TurnedAway, hskips]
  · have haway : Request.TurnedAway ⟨scope, .answering, false, some response⟩ := ⟨rfl, response, rfl, hstatus⟩
    refine ⟨_, congrArg Process.requests henter, rfl, ?_, fun _ => haway⟩
    exact iff_of_true haway ⟨hskips, by omega⟩
  · refine ⟨_, congrArg Process.requests henter, rfl, ?_, nofun⟩
    have hne : (running mw w : ℤ) ≠ mw.limit := by omega
    simp [Request.TurnedAway, hne]

lemma Counted.exact (h : Counted mw w) : CountsExactly unicode format tables mw w := by
  have hcounted := h.counted
  refine ⟨h.counted, ⟨by omega, h.bounded⟩, ?_, fun e v i r hv hr => step_settled hv hr, ?_, ?_⟩
  · intro scope v hv
    obtain rfl := Option.some.inj hv
    exact h.arrival scope
  · intro i how v r hv hr hskips
    obtain ⟨scope, counted, reached, response, hq, rfl⟩ := appEnds_cases hv
    obtain rfl := Option.some.inj (hq.symm.trans hr)
    have hhonest := h.honest _ (List.mem_of_getElem? hq) counted rfl
    rw [hskips] at hhonest
    subst hhonest
    rfl
  · intro scope v hv hskips
    obtain rfl := Option.some.inj hv
    rw [LoadShed.enter, if_pos hskips]

theorem load_is_counted_exactly (unicode : Unicode) (format : Format) (tables : Tables) (mw : LoadShedMiddleware)
    (events : List Event) (w : Process) (hlimit : 0 ≤ mw.limit)
    (hrun : run (LoadShed.step unicode format tables mw) start events = some w) :
    CountsExactly unicode format tables mw w :=
  (run_invariant (fun _ _ _ hw hv => Counted.step hw hv) (counted_start hlimit) hrun).exact

theorem one_slot_is_counted_exactly :
    ∃ w, run (LoadShed.step Unicode.ascii (fun text _ => .ok text) (fun _ => Dict.empty) ⟨1, skipPrefixes⟩) start
        [.enter ⟨"http", "/api/v1/things", none⟩, .enter ⟨"http", "/api/v1/things", none⟩,
          .enter ⟨"http", "/health/live", none⟩, .answerEnds 1 .cancelled, .appEnds 0 .raised, .appEnds 2 .returned] =
        some w ∧
      CountsExactly Unicode.ascii (fun text _ => .ok text) (fun _ => Dict.empty) ⟨1, skipPrefixes⟩ w :=
  Exists.imp (fun _ hw => ⟨hw, load_is_counted_exactly _ _ _ _ _ _ Int.one_nonneg hw⟩)
    (Option.isSome_iff_exists.mp (by decide +kernel))

end TheCargo.Middleware.LoadShed
