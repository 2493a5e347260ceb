import Mathlib.Algebra.Order.Ring.Rat
import TheCargo.Middleware.Audit
import TheCargo.Middleware.TokenBucket

/-! The rate limit of the organizations around a service: whom it asks Redis about, and what it reports. -/

namespace TheCargo.Middleware.OrgLimit

open Foundation Models AuditMiddleware Dependencies

structure RateLimitConfig where
  serviceSecret : String
  mode : String
  service : String

structure Scope where
  type : String
  path : String
  method : Option String
  serviceSecret : Option String
  authorization : Option String

def skipPrefixes : List String := ["/health", "/metrics"]

/-- `hmac.compare_digest`; nothing for a text that is not ASCII, on which it raises. -/
def compareDigest (a b : String) : Option Bool :=
  if (a.toList ++ b.toList).all (fun c => c.toNat < 128) then some (a = b) else none

def isService (config : RateLimitConfig) (scope : Scope) : Option Bool :=
  let secret := scope.serviceSecret.getD ""
  if secret = "" ∨ config.serviceSecret = "" then some false else compareDigest secret config.serviceSecret

variable (repr : Json → String)

/-- The organization a call is charged to, `some none` for a call that is charged to nobody; nothing where it raises.
`decoded` is what `decode_once` returned or raised. -/
def orgOf (config : RateLimitConfig) (scope : Scope) (decoded : Except DecodeError Payload) : Option (Option String) :=
  if skipPrefixes.any (fun p => p.toList.isPrefixOf scope.path.toList) then some none
  else
    match isService config scope with
    | none => none
    | some true => some none
    | some false =>
      match bearer scope.authorization, decoded with
      | none, _ => some none
      | some _, .error .invalid => some none
      | some _, .error .other => none
      | some _, .ok payload =>
        let org := claim payload "org_id"
        some (if org.truthy then some (str repr org) else none)

structure Line where
  org : String
  method : Option String
  path : String
  suppressed : ℕ
  loggedAt : ℚ

-- What a request waits for: the script, the app, or nothing any more.
inductive Request
  | asking (org : String) (scope : Scope)
  | inApp
  | answered (retryAfter : ℤ)
  | ended

inductive Event
  | asked (now : ℚ)
  | failed (now : ℚ)

-- The last three fields are what has happened: the calls of Redis and those of them that failed, the organizations
-- refused, and the lines logged.
structure Worker where
  pausedUntil : ℚ
  reported : Dict String (ℚ × ℕ)
  clock : ℚ
  requests : List Request
  events : List Event
  refused : List String
  lines : List Line

def start : Worker := ⟨0, Dict.empty, 0, [], [], [], []⟩

def pauseAfterRedisError : ℚ := 5

def reportEvery : ℚ := 10

variable (config : RateLimitConfig)

def report (org : String) (scope : Scope) (now : ℚ) (reported : Dict String (ℚ × ℕ)) : (ℚ × ℕ) × List Line :=
  let (reportedAt, suppressed) := (reported.get? org).getD (0, 0)
  if now - reportedAt < reportEvery then ((reportedAt, suppressed + 1), [])
  else ((now, 0), [⟨org, scope.method, scope.path, suppressed, now⟩])

inductive Op
  | call (scope : Scope) (decoded : Except DecodeError Payload) (now : ℚ)
  | scriptReturns (i : ℕ) (retryMs : ℤ) (now : ℚ)
  | scriptFails (i : ℕ) (now : ℚ)
  | ends (i : ℕ)

def Worker.arrive (w : Worker) (r : Request) : Worker := { w with requests := w.requests ++ [r] }

def Worker.become (w : Worker) (i : ℕ) (r : Request) : Worker := { w with requests := w.requests.set i r }

def Worker.tick (w : Worker) (now : ℚ) : Worker := { w with clock := now }

def Worker.pause (w : Worker) (now : ℚ) : Worker :=
  { w with pausedUntil := now + pauseAfterRedisError, events := w.events ++ [.failed now] }

def Worker.refuse (w : Worker) (org : String) (scope : Scope) (now : ℚ) : Worker :=
  let (entry, line) := report org scope now w.reported
  { w with reported := w.reported.set org entry, refused := w.refused ++ [org], lines := w.lines ++ line }

/-- `time.monotonic` never runs back. -/
def step (w : Worker) : Op → Option Worker
  | .call scope decoded now =>
    if now < w.clock then none
    else if scope.type ≠ "http" ∨ config.mode ∉ ["shadow", "enforce"] then some ((w.tick now).arrive .inApp)
    else
      match orgOf repr config scope decoded with
      | none => some ((w.tick now).arrive .ended)
      | some none => some ((w.tick now).arrive .inApp)
      | some (some org) =>
        if now < w.pausedUntil then some ((w.tick now).arrive .inApp)
        else some { (w.tick now).arrive (.asking org scope) with events := w.events ++ [.asked now] }
  | .scriptReturns i retryMs now =>
    match w.requests[i]? with
    | some (.asking org scope) =>
      if now < w.clock then none
      else
        match TokenBucket.take retryMs with
        | none => some ((w.tick now).become i .inApp)
        | some retryAfter =>
          some (((w.tick now).refuse org scope now).become i
            (if config.mode = "shadow" then .inApp else .answered retryAfter))
    | _ => none
  | .scriptFails i now =>
    match w.requests[i]? with
    | some (.asking _ _) => if now < w.clock then none else some (((w.tick now).pause now).become i .inApp)
    | _ => none
  | .ends i => some (w.become i .ended)

inductive Moves (w : Worker) : Worker → Prop
  | arrives (r : Request) (now : ℚ) (hnow : w.clock ≤ now) (hr : r = .inApp ∨ r = .ended) :
      Moves w ((w.tick now).arrive r)
  | asks (org : String) (scope : Scope) (now : ℚ) (hnow : w.clock ≤ now) (hpause : w.pausedUntil ≤ now)
      (hmode : config.mode ∈ ["shadow", "enforce"]) :
      Moves w { (w.tick now).arrive (.asking org scope) with events := w.events ++ [.asked now] }
  | admits (i : ℕ) (now : ℚ) (hnow : w.clock ≤ now) : Moves w ((w.tick now).become i .inApp)
  | refuses (i : ℕ) (org : String) (scope : Scope) (now : ℚ) (retryMs retryAfter : ℤ)
      (hi : w.requests[i]? = some (.asking org scope)) (hnow : w.clock ≤ now)
      (htake : TokenBucket.take retryMs = some retryAfter) :
      Moves w (((w.tick now).refuse org scope now).become i
        (if config.mode = "shadow" then .inApp else .answered retryAfter))
  | fails (i : ℕ) (now : ℚ) (hnow : w.clock ≤ now) : Moves w (((w.tick now).pause now).become i .inApp)
  | ends (i : ℕ) : Moves w (w.become i .ended)

variable {repr config} {w w' : Worker} {op : Op} {org : String} {scope : Scope} {now : ℚ}

lemma orgOf_charged {decoded : Except DecodeError Payload} (h : orgOf repr config scope decoded = some (some org)) :
    ∃ token payload, bearer scope.authorization = some token ∧ decoded = .ok payload ∧
      str repr (claim payload "org_id") = org := by
  simp only [orgOf] at h
  split at h
  · exact absurd h (by simp)
  · cases hservice : isService config scope with
    | none => exact absurd h (by simp [hservice])
    | some known =>
      cases known with
      | true => exact absurd h (by simp [hservice])
      | false =>
        cases hbearer : bearer scope.authorization with
        | none => exact absurd h (by simp [hservice, hbearer])
        | some token =>
          cases decoded with
          | error e => cases e <;> exact absurd h (by simp [hservice, hbearer])
          | ok payload =>
            simp only [hservice, hbearer, Option.some.injEq, Option.ite_none_right_eq_some] at h
            exact ⟨token, payload, rfl, rfl, h.2⟩

lemma step_moves (h : step repr config w op = some w') : Moves config w w' := by
  cases op with
  | call scope decoded now =>
    simp only [step] at h
    split at h
    · exact absurd h (by simp)
    · rename_i hnow
      have hclock := not_lt.mp hnow
      split at h
      · exact Option.some.inj h ▸ .arrives .inApp now hclock (.inl rfl)
      · rename_i hserved
        split at h
        · exact Option.some.inj h ▸ .arrives .ended now hclock (.inr rfl)
        · exact Option.some.inj h ▸ .arrives .inApp now hclock (.inl rfl)
        · split at h
          · exact Option.some.inj h ▸ .arrives .inApp now hclock (.inl rfl)
          · rename_i hpause
            have hmode := not_not.mp (not_or.mp hserved).2
            exact Option.some.inj h ▸ .asks _ scope now hclock (not_lt.mp hpause) hmode
  | scriptReturns i retryMs now =>
    simp only [step] at h
    split at h
    · rename_i org scope hi
      split at h
      · exact absurd h (by simp)
      · rename_i hnow
        split at h
        · exact Option.some.inj h ▸ .admits i now (not_lt.mp hnow)
        · rename_i retryAfter htake
          exact Option.some.inj h ▸ .refuses i org scope now retryMs retryAfter hi (not_lt.mp hnow) htake
    · exact absurd h (by simp)
  | scriptFails i now =>
    simp only [step] at h
    split at h
    · split at h
      · exact absurd h (by simp)
      · rename_i hnow
        exact Option.some.inj h ▸ .fails i now (not_lt.mp hnow)
    · exact absurd h (by simp)
  | ends i => exact Option.some.inj h ▸ .ends i

def since (org : String) (w : Worker) : ℚ := ((w.reported.get? org).getD (0, 0)).1

def pending (org : String) (w : Worker) : ℕ := ((w.reported.get? org).getD (0, 0)).2

def lineOf (w : Worker) (org : String) (scope : Scope) (now : ℚ) : Line :=
  ⟨org, scope.method, scope.path, pending org w, now⟩

lemma refuse_cases (w : Worker) (org : String) (scope : Scope) (now : ℚ) :
    w.refuse org scope now =
        { w with
          reported := w.reported.set org (since org w, pending org w + 1)
          refused := w.refused ++ [org] } ∨
      (since org w + reportEvery ≤ now ∧ w.refuse org scope now =
        { w with
          reported := w.reported.set org (now, 0)
          refused := w.refused ++ [org]
          lines := w.lines ++ [lineOf w org scope now] }) := by
  by_cases hrecent : now - since org w < reportEvery
  · have hreport : report org scope now w.reported = ((since org w, pending org w + 1), []) := if_pos hrecent
    left
    rw [Worker.refuse, hreport]
    simp only [List.append_nil]
  · have hreport : report org scope now w.reported =
        ((now, 0), [lineOf w org scope now]) := if_neg hrecent
    right
    refine ⟨by linarith, ?_⟩
    rw [Worker.refuse, hreport]

def ofOrg (org : String) (l : Line) : Bool := l.org = org

def told (org : String) (lines : List Line) : ℕ := ((lines.filter (ofOrg org)).map (fun l => l.suppressed + 1)).sum

structure Accounted (org : String) (w : Worker) : Prop where
  count : w.refused.count org = told org w.lines + pending org w
  apart : (w.lines.filter (ofOrg org)).Pairwise (fun l l' => l.loggedAt + reportEvery ≤ l'.loggedAt)
  last : ∀ l ∈ w.lines.filter (ofOrg org), l.loggedAt ≤ since org w

lemma Accounted.refuse (h : Accounted org w) (org' : String) (scope : Scope) (now : ℚ) :
    Accounted org (w.refuse org' scope now) := by
  by_cases horg : org' = org
  · subst horg
    have hcount : (w.refused ++ [org']).count org' = w.refused.count org' + 1 := by simp
    rcases refuse_cases w org' scope now with hr | ⟨hover, hr⟩
    · rw [hr]
      refine ⟨?_, h.apart, ?_⟩
      · simp only [hcount, h.count, pending, Dict.get?_set, if_true, Option.getD_some]
        exact Nat.add_assoc _ _ _
      · simp only [since, Dict.get?_set, if_true, Option.getD_some]
        exact h.last
    · have hlines : (w.lines ++ [lineOf w org' scope now]).filter (ofOrg org') =
          w.lines.filter (ofOrg org') ++ [lineOf w org' scope now] := by
        simp [ofOrg, lineOf]
      have hnow : ∀ l ∈ w.lines.filter (ofOrg org'), l.loggedAt + reportEvery ≤ now :=
        fun l hl => le_trans (add_le_add_left (h.last l hl) _) hover
      rw [hr]
      refine ⟨?_, ?_, ?_⟩
      · have htold : told org' (w.lines ++ [lineOf w org' scope now]) = told org' w.lines + (pending org' w + 1) := by
          rw [told, hlines, List.map_append, List.sum_append]
          rfl
        simp only [hcount, h.count, htold, pending, Dict.get?_set, if_true, Option.getD_some]
        omega
      · simp only [hlines]
        refine List.pairwise_append.mpr ⟨h.apart, List.pairwise_singleton _ _, fun l hl l' hl' => ?_⟩
        exact List.mem_singleton.mp hl' ▸ hnow l hl
      · simp only [hlines, since, Dict.get?_set, if_true, Option.getD_some]
        intro l hl
        rcases List.mem_append.mp hl with hl | hl
        · have hten : (0 : ℚ) ≤ reportEvery := by norm_num [reportEvery]
          linarith [hnow l hl]
        · exact List.mem_singleton.mp hl ▸ le_refl now
  · have hcount : (w.refused ++ [org']).count org = w.refused.count org := by simp [horg]
    rcases refuse_cases w org' scope now with hr | ⟨-, hr⟩
    · rw [hr]
      refine ⟨?_, h.apart, ?_⟩
      · simp only [hcount, h.count, pending, Dict.get?_set, if_neg horg]
      · simp only [since, Dict.get?_set, if_neg horg]
        exact h.last
    · have hlines : (w.lines ++ [lineOf w org' scope now]).filter (ofOrg org) = w.lines.filter (ofOrg org) := by
        simp [ofOrg, lineOf, horg]
      rw [hr]
      refine ⟨?_, ?_, ?_⟩
      · simp only [hcount, h.count, told, hlines, pending, Dict.get?_set, if_neg horg]
      · simp only [hlines]
        exact h.apart
      · simp only [hlines, since, Dict.get?_set, if_neg horg]
        exact h.last

def Rests (e e' : Event) : Prop := ∀ t s, e = .failed t → e' = .asked s → t + pauseAfterRedisError ≤ s

structure Resting (w : Worker) : Prop where
  rests : w.events.Pairwise Rests
  paused : ∀ t, .failed t ∈ w.events → t + pauseAfterRedisError ≤ w.pausedUntil
  reach : w.pausedUntil ≤ w.clock + pauseAfterRedisError

lemma Resting.later (h : Resting w) (hnow : w.clock ≤ now) : w.pausedUntil ≤ now + pauseAfterRedisError :=
  le_trans h.reach (add_le_add_left hnow _)

lemma Resting.log (h : Resting w) {e : Event} (he : ∀ s, e = .asked s → w.pausedUntil ≤ s) :
    (w.events ++ [e]).Pairwise Rests := by
  refine List.pairwise_append.mpr ⟨h.rests, List.pairwise_singleton _ _, fun e₁ hmem e₂ hlast t s ht hs => ?_⟩
  obtain rfl := List.mem_singleton.mp hlast
  exact le_trans (h.paused t (ht ▸ hmem)) (he s hs)

def Fits (config : RateLimitConfig) : Request → Prop
  | .asking _ _ => config.mode ∈ ["shadow", "enforce"]
  | .answered retryAfter => config.mode = "enforce" ∧ 1 ≤ retryAfter
  | .inApp => True
  | .ended => True

structure Inv (config : RateLimitConfig) (w : Worker) : Prop where
  accounted : ∀ org, Accounted org w
  resting : Resting w
  fits : ∀ r ∈ w.requests, Fits config r

lemma inv_start : Inv config start :=
  ⟨fun _ => ⟨rfl, .nil, by simp [start]⟩, ⟨.nil, by simp [start], by norm_num [start, pauseAfterRedisError]⟩,
    by simp [start]⟩

lemma Inv.same (h : Inv config w) (hlines : w'.lines = w.lines) (hreported : w'.reported = w.reported)
    (hrefused : w'.refused = w.refused) : ∀ org, Accounted org w' := by
  intro org
  obtain ⟨hcount, hapart, hlast⟩ := h.accounted org
  refine ⟨?_, hlines ▸ hapart, ?_⟩
  · rw [pending, hlines, hreported, hrefused]
    exact hcount
  · rw [since, hlines, hreported]
    exact hlast

lemma Inv.fits_arrive (h : Inv config w) {r : Request} (hr : Fits config r) :
    ∀ r' ∈ w.requests ++ [r], Fits config r' :=
  List.forall_mem_append.mpr ⟨h.fits, List.forall_mem_singleton.mpr hr⟩

lemma Inv.fits_become (h : Inv config w) {r : Request} (hr : Fits config r) (i : ℕ) :
    ∀ r' ∈ w.requests.set i r, Fits config r' := by
  intro r' hmem
  rcases List.mem_or_eq_of_mem_set hmem with hold | rfl
  · exact h.fits r' hold
  · exact hr

lemma one_le_take {retryMs retryAfter : ℤ} (h : TokenBucket.take retryMs = some retryAfter) : 1 ≤ retryAfter := by
  rw [TokenBucket.take] at h
  split at h
  · exact absurd h (by simp)
  · exact Option.some.inj h ▸ le_max_left _ _

lemma inv_moves (hw : Inv config w) (h : Moves config w w') : Inv config w' := by
  obtain ⟨hrests, hpaused, hreach⟩ := hw.resting
  have hpassed : Fits config .inApp := trivial
  have hended : Fits config .ended := trivial
  cases h with
  | arrives r now hnow hr =>
    refine ⟨hw.same rfl rfl rfl, ⟨hrests, hpaused, hw.resting.later hnow⟩, hw.fits_arrive ?_⟩
    rcases hr with rfl | rfl
    · exact hpassed
    · exact hended
  | asks org scope now hnow hpause hmode =>
    refine ⟨hw.same rfl rfl rfl, ⟨?_, ?_, hw.resting.later hnow⟩, hw.fits_arrive hmode⟩
    · exact hw.resting.log (fun s hs => (Event.asked.inj hs) ▸ hpause)
    · exact fun t ht => hpaused t ((List.mem_append.mp ht).resolve_right (by simp))
  | admits i now hnow =>
    exact ⟨hw.same rfl rfl rfl, ⟨hrests, hpaused, hw.resting.later hnow⟩, hw.fits_become hpassed i⟩
  | refuses i org scope now retryMs retryAfter hi hnow htake =>
    refine ⟨fun org' => ?_, ⟨hrests, hpaused, hw.resting.later hnow⟩, hw.fits_become ?_ i⟩
    · have hsame : (w.tick now).lines = w.lines := rfl
      have h := (hw.same hsame rfl rfl org').refuse org scope now
      exact ⟨h.count, h.apart, h.last⟩
    · have hmode : config.mode ∈ ["shadow", "enforce"] := hw.fits _ (List.mem_of_getElem? hi)
      by_cases hshadow : config.mode = "shadow"
      · rw [if_pos hshadow]
        trivial
      · rw [if_neg hshadow]
        exact ⟨List.mem_singleton.mp ((List.mem_cons.mp hmode).resolve_left hshadow), one_le_take htake⟩
  | fails i now hnow =>
    refine ⟨hw.same rfl rfl rfl, ⟨hw.resting.log (fun s hs => by cases hs), fun t ht => ?_, le_refl _⟩,
      hw.fits_become hpassed i⟩
    rcases List.mem_append.mp ht with hold | hnew
    · exact le_trans (hpaused t hold) (hw.resting.later hnow)
    · cases List.mem_singleton.mp hnew
      exact le_refl _
  | ends i => exact ⟨hw.same rfl rfl rfl, ⟨hrests, hpaused, hreach⟩, hw.fits_become hended i⟩

theorem refusals_are_accounted (repr : Json → String) (config : RateLimitConfig) (ops : List Op) (w : Worker)
    (h : Runs.run (step repr config) start ops = some w) :
    (∀ org, w.refused.count org = told org w.lines + pending org w ∧
      (w.lines.filter (ofOrg org)).Pairwise (fun l l' => l.loggedAt + reportEvery ≤ l'.loggedAt)) ∧
    w.events.Pairwise Rests ∧
    ∀ retryAfter, .answered retryAfter ∈ w.requests → config.mode = "enforce" ∧ 1 ≤ retryAfter := by
  have hw : Inv config w := Runs.run_invariant (fun _ _ _ hs ht => inv_moves hs (step_moves ht)) inv_start h
  exact ⟨fun org => ⟨(hw.accounted org).count, (hw.accounted org).apart⟩, hw.resting.rests,
    fun retryAfter hmem => hw.fits _ hmem⟩

def limited : RateLimitConfig := ⟨"", "enforce", "loads"⟩

def quotes : Scope := ⟨"http", "/quotes", some "GET", none, some "Bearer t"⟩

def token : Except DecodeError Payload := .ok ⟨[("org_id", .str "7")], List.nodup_singleton _⟩

-- Two refusals of one organization within the interval, then a Redis that fails.
def twoRefusals : List Op :=
  [.call quotes token 20, .call quotes token 20, .scriptReturns 0 1500 21, .scriptReturns 1 900 22,
    .call quotes token 23, .scriptFails 2 24, .call quotes token 25]

theorem two_refusals_accounted : ∃ w, Runs.run (step (fun _ => "") limited) start twoRefusals = some w ∧
    w.refused.count "7" = 2 ∧ told "7" w.lines = 1 ∧ w.refused.count "7" = told "7" w.lines + pending "7" w := by
  have hcounts : (Runs.run (step (fun _ => "") limited) start twoRefusals).map
      (fun w => (w.refused.count "7", told "7" w.lines)) = some (2, 1) := by decide +kernel
  obtain ⟨w, hr, hw⟩ := Option.map_eq_some_iff.mp hcounts
  exact ⟨w, hr, congrArg Prod.fst hw, congrArg Prod.snd hw,
    ((refusals_are_accounted _ limited twoRefusals w hr).1 "7").1⟩

end TheCargo.Middleware.OrgLimit
