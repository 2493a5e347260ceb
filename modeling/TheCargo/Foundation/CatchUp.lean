import TheCargo.Foundation.Dict
import TheCargo.Foundation.Runs

/-! A replica that is filled once from a snapshot of its source while it handles the source's events in order. -/

namespace TheCargo.Foundation.CatchUp

variable {κ ρ ε υ : Type*} [DecidableEq κ]

inductive Boot (κ ρ : Type*)
  | idle
  | asked
  -- `old` of the events that are still to be handled were there before the snapshot.
  | told (records : List (κ × ρ)) (old : ℕ)
  | stored
  | left

/-- `source` is what the owner of the data has, `behind` what it had when it emitted the last event handled. -/
structure World (κ ρ ε : Type*) where
  rows : Dict κ ρ
  boot : Boot κ ρ
  source : κ → Option ρ
  behind : κ → Option ρ
  pending : List (κ × ε)

inductive Op (κ ε υ : Type*)
  | emit (k : κ) (e : ε)
  | handle
  | check
  | answer (said : υ)
  | fails
  | store

def start (table : κ → Option ρ) : World κ ρ ε := ⟨Dict.empty, .idle, table, table, []⟩

lemma nodup_without (d : Dict κ ρ) (k : κ) : ((d.items.filter (fun e => e.1 ≠ k)).map Prod.fst).Nodup :=
  d.nodup.sublist (List.filter_sublist.map Prod.fst)

def setRow (rows : Dict κ ρ) (k : κ) : Option ρ → Dict κ ρ
  | some row => rows.set k row
  | none => ⟨rows.items.filter (fun e => e.1 ≠ k), nodup_without rows k⟩

/-- `ON CONFLICT DO NOTHING` -/
def insertMissing (rows : Dict κ ρ) (record : κ × ρ) : Dict κ ρ :=
  if (rows.get? record.1).isSome then rows else rows.set record.1 record.2

def Boot.next : Boot κ ρ → Boot κ ρ
  | .told records old => .told records (old - 1)
  | boot => boot

variable (apply : Option ρ → ε → Option ρ) (read : υ → Option (List (κ × ρ)))

def handled (w : World κ ρ ε) (k : κ) (e : ε) (rest : List (κ × ε)) : World κ ρ ε where
  rows := setRow w.rows k (apply (w.rows.get? k) e)
  boot := w.boot.next
  source := w.source
  behind := Function.update w.behind k (apply (w.behind k) e)
  pending := rest

def step (w : World κ ρ ε) : Op κ ε υ → Option (World κ ρ ε)
  | .emit k e =>
    some { w with source := Function.update w.source k (apply (w.source k) e), pending := w.pending ++ [(k, e)] }
  | .handle =>
    match w.pending with
    | [] => none
    | (k, e) :: rest => some (handled apply w k e rest)
  | .check =>
    match w.boot with
    | .idle => some { w with boot := if w.rows.items.isEmpty then .asked else .left }
    | _ => none
  | .answer said =>
    match w.boot with
    | .asked => some { w with boot := (read said).elim .left (fun records => .told records w.pending.length) }
    | _ => none
  | .fails =>
    match w.boot with
    | .asked => some { w with boot := .left }
    | _ => none
  | .store =>
    match w.boot with
    | .told records _ => some { w with rows := records.foldl insertMissing w.rows, boot := .stored }
    | _ => none

def after (row : Option ρ) (events : List ε) : Option ρ := events.foldl apply row

def eventsOf (k : κ) (pending : List (κ × ε)) : List ε := (pending.filter (fun p => p.1 = k)).map Prod.snd

variable (sane : Option ρ → ε → Prop)

def Sanes : Option ρ → List ε → Prop
  | _, [] => True
  | row, e :: events => sane row e ∧ Sanes (apply row e) events

structure Laws : Prop where
  replays : ∀ row events, Sanes apply sane row events →
    after apply (after apply row events) events = after apply row events
  adds : ∀ e, sane none e → apply none e ≠ none
  covers : ∀ row e, sane row e → apply none e = none ∨ apply none e = apply row e

/-- Events say what happened, an answer is what the source has, and of the users of an answer none is left without a
row by an event that is younger than the answer. -/
def Honest (w : World κ ρ ε) : Op κ ε υ → Prop
  | .emit k e => sane (w.source k) e
  | .answer said => ∀ records, read said = some records → ∀ k, lookup k records = w.source k
  | .handle => ∀ records k e rest, w.boot = .told records 0 → w.pending = (k, e) :: rest →
      lookup k records ≠ none → apply (w.rows.get? k) e ≠ none
  | _ => True

variable {apply read sane} {w w' : World κ ρ ε} {row : Option ρ} {events : List ε} {k j : κ} {e : ε}

lemma get?_setRow (rows : Dict κ ρ) (k j : κ) (row : Option ρ) :
    (setRow rows k row).get? j = if k = j then row else rows.get? j := by
  cases row with
  | some row => exact Dict.get?_set rows k j row
  | none =>
    by_cases h : k = j
    · subst h
      rw [if_pos rfl]
      refine lookup_eq_none ?_
      rintro hmem
      obtain ⟨e, he, rfl⟩ := List.mem_map.mp hmem
      exact of_decide_eq_true (List.mem_filter.mp he).2 rfl
    · rw [if_neg h]
      exact lookup_filter (p := fun i => i ≠ k) (decide_eq_true (fun he => h he.symm)) rows.items

lemma get?_insertMissing (records : List (κ × ρ)) (rows : Dict κ ρ) (k : κ) :
    (records.foldl insertMissing rows).get? k = (rows.get? k).or (lookup k records) := by
  induction records generalizing rows with
  | nil => exact (Option.or_none).symm
  | cons r records ih =>
    obtain ⟨j, row⟩ := r
    rw [List.foldl_cons, ih, insertMissing, lookup]
    by_cases h : j = k
    · subst h
      cases hrow : rows.get? j with
      | none => simp
      | some kept => simp [hrow]
    · rw [if_neg h]
      split
      · rfl
      · rw [Dict.get?_set, if_neg h]

@[simp] lemma eventsOf_append (k : κ) (xs ys : List (κ × ε)) :
    eventsOf k (xs ++ ys) = eventsOf k xs ++ eventsOf k ys := by
  rw [eventsOf, List.filter_append, List.map_append, eventsOf, eventsOf]

lemma eventsOf_cons_self (k : κ) (e : ε) (rest : List (κ × ε)) :
    eventsOf k ((k, e) :: rest) = e :: eventsOf k rest := by
  simp [eventsOf]

lemma eventsOf_cons_other (h : j ≠ k) (e : ε) (rest : List (κ × ε)) :
    eventsOf k ((j, e) :: rest) = eventsOf k rest := by
  simp [eventsOf, h]

lemma after_append (row : Option ρ) (xs ys : List ε) :
    after apply row (xs ++ ys) = after apply (after apply row xs) ys :=
  List.foldl_append

lemma sanes_append {xs ys : List ε} : Sanes apply sane row (xs ++ ys) ↔
    Sanes apply sane row xs ∧ Sanes apply sane (after apply row xs) ys := by
  induction xs generalizing row with
  | nil => exact ⟨fun h => ⟨trivial, h⟩, fun h => h.2⟩
  | cons x xs ih =>
    rw [List.cons_append, Sanes, ih, Sanes, and_assoc]
    rfl

lemma Laws.replays_prefix (laws : Laws apply sane) {xs ys : List ε} (h : Sanes apply sane row (xs ++ ys)) :
    after apply (after apply row xs) (xs ++ ys) = after apply row (xs ++ ys) := by
  rw [after_append, after_append, laws.replays row xs (sanes_append.mp h).1]

lemma after_one (table : κ → Option ρ) (k j : κ) (e : ε) :
    after apply (table j) (eventsOf j [(k, e)]) = Function.update table k (apply (table k) e) j := by
  by_cases hk : k = j
  · subst hk
    rw [eventsOf_cons_self, Function.update_self]
    rfl
  · rw [eventsOf_cons_other hk, Function.update_of_ne (Ne.symm hk)]
    rfl

structure Inv (apply : Option ρ → ε → Option ρ) (sane : Option ρ → ε → Prop) (w : World κ ρ ε) : Prop where
  sanes : ∀ k, Sanes apply sane (w.behind k) (eventsOf k w.pending)
  source : ∀ k, after apply (w.behind k) (eventsOf k w.pending) = w.source k
  early : w.boot ≠ .stored → ∀ k, w.rows.get? k = none ∨ w.rows.get? k = w.behind k
  within : ∀ records old, w.boot = .told records old → old ≤ w.pending.length
  -- Until an event is handled that is younger than the answer, the answer is what the older ones lead to.
  young : ∀ records old, w.boot = .told records (old + 1) → ∀ k,
    lookup k records = after apply (w.behind k) (eventsOf k (w.pending.take (old + 1)))
  old : ∀ records, w.boot = .told records 0 → ∀ k, w.rows.get? k = none → lookup k records = w.behind k
  stored : w.boot = .stored → ∀ k, after apply (w.rows.get? k) (eventsOf k w.pending) = w.source k

lemma inv_start (table : κ → Option ρ) : Inv (ε := ε) apply sane (start table) where
  sanes _ := trivial
  source _ := rfl
  early _ _ := .inl rfl
  within _ _ h := nomatch h
  young _ _ h := nomatch h
  old _ h := nomatch h
  stored h := nomatch h

lemma inv_emit (h : Inv apply sane w) (hsane : sane (w.source k) e) :
    Inv apply sane { w with
      source := Function.update w.source k (apply (w.source k) e), pending := w.pending ++ [(k, e)] } where
  sanes j := by
    rw [eventsOf_append, sanes_append]
    refine ⟨h.sanes j, ?_⟩
    rw [h.source j]
    by_cases hk : k = j
    · subst hk
      rw [eventsOf_cons_self]
      exact ⟨hsane, trivial⟩
    · rw [eventsOf_cons_other hk]
      trivial
  source j := by
    rw [eventsOf_append, after_append, h.source j]
    exact after_one w.source k j e
  early := h.early
  within records old hb := by
    rw [List.length_append]
    exact Nat.le_add_right_of_le (h.within records old hb)
  young records old hb j := by
    rw [List.take_append_of_le_length (h.within records (old + 1) hb)]
    exact h.young records old hb j
  old := h.old
  stored hb j := by
    rw [eventsOf_append, after_append, h.stored hb j]
    exact after_one w.source k j e

lemma after_cons (table : κ → Option ρ) (k j : κ) (e : ε) (rest : List (κ × ε)) :
    after apply (Function.update table k (apply (table k) e) j) (eventsOf j rest) =
      after apply (table j) (eventsOf j ((k, e) :: rest)) := by
  have hsplit := eventsOf_append j [(k, e)] rest
  rw [List.singleton_append] at hsplit
  rw [hsplit, after_append, after_one]

variable {records : List (κ × ρ)} {rest : List (κ × ε)}

omit [DecidableEq κ] in
@[simp] lemma next_told {boot : Boot κ ρ} {old : ℕ} :
    boot.next = .told records old ↔ ∃ old', boot = .told records old' ∧ old' - 1 = old := by
  cases boot with
  | told records' old' => simp [Boot.next]
  | _ => simp [Boot.next]

omit [DecidableEq κ] in
@[simp] lemma next_stored {boot : Boot κ ρ} : boot.next = .stored ↔ boot = .stored := by
  cases boot <;> simp [Boot.next]

lemma get?_handled (w : World κ ρ ε) (k j : κ) (e : ε) (rest : List (κ × ε)) :
    (handled apply w k e rest).rows.get? j = Function.update w.rows.get? k (apply (w.rows.get? k) e) j := by
  rw [handled, get?_setRow, Function.update_apply]
  simp only [eq_comm]

lemma behind_handled (w : World κ ρ ε) (k : κ) (e : ε) (rest : List (κ × ε)) :
    (handled apply w k e rest).behind = Function.update w.behind k (apply (w.behind k) e) := rfl

lemma Inv.head_sane (h : Inv apply sane w) (hpending : w.pending = (k, e) :: rest) : sane (w.behind k) e := by
  have hall := h.sanes k
  rw [hpending, eventsOf_cons_self] at hall
  exact hall.1

lemma Inv.handled_sanes (h : Inv apply sane w) (hpending : w.pending = (k, e) :: rest) (j : κ) :
    Sanes apply sane ((handled apply w k e rest).behind j) (eventsOf j rest) := by
  have hall := h.sanes j
  rw [hpending] at hall
  by_cases hk : k = j
  · subst hk
    rw [eventsOf_cons_self] at hall
    rw [behind_handled, Function.update_self]
    exact hall.2
  · rw [eventsOf_cons_other hk] at hall
    rw [behind_handled, Function.update_of_ne (Ne.symm hk)]
    exact hall

lemma Inv.handled_early (laws : Laws apply sane) (h : Inv apply sane w) (hpending : w.pending = (k, e) :: rest)
    (hb : w.boot ≠ .stored) (j : κ) :
    (handled apply w k e rest).rows.get? j = none ∨
      (handled apply w k e rest).rows.get? j = (handled apply w k e rest).behind j := by
  rw [get?_handled, behind_handled]
  by_cases hk : k = j
  · subst hk
    rw [Function.update_self, Function.update_self]
    rcases h.early hb k with hnone | hsame
    · rw [hnone]
      exact laws.covers _ _ (h.head_sane hpending)
    · exact .inr (congrArg (fun row => apply row e) hsame)
  · rw [Function.update_of_ne (Ne.symm hk), Function.update_of_ne (Ne.symm hk)]
    exact h.early hb j

lemma Inv.handled_old (laws : Laws apply sane) (h : Inv apply sane w) (hpending : w.pending = (k, e) :: rest)
    (hboot : w.boot = .told records 0) (hquiet : lookup k records ≠ none → apply (w.rows.get? k) e ≠ none) (j : κ)
    (hnone : (handled apply w k e rest).rows.get? j = none) :
    lookup j records = (handled apply w k e rest).behind j := by
  rw [get?_handled] at hnone
  rw [behind_handled]
  by_cases hk : k = j
  · subst hk
    rw [Function.update_self] at hnone ⊢
    have hunsaid : lookup k records = none := by
      by_contra hsaid
      exact hquiet hsaid hnone
    have hsane := h.head_sane hpending
    rw [hunsaid]
    rcases h.early (by rw [hboot]; exact nofun) k with hrow | hrow
    · have hbehind := h.old records hboot k hrow
      rw [hunsaid] at hbehind
      rw [hrow] at hnone
      rw [← hbehind] at hsane
      exact absurd hnone (laws.adds e hsane)
    · rw [← hrow, hnone]
  · rw [Function.update_of_ne (Ne.symm hk)] at hnone ⊢
    exact h.old records hboot j hnone

lemma inv_handle (laws : Laws apply sane) (h : Inv apply sane w) (hpending : w.pending = (k, e) :: rest)
    (hquiet : ∀ records, w.boot = .told records 0 → lookup k records ≠ none → apply (w.rows.get? k) e ≠ none) :
    Inv apply sane (handled apply w k e rest) := by
  refine ⟨h.handled_sanes hpending, ?_, ?_, ?_, ?_, ?_, ?_⟩
  · intro j
    have hsource := h.source j
    rw [hpending, ← after_cons] at hsource
    exact hsource
  · intro hb j
    exact h.handled_early laws hpending (fun hstored => hb (next_stored.mpr hstored)) j
  · intro records old hb
    obtain ⟨old', hboot, rfl⟩ := next_told.mp hb
    have hle := h.within records old' hboot
    rw [hpending, List.length_cons] at hle
    exact Nat.sub_le_of_le_add hle
  · intro records old hb j
    obtain ⟨old', hboot, hold⟩ := next_told.mp hb
    obtain rfl : old' = old + 1 + 1 := by omega
    have hyoung := h.young records (old + 1) hboot j
    rw [hpending, List.take_succ_cons, ← after_cons] at hyoung
    exact hyoung
  · intro records hb j hnone
    obtain ⟨old', hboot, hold⟩ := next_told.mp hb
    cases old' with
    | zero => exact h.handled_old laws hpending hboot (hquiet records hboot) j hnone
    | succ old' =>
      obtain rfl : old' = 0 := by omega
      have hyoung := h.young records 0 hboot j
      rw [hpending, List.take_succ_cons, List.take_zero, after_one] at hyoung
      exact hyoung
  · intro hb j
    have hrow := h.stored (next_stored.mp hb) j
    rw [hpending, ← after_cons, ← get?_handled] at hrow
    exact hrow

lemma inv_answer (h : Inv apply sane w) (hboot : w.boot = .asked) (htold : ∀ k, lookup k records = w.source k) :
    Inv apply sane { w with boot := .told records w.pending.length } where
  sanes := h.sanes
  source := h.source
  early _ := h.early (by rw [hboot]; exact nofun)
  within _ old hb := (Boot.told.inj hb).2 ▸ Nat.le_refl _
  young records' old hb j := by
    obtain ⟨rfl, hlength⟩ := Boot.told.inj hb
    rw [← hlength, List.take_length, h.source j, htold j]
  old records' hb j _ := by
    obtain ⟨rfl, hlength⟩ := Boot.told.inj hb
    have hsource := h.source j
    rw [List.length_eq_zero_iff.mp hlength] at hsource
    exact (htold j).trans hsource.symm
  stored hb := nomatch hb

lemma inv_boot (h : Inv apply sane w) {boot : Boot κ ρ} (hb : w.boot ≠ .stored) (hboot : boot = .asked ∨ boot = .left) :
    Inv apply sane { w with boot := boot } where
  sanes := h.sanes
  source := h.source
  early _ := h.early hb
  within _ _ hb := by rcases hboot with rfl | rfl <;> cases hb
  young _ _ hb := by rcases hboot with rfl | rfl <;> cases hb
  old _ hb := by rcases hboot with rfl | rfl <;> cases hb
  stored hb := by rcases hboot with rfl | rfl <;> cases hb

lemma inv_store (laws : Laws apply sane) (h : Inv apply sane w) {old : ℕ} (hboot : w.boot = .told records old) :
    Inv apply sane { w with rows := records.foldl insertMissing w.rows, boot := .stored } where
  sanes := h.sanes
  source := h.source
  early hb := absurd rfl hb
  within _ _ hb := nomatch hb
  young _ _ hb := nomatch hb
  old _ hb := nomatch hb
  stored _ j := by
    dsimp only
    rw [get?_insertMissing]
    cases hrow : w.rows.get? j with
    | some row =>
      rcases h.early (by rw [hboot]; exact nofun) j with hnone | hsame
      · rw [hrow] at hnone
        cases hnone
      · rw [Option.some_or, ← hrow, hsame]
        exact h.source j
    | none =>
      rw [Option.none_or]
      cases old with
      | zero =>
        rw [h.old records hboot j hrow]
        exact h.source j
      | succ old =>
        have hsplit := eventsOf_append j (w.pending.take (old + 1)) (w.pending.drop (old + 1))
        have hsanes := h.sanes j
        rw [List.take_append_drop] at hsplit
        rw [hsplit] at hsanes
        rw [h.young records old hboot j, hsplit, laws.replays_prefix hsanes, ← hsplit]
        exact h.source j

lemma step_inv (laws : Laws apply sane) (op : Op κ ε υ) (h : Inv apply sane w) (hop : Honest apply read sane w op)
    (hstep : step apply read w op = some w') : Inv apply sane w' := by
  cases op with
  | emit k e =>
    cases hstep
    exact inv_emit h hop
  | handle =>
    cases hpending : w.pending with
    | nil => simp [step, hpending] at hstep
    | cons p rest =>
      obtain ⟨k, e⟩ := p
      simp only [step, hpending, Option.some.injEq] at hstep
      obtain rfl := hstep
      exact inv_handle laws h hpending (fun records hboot => hop records k e rest hboot hpending)
  | check =>
    cases hboot : w.boot with
    | idle =>
      simp only [step, hboot, Option.some.injEq] at hstep
      obtain rfl := hstep
      refine inv_boot h (by rw [hboot]; exact nofun) ?_
      split
      · exact .inl rfl
      · exact .inr rfl
    | _ => simp [step, hboot] at hstep
  | answer said =>
    cases hboot : w.boot with
    | asked =>
      simp only [step, hboot, Option.some.injEq] at hstep
      obtain rfl := hstep
      cases hread : read said with
      | none => exact inv_boot h (by rw [hboot]; exact nofun) (.inr rfl)
      | some records => exact inv_answer h hboot (hop records hread)
    | _ => simp [step, hboot] at hstep
  | fails =>
    cases hboot : w.boot with
    | asked =>
      simp only [step, hboot, Option.some.injEq] at hstep
      obtain rfl := hstep
      exact inv_boot h (by rw [hboot]; exact nofun) (.inr rfl)
    | _ => simp [step, hboot] at hstep
  | store =>
    cases hboot : w.boot with
    | told records old =>
      simp only [step, hboot, Option.some.injEq] at hstep
      obtain rfl := hstep
      exact inv_store laws h hboot
    | _ => simp [step, hboot] at hstep

lemma caught_up (laws : Laws apply sane) {table : κ → Option ρ} {ops : List (Op κ ε υ)}
    (honest : Runs.Along (step apply read) (Honest apply read sane) (start table) ops)
    (h : Runs.run (step apply read) (start table) ops = some w) (hstored : w.boot = .stored) (k : κ) :
    after apply (w.rows.get? k) (eventsOf k w.pending) = w.source k := by
  have hinv : Inv apply sane w :=
    Runs.run_along (fun _ op _ hs hop ht => step_inv laws op hs hop ht) (inv_start table) honest h
  exact hinv.stored hstored k

end TheCargo.Foundation.CatchUp
