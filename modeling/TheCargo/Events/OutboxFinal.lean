import Mathlib.Algebra.Order.BigOperators.Group.List
import Mathlib.Algebra.Order.Ring.Nat
import TheCargo.Events.OutboxRelay
import TheCargo.Foundation.Updates

namespace TheCargo.Events.OutboxFinal

open Foundation Models Outbox OutboxRelay Foundation.Updates

def holds (id : UUID) : Worker → Bool
  | .delivering todo _ _ _ => todo.any (fun held => held.id = id)
  | _ => false

def failures : Worker → List (UUID × String)
  | .delivering _ _ _ failed => failed
  | _ => []

def holders (id : UUID) (s : State) : ℕ := (s.processes.map (fun q => q.relays.countP (holds id))).sum

structure StaysPublished (id : UUID) (s t : State) : Prop where
  final : ∀ row ∈ t.world.table, row.id = id → row.status = .published
  unclaimed : t.world.claims.count id = s.world.claims.count id
  undelivered : holders id t ≤ holders id s

def stamped (s : State) : Op → List (UUID × String)
  | .within p (.relayStamps i _) => ((s.processes[p]?).bind (fun q => q.relays[i]?)).elim [] failures
  | _ => []

def FailsUnpublished (s : State) (op : Op) : Prop :=
  ∀ e ∈ stamped s op, ∀ row ∈ s.world.table, row.id = e.1 → row.status ≠ .published

instance (s : State) (op : Op) : Decidable (FailsUnpublished s op) :=
  inferInstanceAs (Decidable (∀ e ∈ stamped s op, ∀ row ∈ s.world.table, row.id = e.1 → row.status ≠ .published))

structure Final (id : UUID) (w : World) : Prop where
  known : id ∈ w.inserted.map OutboxEvent.id
  published : ∀ row ∈ w.table, row.id = id → row.status = .published

variable {id : UUID} {w : World}

lemma Final.map (h : Final id w) {f : OutboxEvent → OutboxEvent} (hid : ∀ row, (f row).id = row.id)
    (hstays : ∀ row ∈ w.table, row.id = id → row.status = .published → (f row).status = .published) :
    Final id { w with table := w.table.map f } := by
  refine ⟨h.known, ?_⟩
  intro row hrow hr
  obtain ⟨old, hold, rfl⟩ := List.mem_map.mp hrow
  rw [hid] at hr
  exact hstays old hold hr (h.published old hold hr)

lemma Final.update (h : Final id w) {ids : List UUID} {now : Instant} {set : OutboxEvent → OutboxEvent}
    (hid : ∀ row, (set row).id = row.id)
    (hstays : ∀ row ∈ w.table, row.id = id → id ∈ ids → (set row).status = .published) :
    Final id { w with table := Outbox.update ids now set w.table } := by
  apply h.map
  · intro row
    split
    · exact hid row
    · rfl
  · intro row hrow hr hp
    split
    · rename_i hin
      exact hstays row hrow hr (hr ▸ hin)
    · exact hp

lemma Final.reclaimStuck (h : Final id w) (now : Instant) :
    Final id { w with table := Outbox.reclaimStuck now w.table } := by
  apply h.map
  · intro row
    split <;> rfl
  · intro row _ _ hp
    rw [if_neg]
    · exact hp
    · rintro ⟨hs, _⟩
      rw [hp] at hs
      exact absurd hs (by simp)

lemma Final.stampFailed (h : Final id w) {failed : List (UUID × String)} (now : Instant)
    (hf : ∀ row ∈ w.table, row.id = id → id ∉ failed.map Prod.fst) :
    Final id { w with table := Outbox.stampFailed failed now w.table } := by
  induction failed generalizing w with
  | nil => exact h
  | cons e failed ih =>
    apply ih (w := { w with table := Outbox.update [e.1] now _ w.table })
    · apply h.update
      · intro row
        rfl
      · intro row hrow hr hin
        exact absurd (List.mem_map.mpr ⟨e, List.mem_cons_self, (List.mem_singleton.mp hin).symm⟩) (hf row hrow hr)
    · intro row hrow hr hin
      obtain ⟨old, hold, rfl⟩ := List.mem_map.mp hrow
      have hold' : old.id = id := by
        split at hr
        · exact hr
        · exact hr
      exact hf old hold hold' (List.mem_cons_of_mem _ hin)

lemma Final.insert (h : Final id w) {rows : List Held} (hf : w.Fresh rows) (now : Instant) :
    Final id (w.insert rows now) := by
  refine ⟨?_, ?_⟩
  · rw [World.insert, List.map_append]
    exact List.mem_append_left _ h.known
  · intro row hrow hr
    rcases List.mem_append.mp hrow with hold | hnew
    · exact h.published row hold hr
    · obtain ⟨held, hheld, rfl⟩ := List.mem_map.mp hnew
      have hid : held.id = id := hr
      exact absurd (hid ▸ h.known) (hf.2 held hheld)

lemma due_pending {now : Instant} {locked : List UUID} {table : List OutboxEvent} {row : OutboxEvent}
    (h : row ∈ due now locked table) : row.status = .pending := by
  obtain ⟨rows, hsub, hperm⟩ := due_perm now locked table
  have hf := List.mem_filter.mp (hperm.mem_iff.mp (hsub.subset h))
  simp only [Bool.and_eq_true, decide_eq_true_eq] at hf
  exact hf.2.1.1.1

lemma Final.not_due (h : Final id w) (now : Instant) (locked : List UUID) :
    id ∉ (due now locked w.table).map OutboxEvent.id := by
  intro hin
  obtain ⟨row, hrow, hr⟩ := List.mem_map.mp hin
  have hp := h.published row (mem_due hrow).1 hr
  rw [due_pending hrow] at hp
  exact absurd hp (by simp)

lemma Final.claimBatch (h : Final id w) (now : Instant) (locked : List UUID) :
    Final id (w.claimBatch (due now locked w.table) now) ∧
      (w.claimBatch (due now locked w.table) now).claims.count id = w.claims.count id := by
  have hno := h.not_due now locked
  have hclaim : Final id { w with table := claim ((due now locked w.table).map OutboxEvent.id) now w.table } :=
    h.update (fun _ => rfl) (fun _ _ _ hin => absurd hin hno)
  refine ⟨⟨hclaim.known, hclaim.published⟩, ?_⟩
  rw [World.claimBatch, List.count_append, List.count_eq_zero.mpr hno, Nat.add_zero]

lemma Final.cleanupPublished (h : Final id w) (now olderThanDays : Instant) :
    Final id { w with table := Outbox.cleanupPublished now olderThanDays w.table } :=
  ⟨h.known, fun row hrow => h.published row (List.mem_filter.mp hrow).1⟩

lemma Final.stamps (h : Final id w) {published : List UUID} {failed : List (UUID × String)} (now : Instant)
    (hf : ∀ e ∈ failed, ∀ row ∈ w.table, row.id = e.1 → row.status ≠ .published) :
    Final id { w with table := Outbox.stampFailed failed now (stampPublished published now w.table) } := by
  have hpub : Final id { w with table := stampPublished published now w.table } :=
    h.update (fun _ => rfl) (fun _ _ _ _ => rfl)
  apply hpub.stampFailed now
  intro row hrow hid hin
  obtain ⟨old, hold, rfl⟩ := List.mem_map.mp hrow
  have hid' : old.id = id := by
    split at hid
    · exact hid
    · exact hid
  obtain ⟨e, he, hfst⟩ := List.mem_map.mp hin
  exact hf e he old hold (hid'.trans hfst.symm) (h.published old hold hid')

lemma holds_of_rest {held : Held} {todo : List Held} {sending sending' : Bool} {published published' : List UUID}
    {failed failed' : List (UUID × String)} (h : holds id (.delivering todo sending' published' failed') = true) :
    holds id (.delivering (held :: todo) sending published failed) = true := by
  rw [holds, List.any_cons, Bool.or_eq_true]
  exact Or.inr h

structure Keeps (id : UUID) (w : World) (q : Process) (r : World × Process) : Prop where
  final : Final id r.1
  unclaimed : r.1.claims.count id = w.claims.count id
  undelivered : r.2.relays.countP (holds id) ≤ q.relays.countP (holds id)

lemma processStep_keeps {q : Process} {op : ProcessOp} {r : World × Process} (hw : Final id w)
    (hop : ∀ i now, op = .relayStamps i now → ∀ v ∈ q.relays[i]?, ∀ e ∈ failures v, ∀ row ∈ w.table,
      row.id = e.1 → row.status ≠ .published) (h : processStep w q op = some r) : Keeps id w q r := by
  have hless : ∀ i, (q.relays.eraseIdx i).countP (holds id) ≤ q.relays.countP (holds id) :=
    fun i => (List.eraseIdx_sublist q.relays i).countP_le
  cases processStep_moves h with
  | commit rows now runningLoop hfresh => exact ⟨hw.insert hfresh now, rfl, le_refl _⟩
  | publishes i held ht => exact ⟨⟨hw.known, hw.published⟩, rfl, le_refl _⟩
  | accepted i held ht => exact ⟨⟨hw.known, hw.published⟩, rfl, le_refl _⟩
  | dropsTask op i => exact ⟨hw, rfl, le_refl _⟩
  | drainMarker => exact ⟨hw, rfl, le_refl _⟩
  | dropMarker => exact ⟨hw, rfl, le_refl _⟩
  | writeMarks i now ids hids => exact ⟨hw.update (fun _ => rfl) (fun _ _ _ _ => rfl), rfl, le_refl _⟩
  | failMarks i => exact ⟨hw, rfl, le_refl _⟩
  | relays =>
    refine ⟨hw, rfl, ?_⟩
    rw [List.countP_append, List.countP_singleton]
    simp [holds]
  | idle => exact ⟨hw, rfl, le_refl _⟩
  | reclaims i now hr => exact ⟨hw.reclaimStuck now, rfl, countP_set_le hr (by simp [holds])⟩
  | claims i now locked hr =>
    obtain ⟨hfinal, hcount⟩ := hw.claimBatch now locked
    refine ⟨hfinal, hcount, countP_set_le hr ?_⟩
    intro hholds
    obtain ⟨held, hheld, hid⟩ := List.any_eq_true.mp hholds
    obtain ⟨row, hrow, rfl⟩ := List.mem_map.mp hheld
    exact absurd (List.mem_map.mpr ⟨row, hrow, of_decide_eq_true hid⟩) (hw.not_due now locked)
  | sends i held todo published failed hr =>
    exact ⟨⟨hw.known, hw.published⟩, rfl, countP_set_le hr (fun hh => hh)⟩
  | returned i held todo published failed hr =>
    exact ⟨⟨hw.known, hw.published⟩, rfl, countP_set_le hr holds_of_rest⟩
  | fails op i held todo sending published failed failed' hr => exact ⟨hw, rfl, countP_set_le hr holds_of_rest⟩
  | stamps i now published failed hr => exact ⟨hw.stamps now (hop i now rfl _ hr), rfl, hless i⟩
  | ends op i => exact ⟨hw, rfl, hless i⟩

def KeptSince (id : UUID) (s t : State) : Prop := Final id t.world ∧ StaysPublished id s t

lemma step_keeps {s t : State} {op : Op} (hw : Final id s.world) (hop : FailsUnpublished s op)
    (h : step s op = some t) :
    KeptSince id s t := by
  cases op with
  | startProcess =>
    obtain rfl := Option.some.inj h
    refine ⟨hw, ⟨hw.published, rfl, ?_⟩⟩
    simp [holders]
  | crash p =>
    obtain rfl := Option.some.inj h
    refine ⟨hw, ⟨hw.published, rfl, ?_⟩⟩
    exact ((List.eraseIdx_sublist s.processes p).map _).sum_le_sum (fun _ _ => Nat.zero_le _)
  | within p op =>
    simp only [step] at h
    split at h
    · exact absurd h (by simp)
    · rename_i q hp
      obtain ⟨r, hr, rfl⟩ := Option.map_eq_some_iff.mp h
      have hkeeps : Keeps id s.world q r := by
        refine processStep_keeps hw ?_ hr
        rintro i now rfl v hv e he
        apply hop e
        rw [stamped, Option.mem_def.mp hp, Option.bind_some, Option.mem_def.mp hv]
        exact he
      refine ⟨hkeeps.final, ⟨hkeeps.final.published, hkeeps.unclaimed, ?_⟩⟩
      have hsum := sum_set_add hp r.2 (fun q : Process => q.relays.countP (holds id))
      have hless := hkeeps.undelivered
      simp only [holders]
      omega
  | reclaimStuck now =>
    obtain rfl := Option.some.inj h
    have hkept := hw.reclaimStuck now
    exact ⟨hkept, ⟨hkept.published, rfl, le_refl _⟩⟩
  | cleanupPublished now olderThanDays =>
    obtain rfl := Option.some.inj h
    have hkept := hw.cleanupPublished now olderThanDays
    exact ⟨hkept, ⟨hkept.published, rfl, le_refl _⟩⟩

theorem published_is_final (before after : List Op) (s t : State) (hs : Runs.run step start before = some s)
    (ht : Runs.run step s after = some t) (hfails : Runs.Along step FailsUnpublished s after) (row : OutboxEvent)
    (hrow : row ∈ s.world.table) (hpublished : row.status = .published) : StaysPublished row.id s t := by
  have hw := (reachable_ok hs).1
  have hfinal : Final row.id s.world := by
    refine ⟨mem_ids_of_committed (hw.known row hrow), ?_⟩
    intro row' hrow' hid
    rw [row_unique hw.keys hrow' hrow hid]
    exact hpublished
  have hkept : KeptSince row.id s t := by
    refine Runs.run_along ?_ ⟨hfinal, ⟨hfinal.published, rfl, le_refl _⟩⟩ hfails ht
    rintro u op v ⟨hu, hstays⟩ hop hv
    obtain ⟨hfin, hnext⟩ := step_keeps hu hop hv
    exact ⟨hfin, ⟨hnext.final, hnext.unclaimed.trans hstays.unclaimed, hnext.undelivered.trans hstays.undelivered⟩⟩
  exact hkept.2

def toMarked : List Op :=
  [.startProcess, .within 0 (.commit [⟨1, "load.created", Dict.empty⟩] 0 true), .within 0 (.publishOne 0 true),
    .within 0 (.relayOnce true), .within 0 (.relayReclaims 0 (40 * second)),
    .within 0 (.relayClaims 0 (40 * second) []), .within 0 (.relaySends 0 true), .within 0 (.publishReturns 0 true),
    .within 0 .drainMarker, .within 0 (.writeMarks 0 (41 * second))]

def marked : State :=
  ⟨⟨[⟨1, "load.created", Dict.empty, .published, 2, some (41 * second), none, 0, 41 * second⟩],
    [publishEvent 1 "load.created" Dict.empty 0], [1],
    [Held.delivery ⟨1, "load.created", Dict.empty⟩, Held.delivery ⟨1, "load.created", Dict.empty⟩], [1]⟩,
    [{ relays := [.delivering [⟨1, "load.created", Dict.empty⟩] true [] []] }]⟩

theorem delivered_row_is_final : ∃ t, Runs.run step marked
    [.within 0 (.relayReturns 0 none), .within 0 (.relayStamps 0 (42 * second)), .within 0 (.relayOnce true),
      .within 0 (.relayReclaims 0 (80 * second)), .within 0 (.relayClaims 0 (80 * second) [])] = some t ∧
    StaysPublished 1 marked t :=
  ⟨_, rfl, published_is_final toMarked
    [.within 0 (.relayReturns 0 none), .within 0 (.relayStamps 0 (42 * second)), .within 0 (.relayOnce true),
      .within 0 (.relayReclaims 0 (80 * second)), .within 0 (.relayClaims 0 (80 * second) [])] marked _ rfl rfl
    (by decide) _ List.mem_cons_self rfl⟩

theorem failed_delivery_unpublishes : Runs.run step start toMarked = some marked ∧
    (∃ row ∈ marked.world.table, row.id = 1 ∧ row.status = .published) ∧
    ∃ t, Runs.run step marked
      [.within 0 (.relayReturns 0 (some "timeout")), .within 0 (.relayStamps 0 (42 * second)),
        .within 0 (.relayOnce true), .within 0 (.relayReclaims 0 (80 * second)),
        .within 0 (.relayClaims 0 (80 * second) []), .within 0 (.relaySends 0 true)] = some t ∧
      t.world.sent.length = 3 ∧ ¬ StaysPublished 1 marked t := by
  refine ⟨rfl, ⟨_, List.mem_cons_self, rfl, rfl⟩, _, rfl, rfl, ?_⟩
  intro h
  exact absurd h.unclaimed (by decide)

end TheCargo.Events.OutboxFinal
