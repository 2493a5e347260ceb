import TheCargo.Audit.Labels

namespace TheCargo.Audit

open Foundation

variable {db : Database} {staged : List Payload} {p : Payload} {cls : String}

def own (db : Database) (p : Payload) : Payload :=
  { p with pendingRefs := p.pendingRefs.filter (fun ref => db.query ref.targetClass = .works) }

lemma reached_own : Reached db [own db p] cls := by
  intro ref href _ hfails
  have hin : ref ∈ refsOf [own db p] := (List.takeWhile_sublist _).subset href
  rw [refsOf, List.flatMap_singleton] at hin
  have hworks := of_decide_eq_true (List.mem_filter.mp hin).2
  rw [hworks] at hfails
  cases hfails

lemma labelsGiven_own (db : Database) (p : Payload) :
    labelsGiven db [own db p] (own db p) = p.pendingRefs.flatMap (fun ref =>
      if db.query ref.targetClass = .works then labelWrites (labelOf db) p ref else []) := by
  rw [labelsGiven_eq List.mem_cons_self]
  have hdata : ∀ ref, labelWrites (labelOf db) (own db p) ref = labelWrites (labelOf db) p ref := by
    intro ref
    refine List.filterMap_congr fun side _ => ?_
    cases side with
    | old => rfl
    | new => rfl
  simp only [hdata, reached_own, and_true]
  rw [own, flatMap_filter]
  refine List.flatMap_congr fun ref _ => ?_
  split
  · rfl
  · rfl

lemma writes_refs (ws : List LabelWrite) (p : Payload) (refs : List PendingRef) :
    ws.foldl Payload.write { p with pendingRefs := refs } = { ws.foldl Payload.write p with pendingRefs := refs } := by
  induction ws generalizing p with
  | nil => rfl
  | cons w ws ih =>
    rw [List.foldl_cons, List.foldl_cons, ← ih]
    obtain ⟨side, relName, label⟩ := w
    cases side with
    | old => rfl
    | new => rfl

lemma writes_frame (ws : List LabelWrite) (p : Payload) : ws.foldl Payload.write p =
    { p with oldData := (ws.foldl Payload.write p).oldData, newData := (ws.foldl Payload.write p).newData } := by
  induction ws generalizing p with
  | nil => rfl
  | cons w ws ih =>
    rw [List.foldl_cons, ih]
    obtain ⟨side, relName, label⟩ := w
    cases side with
    | old => rfl
    | new => rfl

lemma resolveRefs_eq (db : Database) (staged : List Payload) :
    resolveRefs db staged = staged.map (fun p => (labelsGiven db staged p).foldl Payload.write p) := by
  rw [resolveRefs]
  split
  · rename_i hempty
    have hrefs : refsOf staged = [] := by
      refine List.eq_nil_iff_forall_not_mem.mpr fun ref href => ?_
      have hkey : ref.targetClass ∈ (byClass staged).items.map Prod.fst :=
        Dict.mem_keys.mpr (List.mem_map.mpr ⟨ref, href, rfl⟩)
      rw [hempty] at hkey
      exact List.not_mem_nil hkey
    have hnone : ∀ p ∈ staged, p.pendingRefs = [] := List.flatMap_eq_nil_iff.mp hrefs
    refine ((List.map_congr_left fun p hp => ?_).trans (List.map_id staged)).symm
    rw [labelsGiven, hnone p hp]
    rfl
  · rfl

structure Independent (db : Database) (staged : List Payload) : Prop where
  labels : ∀ p ∈ staged, labelsGiven db staged p = labelsGiven db [own db p] (own db p)
  results : List.Forall₂ (fun p after => ∃ alone, resolveRefs db [own db p] = [alone] ∧
    after = { p with oldData := alone.oldData, newData := alone.newData }) staged (resolveRefs db staged)

def Spared (db : Database) (staged : List Payload) : Prop :=
  ∀ p ∈ staged, ∀ ref ∈ p.pendingRefs, db.query ref.targetClass = .works → labelWrites (labelOf db) p ref ≠ [] →
    Reached db staged ref.targetClass

lemma labels_eq_iff (hp : p ∈ staged) : labelsGiven db staged p = labelsGiven db [own db p] (own db p) ↔
    ∀ ref ∈ p.pendingRefs, db.query ref.targetClass = .works → labelWrites (labelOf db) p ref ≠ [] →
      Reached db staged ref.targetClass := by
  rw [labelsGiven_eq hp, labelsGiven_own, guarded_eq_iff (fun _ h => h.1)]
  exact forall₂_congr fun ref _ => forall₂_congr fun hworks _ => and_iff_right hworks

lemma results_of_labels (h : ∀ p ∈ staged, labelsGiven db staged p = labelsGiven db [own db p] (own db p)) :
    List.Forall₂ (fun p after => ∃ alone, resolveRefs db [own db p] = [alone] ∧
      after = { p with oldData := alone.oldData, newData := alone.newData }) staged (resolveRefs db staged) := by
  rw [resolveRefs_eq, List.forall₂_map_right_iff, List.forall₂_same]
  intro p hp
  have halone : resolveRefs db [own db p] =
      [(labelsGiven db [own db p] (own db p)).foldl Payload.write (own db p)] := resolveRefs_eq db [own db p]
  refine ⟨_, halone, ?_⟩
  have hold := congrArg Payload.oldData (writes_refs (labelsGiven db staged p) p (own db p).pendingRefs)
  have hnew := congrArg Payload.newData (writes_refs (labelsGiven db staged p) p (own db p).pendingRefs)
  rw [← h p hp]
  exact (writes_frame _ p).trans (by rw [← hold, ← hnew]; rfl)

theorem resolveRefs_independent_iff (db : Database) (staged : List Payload) :
    Independent db staged ↔ Spared db staged := by
  constructor
  · intro h p hp
    exact (labels_eq_iff hp).mp (h.labels p hp)
  · intro h
    have hlabels : ∀ p ∈ staged, labelsGiven db staged p = labelsGiven db [own db p] (own db p) :=
      fun p hp => (labels_eq_iff hp).mpr (h p hp)
    exact ⟨hlabels, results_of_labels hlabels⟩

def rowNamed (id name : String) : Row := ⟨id, none, none, none, none, some name, none, none, none⟩

def payloadOf (refs : List PendingRef) : Payload where
  auditId := "a"
  service := "orders"
  organizationId := none
  companyId := none
  user := ⟨none, none, none, none, "system"⟩
  resource := "order"
  resourceId := none
  resourceLabel := none
  rootResource := "order"
  rootId := none
  action := "create"
  changedFields := none
  significantFields := []
  lifecycleState := .of .none
  lifecycleTransition := none
  oldData := none
  newData := some []
  requestId := none
  ipAddress := none
  userAgent := none
  createdAt := "2026-01-01T00:00:00+00:00"
  pendingRefs := refs

def carriersFail : Database where
  rows cls := if cls = "Customer" then [rowNamed "c1" "Acme"] else []
  query cls := if cls = "Carrier" then .fails else .works

def ofCarrier : Payload := payloadOf [⟨"carrier_id", "carrier", "Carrier", none, some "r1"⟩]

def ofCustomer : Payload := payloadOf [⟨"customer_id", "customer", "Customer", none, some "c1"⟩]

theorem a_failing_class_takes_labels : ¬ ∀ db staged, Independent db staged := by
  intro h
  have hlabels := (h carriersFail [ofCarrier, ofCustomer]).labels ofCustomer (List.mem_cons_of_mem _ List.mem_cons_self)
  exact absurd hlabels (by decide)

end TheCargo.Audit
