import TheCargo.Audit.Payload
import TheCargo.Foundation.Gathering

/-! The labels of referenced rows, which are looked up in one session for the payloads of many commits. -/

namespace TheCargo.Audit

open Foundation

inductive Side
  | old
  | new
  deriving DecidableEq

def nonempty (s : Option String) : Option String := s.filter (fun s => s ≠ "")

/-- A row that a lookup returns, with `str` of its id. `auditLabel` is there where the class is auditable. -/
structure Row where
  id : String
  auditLabel : Option (Except String (Option String))
  firstName : Option String
  lastName : Option String
  displayName : Option String
  name : Option String
  title : Option String
  code : Option String
  email : Option String

def ownLabel (row : Row) : Option String :=
  match row.auditLabel with
  | some (.ok label) => nonempty label
  | _ => none

def resolveRowLabel (row : Row) : Option String :=
  let combined := " ".intercalate ([row.firstName, row.lastName].filterMap nonempty)
  (ownLabel row).or ((nonempty (some combined)).or
    ([row.displayName, row.name, row.title, row.code, row.email].findSome? nonempty))

def shortLabel (row : Row) : Option String := (nonempty (resolveRowLabel row)).map (cut 200)

/-- How the label query of a class ends; where it cannot be built, no statement is sent. -/
inductive Query
  | works
  | unbuilt
  | fails
  deriving DecidableEq

structure Database where
  rows : String → List Row
  query : String → Query

structure Lookups where
  aborted : Bool
  labels : Dict (String × String) String

def addLabel (cls : String) (labels : Dict (String × String) String) (row : Row) : Dict (String × String) String :=
  match shortLabel row with
  | some lbl => labels.set (cls, row.id) lbl
  | none => labels

def lookUp (db : Database) (s : Lookups) (e : String × List String) : Lookups :=
  if e.2 = [] then s
  else
    match db.query e.1 with
    | .unbuilt => s
    -- It is logged, and the next class is tried in the same transaction.
    | .fails => { s with aborted := true }
    | .works =>
      if s.aborted then s
      else { s with labels := ((db.rows e.1).filter (fun row => row.id ∈ e.2)).foldl (addLabel e.1) s.labels }

def PendingRef.id (ref : PendingRef) : Side → Option String
  | .old => nonempty ref.oldId
  | .new => nonempty ref.newId

/-- In place of a set: only what is in it matters. -/
def PendingRef.ids (ref : PendingRef) : List String := [Side.old, Side.new].filterMap ref.id

def refsOf (staged : List Payload) : List PendingRef := staged.flatMap Payload.pendingRefs

def byClass (staged : List Payload) : Dict String (List String) :=
  Dict.gathered PendingRef.targetClass PendingRef.ids (refsOf staged)

def labelsOf (db : Database) (staged : List Payload) : Dict (String × String) String :=
  ((byClass staged).items.foldl (lookUp db) ⟨false, Dict.empty⟩).labels

structure LabelWrite where
  side : Side
  relName : String
  label : String
  deriving DecidableEq

def Payload.data (p : Payload) : Side → Option (List (String × Out))
  | .old => p.oldData
  | .new => p.newData

/-- `find` is `labels.get`. -/
def labelWrite (find : String × String → Option String) (p : Payload) (ref : PendingRef) (side : Side) :
    Option LabelWrite := do
  let id ← ref.id side
  let _ ← p.data side
  let lbl ← nonempty (find (ref.targetClass, id))
  return ⟨side, ref.relName, lbl⟩

def labelWrites (find : String × String → Option String) (p : Payload) (ref : PendingRef) : List LabelWrite :=
  [Side.old, Side.new].filterMap (labelWrite find p ref)

def Payload.write (p : Payload) (w : LabelWrite) : Payload :=
  match w.side with
  | .old => { p with oldData := p.oldData.map (put w.relName (.of (.str w.label))) }
  | .new => { p with newData := p.newData.map (put w.relName (.of (.str w.label))) }

def labelsGiven (db : Database) (staged : List Payload) (p : Payload) : List LabelWrite :=
  p.pendingRefs.flatMap (labelWrites (labelsOf db staged).get? p)

def resolveRefs (db : Database) (staged : List Payload) : List Payload :=
  if (byClass staged).items = [] then staged
  else staged.map (fun p => (labelsGiven db staged p).foldl Payload.write p)

def labelOf (db : Database) (key : String × String) : Option String :=
  (((db.rows key.1).filter (fun row => row.id = key.2)).filterMap shortLabel).getLast?

variable {db : Database} {staged : List Payload} {p : Payload} {ref : PendingRef} {s : Lookups}
  {e : String × List String} {es l r : List (String × List String)} {cls c id : String} {ids : List String}

lemma get?_addLabel_other (h : cls ≠ c) (d : Dict (String × String) String) (row : Row) :
    (addLabel cls d row).get? (c, id) = d.get? (c, id) := by
  rw [addLabel]
  split
  · rw [Dict.get?_set, if_neg (fun heq => h (congrArg Prod.fst heq))]
  · rfl

lemma get?_addLabels_other (h : cls ≠ c) (rows : List Row) (d : Dict (String × String) String) :
    (rows.foldl (addLabel cls) d).get? (c, id) = d.get? (c, id) := by
  induction rows generalizing d with
  | nil => rfl
  | cons row rows ih => rw [List.foldl_cons, ih, get?_addLabel_other h]

lemma get?_addLabels (rows : List Row) (d : Dict (String × String) String) :
    (rows.foldl (addLabel c) d).get? (c, id) =
      ((rows.filter (fun row => row.id = id)).filterMap shortLabel).getLast?.or (d.get? (c, id)) := by
  induction rows generalizing d with
  | nil => rfl
  | cons row rows ih =>
    rw [List.foldl_cons, ih, addLabel]
    by_cases hid : row.id = id
    · rw [List.filter_cons_of_pos (by simpa using hid)]
      cases hlabel : shortLabel row with
      | none => rw [List.filterMap_cons_none hlabel]
      | some lbl =>
        rw [List.filterMap_cons_some hlabel, List.getLast?_cons, Dict.get?_set, if_pos (by rw [hid])]
        cases (List.filterMap shortLabel (rows.filter (fun row => row.id = id))).getLast? with
        | none => rfl
        | some last => rfl
    · rw [List.filter_cons_of_neg (by simpa using hid)]
      split
      · rw [Dict.get?_set, if_neg (fun heq => hid (congrArg Prod.snd heq))]
      · rfl

lemma get?_lookUp_other (h : e.1 ≠ c) : (lookUp db s e).labels.get? (c, id) = s.labels.get? (c, id) := by
  rw [lookUp]
  split
  · rfl
  · split
    · rfl
    · rfl
    · split
      · rfl
      · exact get?_addLabels_other h _ _

lemma get?_lookUps_other (h : c ∉ es.map Prod.fst) :
    (es.foldl (lookUp db) s).labels.get? (c, id) = s.labels.get? (c, id) := by
  induction es generalizing s with
  | nil => rfl
  | cons e es ih =>
    rw [List.map_cons, List.mem_cons, not_or] at h
    rw [List.foldl_cons, ih h.2, get?_lookUp_other (Ne.symm h.1)]

lemma lookUp_aborted : (lookUp db s e).aborted = (s.aborted || (e.2 ≠ [] && db.query e.1 = .fails)) := by
  rw [lookUp]
  split
  · rename_i h
    simp [h]
  · rename_i h
    cases hquery : db.query e.1 with
    | works => cases haborted : s.aborted <;> simp [haborted]
    | unbuilt => simp
    | fails => simp [h]

lemma lookUps_aborted : (es.foldl (lookUp db) s).aborted = true ↔
    s.aborted = true ∨ ∃ e ∈ es, e.2 ≠ [] ∧ db.query e.1 = .fails := by
  induction es generalizing s with
  | nil => simp
  | cons e es ih =>
    rw [List.foldl_cons, ih, lookUp_aborted, List.exists_mem_cons_iff]
    simp [or_assoc]

lemma get?_answer (hids : id ∈ ids) (hworks : db.query c = .works) (haborted : s.aborted = false) :
    (lookUp db s (c, ids)).labels.get? (c, id) = (labelOf db (c, id)).or (s.labels.get? (c, id)) := by
  have hfilter : ((db.rows c).filter (fun row => row.id ∈ ids)).filter (fun row => row.id = id) =
      (db.rows c).filter (fun row => row.id = id) := by
    rw [List.filter_filter]
    refine List.filter_congr fun row _ => ?_
    by_cases h : row.id = id
    · simp [h, hids]
    · simp [h]
  rw [lookUp, if_neg (List.ne_nil_of_mem hids), hworks]
  simp only [haborted, Bool.false_eq_true, if_false]
  rw [get?_addLabels, hfilter, labelOf]

lemma get?_silent (h : db.query c ≠ .works ∨ s.aborted = true) : (lookUp db s (c, ids)).labels = s.labels := by
  rw [lookUp]
  split
  · rfl
  · cases hquery : db.query c with
    | works =>
      rcases h with h | h
      · exact absurd hquery h
      · simp [h]
    | unbuilt => rfl
    | fails => rfl

variable (db) in
lemma get?_lookUps (hnodup : (es.map Prod.fst).Nodup) (hes : es = l ++ (c, ids) :: r) (hids : id ∈ ids) :
    (es.foldl (lookUp db) ⟨false, Dict.empty⟩).labels.get? (c, id) =
      if db.query c = .works ∧ ∀ e ∈ l, e.2 ≠ [] → db.query e.1 ≠ .fails then labelOf db (c, id) else none := by
  subst hes
  rw [List.map_append, List.map_cons] at hnodup
  have hbefore : c ∉ l.map Prod.fst := fun h => (List.nodup_append.mp hnodup).2.2 c h c List.mem_cons_self rfl
  have hafter : c ∉ r.map Prod.fst := (List.nodup_cons.mp (List.nodup_append.mp hnodup).2.1).1
  have hempty : (l.foldl (lookUp db) ⟨false, Dict.empty⟩).labels.get? (c, id) = none := get?_lookUps_other hbefore
  rw [List.foldl_append, List.foldl_cons, get?_lookUps_other hafter]
  split
  · rename_i h
    have haborted : (l.foldl (lookUp db) ⟨false, Dict.empty⟩).aborted = false := by
      refine Bool.eq_false_iff.mpr fun habort => ?_
      rcases lookUps_aborted.mp habort with hfalse | ⟨e, he, hne, hfails⟩
      · exact absurd hfalse Bool.false_ne_true
      · exact h.2 e he hne hfails
    rw [get?_answer hids h.1 haborted, hempty, Option.or_none]
  · rename_i h
    rw [get?_silent, hempty]
    by_cases hworks : db.query c = .works
    · refine .inr (lookUps_aborted.mpr (.inr ?_))
      by_contra hnone
      exact h ⟨hworks, fun e he hne hfails => hnone ⟨e, he, hne, hfails⟩⟩
    · exact .inl hworks

def Reached (db : Database) (staged : List Payload) (cls : String) : Prop :=
  ∀ ref ∈ (refsOf staged).takeWhile (fun ref => ref.targetClass ≠ cls),
    (∃ other ∈ refsOf staged, other.targetClass = ref.targetClass ∧ other.ids ≠ []) →
      db.query ref.targetClass ≠ .fails

instance (db : Database) (staged : List Payload) (cls : String) : Decidable (Reached db staged cls) :=
  inferInstanceAs (Decidable (∀ ref ∈ (refsOf staged).takeWhile (fun ref => ref.targetClass ≠ cls),
    (∃ other ∈ refsOf staged, other.targetClass = ref.targetClass ∧ other.ids ≠ []) →
      db.query ref.targetClass ≠ .fails))

lemma byClass_ids (he : e ∈ (byClass staged).items) :
    e.2 ≠ [] ↔ ∃ other ∈ refsOf staged, other.targetClass = e.1 ∧ other.ids ≠ [] := by
  rw [Dict.mem_gathered he, ne_eq, List.flatMap_eq_nil_iff]
  simp

lemma reached_iff (hitems : (byClass staged).items = l ++ (c, ids) :: r)
    (hkeys : ∀ j, j ∈ l.map Prod.fst ↔ j ∈ ((refsOf staged).takeWhile (fun ref => ref.targetClass ≠ c)).map
      PendingRef.targetClass) :
    (∀ e ∈ l, e.2 ≠ [] → db.query e.1 ≠ .fails) ↔ Reached db staged c := by
  have hmem : ∀ e ∈ l, e ∈ (byClass staged).items := fun e he => hitems ▸ List.mem_append_left _ he
  constructor
  · intro h ref href hasked
    obtain ⟨e, he, heq⟩ := List.mem_map.mp ((hkeys _).mpr (List.mem_map.mpr ⟨ref, href, rfl⟩))
    rw [← heq] at hasked ⊢
    exact h e he ((byClass_ids (hmem e he)).mpr hasked)
  · intro h e he hne
    obtain ⟨ref, href, heq⟩ := List.mem_map.mp ((hkeys _).mp (List.mem_map.mpr ⟨e, he, rfl⟩))
    rw [← heq]
    refine h ref href ?_
    rw [heq]
    exact (byClass_ids (hmem e he)).mp hne

lemma get?_labelsOf (href : ref ∈ refsOf staged) (hid : id ∈ ref.ids) :
    (labelsOf db staged).get? (ref.targetClass, id) =
      if db.query ref.targetClass = .works ∧ Reached db staged ref.targetClass then
        labelOf db (ref.targetClass, id) else none := by
  have hclass : ref.targetClass ∈ (refsOf staged).map PendingRef.targetClass := List.mem_map.mpr ⟨ref, href, rfl⟩
  obtain ⟨l, r, hitems, hkeys⟩ := Dict.gathered_split PendingRef.ids hclass
  have hmem : id ∈ ((refsOf staged).filter (fun other => other.targetClass = ref.targetClass)).flatMap
      PendingRef.ids := List.mem_flatMap.mpr ⟨ref, List.mem_filter.mpr ⟨href, decide_eq_true rfl⟩, hid⟩
  have hlook := get?_lookUps db (byClass staged).nodup hitems hmem
  simp only [reached_iff hitems hkeys] at hlook
  exact hlook

lemma id_mem_ids {side : Side} (h : ref.id side = some id) : id ∈ ref.ids := by
  refine List.mem_filterMap.mpr ⟨side, ?_, h⟩
  cases side with
  | old => exact List.mem_cons_self
  | new => exact List.mem_cons_of_mem _ List.mem_cons_self

lemma labelWrites_congr {find find' : String × String → Option String}
    (h : ∀ id ∈ ref.ids, find (ref.targetClass, id) = find' (ref.targetClass, id)) :
    labelWrites find p ref = labelWrites find' p ref := by
  refine List.filterMap_congr fun side _ => ?_
  rw [labelWrite, labelWrite]
  cases hid : ref.id side with
  | none => rfl
  | some id =>
    simp only [Option.bind_eq_bind, Option.bind_some]
    rw [h id (id_mem_ids hid)]

lemma labelWrites_none : labelWrites (fun _ => none) p ref = [] := by
  refine List.filterMap_eq_nil_iff.mpr fun side _ => ?_
  rw [labelWrite]
  cases ref.id side with
  | none => rfl
  | some id =>
    cases p.data side with
    | none => rfl
    | some data => rfl

lemma labelsGiven_eq (hp : p ∈ staged) : labelsGiven db staged p = p.pendingRefs.flatMap (fun ref =>
    if db.query ref.targetClass = .works ∧ Reached db staged ref.targetClass then
      labelWrites (labelOf db) p ref else []) := by
  refine List.flatMap_congr fun ref href => ?_
  have hin : ref ∈ refsOf staged := List.mem_flatMap.mpr ⟨p, hp, href⟩
  split
  · rename_i h
    exact labelWrites_congr fun id hid => by rw [get?_labelsOf hin hid, if_pos h]
  · rename_i h
    rw [← labelWrites_none]
    exact labelWrites_congr fun id hid => by rw [get?_labelsOf hin hid, if_neg h]

end TheCargo.Audit
