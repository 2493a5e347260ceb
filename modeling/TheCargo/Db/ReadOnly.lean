import Mathlib.Logic.Function.Basic
import TheCargo.Foundation.Runs

/-! Sessions on an autocommit connection, and the two listeners that refuse their writes. -/

namespace TheCargo.Db.ReadOnly

open Foundation.Runs

variable {ι ν : Type*} [DecidableEq ι] [DecidableEq ν]

abbrev Database (ι ν : Type*) := ι → Option ν

abbrev Effect (ι ν : Type*) := Database ι ν → Database ι ν

/-- What a `select()` is made of: what it reads, its data-modifying CTEs, the functions it calls. -/
inductive Part (ι ν : Type*)
  | reads
  | dml (effect : Effect ι ν)
  | call (effect : Effect ι ν)

inductive Statement (ι ν : Type*)
  | insert (effect : Effect ι ν)
  | update (effect : Effect ι ν)
  | delete (effect : Effect ι ν)
  | select (parts : List (Part ι ν))
  | text (effect : Effect ι ν)
  | executable (effect : Effect ι ν)

def Part.effect : Part ι ν → Effect ι ν
  | .reads => id
  | .dml effect => effect
  | .call effect => effect

namespace Statement

variable (statement : Statement ι ν)

def isInsert : Bool := statement matches .insert _

def isUpdate : Bool := statement matches .update _

def isDelete : Bool := statement matches .delete _

def effect : Effect ι ν :=
  match statement with
  | .insert effect => effect
  | .update effect => effect
  | .delete effect => effect
  | .select parts => fun database => parts.foldl (fun database part => part.effect database) database
  | .text effect => effect
  | .executable effect => effect

end Statement

/-- An object of a stored row; `committed` is what was loaded and `value` what has been set on it since. -/
structure Persistent (ι ν : Type*) where
  key : ι
  committed : ν
  value : Option ν
  deleted : Bool

def Persistent.isModified (o : Persistent ι ν) : Bool := o.value.any (fun value => value ≠ o.committed)

structure Session (ι ν : Type*) where
  database : Database ι ν
  new : List (ι × ν)
  loaded : List (Persistent ι ν)

namespace Session

variable (s : Session ι ν)

def deleted : List (Persistent ι ν) := s.loaded.filter Persistent.deleted

def dirty : List (Persistent ι ν) := s.loaded.filter (fun o => !o.deleted && o.value.isSome)

def flushed : Database ι ν :=
  let database := s.new.foldl (fun (database : Database ι ν) o => Function.update database o.1 (some o.2)) s.database
  let database := (s.dirty.filter Persistent.isModified).foldl
    (fun (database : Database ι ν) o => Function.update database o.key o.value) database
  s.deleted.foldl (fun (database : Database ι ν) o => Function.update database o.key none) database

def settle (o : Persistent ι ν) : Persistent ι ν := { o with committed := o.value.getD o.committed, value := none }

def afterFlush : Session ι ν where
  database := s.flushed
  new := []
  loaded := (s.loaded.filter (fun o => !o.deleted)).map settle ++ s.new.map (fun o => ⟨o.1, o.2, none, false⟩)

end Session

def forbidsFlush (s : Session ι ν) : Bool := !s.new.isEmpty || !s.deleted.isEmpty || s.dirty.any Persistent.isModified

def forbidsExecute (statement : Statement ι ν) : Bool :=
  statement.isInsert || statement.isUpdate || statement.isDelete

inductive Op (ι ν : Type*)
  | add (key : ι) (value : ν)
  | change (j : ℕ) (value : ν)
  | delete (j : ℕ)
  | load (key : ι)
  | flush
  | execute (orm : Bool) (statement : Statement ι ν)

structure World (ι ν : Type*) where
  session : Session ι ν
  raised : Bool

def readOnlySession (database : Database ι ν) : World ι ν := ⟨⟨database, [], []⟩, false⟩

/-- `none` where the listener raises, which leaves the objects of the session as they were. -/
def flush (s : Session ι ν) : Option (Session ι ν) := if forbidsFlush s then none else some s.afterFlush

/-- Statements of the ORM flush first, where the session is made so. -/
def execute (autoflush orm : Bool) (statement : Statement ι ν) (s : Session ι ν) : Option (Session ι ν) :=
  if forbidsExecute statement then none
  else
    (if autoflush && orm then flush s else some s).map
      (fun s => { s with database := statement.effect s.database })

def load (autoflush : Bool) (key : ι) (s : Session ι ν) : Option (Session ι ν) :=
  (execute autoflush true (.select [.reads]) s).map (fun s =>
    match s.database key with
    | some value =>
      if s.loaded.any (fun o => o.key = key) then s else { s with loaded := s.loaded ++ [⟨key, value, none, false⟩] }
    | none => s)

def World.settled (w : World ι ν) : Option (Session ι ν) → World ι ν
  | some s => ⟨s, false⟩
  | none => { w with raised := true }

def step (autoflush : Bool) (w : World ι ν) : Op ι ν → Option (World ι ν)
  | .add key value => some (w.settled (some { w.session with new := w.session.new ++ [(key, value)] }))
  | .change j value =>
    (w.session.loaded[j]?).map (fun o =>
      w.settled (some { w.session with loaded := w.session.loaded.set j { o with value := some value } }))
  | .delete j =>
    (w.session.loaded[j]?).map (fun o =>
      w.settled (some { w.session with loaded := w.session.loaded.set j { o with deleted := true } }))
  | .load key => some (w.settled (load autoflush key w.session))
  | .flush => some (w.settled (flush w.session))
  | .execute orm statement => some (w.settled (execute autoflush orm statement w.session))

def unguarded (autoflush : Bool) (s : Session ι ν) : Op ι ν → Database ι ν
  | .add _ _ => s.database
  | .change _ _ => s.database
  | .delete _ => s.database
  | .load _ => if autoflush then s.flushed else s.database
  | .flush => s.flushed
  | .execute orm statement => statement.effect (if autoflush && orm then s.flushed else s.database)

def NeverWrites (autoflush : Bool) (database : Database ι ν) (w : World ι ν) (op : Op ι ν) : Prop :=
  ∀ t, step autoflush w op = some t →
    t.session.database = database ∧ (unguarded autoflush w.session op ≠ w.session.database → t.raised = true)

def Admitted (autoflush orm : Bool) (statement : Statement ι ν) (s : Session ι ν) : Prop :=
  forbidsExecute statement = false ∧ (autoflush = true → orm = true → forbidsFlush s = false)

def Quiet (autoflush : Bool) (w : World ι ν) : Op ι ν → Prop
  | .execute orm statement => Admitted autoflush orm statement w.session →
      statement.effect w.session.database = w.session.database
  | _ => True

variable {autoflush orm : Bool} {s t : Session ι ν} {statement : Statement ι ν} {w : World ι ν} {op : Op ι ν}
  {database : Database ι ν}

lemma flushed_of_allowed (h : forbidsFlush s = false) : s.flushed = s.database := by
  simp only [forbidsFlush, Bool.or_eq_false_iff, Bool.not_eq_false', List.isEmpty_iff] at h
  obtain ⟨⟨hnew, hdeleted⟩, hdirty⟩ := h
  have hmodified : s.dirty.filter Persistent.isModified = [] := by
    apply List.filter_eq_nil_iff.mpr
    intro o ho hm
    rw [List.any_eq_false] at hdirty
    exact hdirty o ho hm
  rw [Session.flushed, hnew, hmodified, hdeleted]
  rfl

lemma flush_some (h : flush s = some t) : forbidsFlush s = false ∧ t.database = s.database := by
  rw [flush] at h
  split at h
  · cases h
  · rename_i hforbids
    obtain rfl := Option.some.inj h
    have hallowed : forbidsFlush s = false := eq_false_of_ne_true hforbids
    exact ⟨hallowed, flushed_of_allowed hallowed⟩

lemma execute_some (h : execute autoflush orm statement s = some t) :
    Admitted autoflush orm statement s ∧ t.database = statement.effect s.database := by
  rw [execute] at h
  split at h
  · cases h
  · rename_i hforbids
    have hallowed : forbidsExecute statement = false := eq_false_of_ne_true hforbids
    obtain ⟨u, hu, rfl⟩ := Option.map_eq_some_iff.mp h
    split at hu
    · obtain ⟨hflush, hdatabase⟩ := flush_some hu
      exact ⟨⟨hallowed, fun _ _ => hflush⟩, congrArg statement.effect hdatabase⟩
    · rename_i hno
      obtain rfl := Option.some.inj hu
      refine ⟨⟨hallowed, fun hauto horm => ?_⟩, rfl⟩
      simp [hauto, horm] at hno

lemma execute_of_admitted (h : Admitted autoflush orm statement s) :
    ∃ t, execute autoflush orm statement s = some t := by
  obtain ⟨hallowed, hflush⟩ := h
  rw [execute, if_neg (by simp [hallowed])]
  cases hauto : autoflush with
  | false => exact ⟨_, rfl⟩
  | true =>
    cases horm : orm with
    | false => exact ⟨_, rfl⟩
    | true =>
      have hf := hflush hauto horm
      exact ⟨{ s.afterFlush with database := statement.effect s.afterFlush.database }, by simp [flush, hf]⟩

lemma pending_of_admitted (h : Admitted autoflush orm statement s) :
    (if autoflush && orm then s.flushed else s.database) = s.database := by
  split
  · rename_i hboth
    rw [Bool.and_eq_true] at hboth
    exact flushed_of_allowed (h.2 hboth.1 hboth.2)
  · rfl

lemma load_some {key : ι} (h : load autoflush key s = some t) :
    Admitted autoflush true (.select [.reads]) s ∧ t.database = s.database := by
  obtain ⟨u, hu, rfl⟩ := Option.map_eq_some_iff.mp h
  obtain ⟨hadmitted, hdatabase⟩ := execute_some hu
  refine ⟨hadmitted, ?_⟩
  have heffect : u.database = s.database := hdatabase
  split
  · split
    · exact heffect
    · exact heffect
  · exact heffect

omit [DecidableEq ι] [DecidableEq ν] in
lemma settled_keeps {r : Option (Session ι ν)} {after : Database ι ν}
    (h : ∀ u, r = some u → u.database = w.session.database ∧ after = w.session.database) :
    (w.settled r).session.database = w.session.database ∧
      (after ≠ w.session.database → (w.settled r).raised = true) := by
  cases r with
  | none => exact ⟨rfl, fun _ => rfl⟩
  | some u =>
    obtain ⟨hkept, hafter⟩ := h u rfl
    exact ⟨hkept, fun hne => absurd hafter hne⟩

lemma quiet_neverWrites (h : Quiet autoflush w op) : NeverWrites autoflush w.session.database w op := by
  intro t ht
  cases op with
  | add key value =>
    obtain rfl := Option.some.inj ht
    exact settled_keeps (fun u hu => ⟨Option.some.inj hu ▸ rfl, rfl⟩)
  | change j value =>
    obtain ⟨o, _, rfl⟩ := Option.map_eq_some_iff.mp ht
    exact settled_keeps (fun u hu => ⟨Option.some.inj hu ▸ rfl, rfl⟩)
  | delete j =>
    obtain ⟨o, _, rfl⟩ := Option.map_eq_some_iff.mp ht
    exact settled_keeps (fun u hu => ⟨Option.some.inj hu ▸ rfl, rfl⟩)
  | load key =>
    obtain rfl := Option.some.inj ht
    apply settled_keeps
    intro u hu
    obtain ⟨hadmitted, hdatabase⟩ := load_some hu
    have hpending := pending_of_admitted hadmitted
    rw [Bool.and_true] at hpending
    exact ⟨hdatabase, hpending⟩
  | flush =>
    obtain rfl := Option.some.inj ht
    apply settled_keeps
    intro u hu
    obtain ⟨hallowed, hdatabase⟩ := flush_some hu
    exact ⟨hdatabase, flushed_of_allowed hallowed⟩
  | execute orm statement =>
    obtain rfl := Option.some.inj ht
    apply settled_keeps
    intro u hu
    obtain ⟨hadmitted, hdatabase⟩ := execute_some hu
    refine ⟨hdatabase.trans (h hadmitted), ?_⟩
    rw [unguarded, pending_of_admitted hadmitted]
    exact h hadmitted

lemma neverWrites_quiet (h : NeverWrites autoflush w.session.database w op) : Quiet autoflush w op := by
  cases op with
  | execute orm statement =>
    intro hadmitted
    obtain ⟨u, hu⟩ := execute_of_admitted hadmitted
    have hkept := (h _ (congrArg (fun r => some (w.settled r)) hu)).1
    exact (execute_some hu).2.symm.trans hkept
  | _ => trivial

theorem read_only_session_never_writes (autoflush : Bool) (database : Database ι ν) (ops : List (Op ι ν)) :
    Along (step autoflush) (NeverWrites autoflush database) (readOnlySession database) ops ↔
      Along (step autoflush) (Quiet autoflush) (readOnlySession database) ops := by
  have hiff : ∀ (w : World ι ν) (op : Op ι ν), w.session.database = database →
      (NeverWrites autoflush database w op ↔ Quiet autoflush w op) := by
    rintro w op rfl
    exact ⟨neverWrites_quiet, quiet_neverWrites⟩
  have hstep : ∀ (w : World ι ν) (op : Op ι ν) (t : World ι ν), w.session.database = database →
      NeverWrites autoflush database w op → step autoflush w op = some t → t.session.database = database :=
    fun w op t _ hnever ht => (hnever t ht).1
  exact along_congr hiff hstep rfl

def notes : Database ℕ String := fun key => if key = 1 then some "kept" else none

def bulk : Effect ℕ String := fun database => Function.update database 1 (some "bulk")

theorem text_and_cte_land :
    (∃ t, step true (readOnlySession notes) (.execute false (.update bulk)) = some t ∧ t.raised = true ∧
      t.session.database 1 = some "kept") ∧
    (∃ t, step true (readOnlySession notes) (.execute false (.text bulk)) = some t ∧ t.raised = false ∧
      t.session.database 1 = some "bulk") ∧
    (∃ t, step true (readOnlySession notes) (.execute true (.select [.reads, .dml bulk])) = some t ∧
      t.raised = false ∧ t.session.database 1 = some "bulk") ∧
    ¬ Along (step true) (NeverWrites true notes) (readOnlySession notes) [.execute false (.text bulk)] ∧
    ¬ Along (step true) (NeverWrites true notes) (readOnlySession notes)
      [.execute true (.select [.reads, .dml bulk])] := by
  refine ⟨⟨_, rfl, rfl, rfl⟩, ⟨_, rfl, rfl, rfl⟩, ⟨_, rfl, rfl, rfl⟩, ?_, ?_⟩
  · rintro ⟨hnever, _⟩
    have hkept := congrFun (hnever _ rfl).1 1
    exact absurd hkept (by decide)
  · rintro ⟨hnever, _⟩
    have hkept := congrFun (hnever _ rfl).1 1
    exact absurd hkept (by decide)

end TheCargo.Db.ReadOnly
