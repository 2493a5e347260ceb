import Mathlib.Data.List.Flatten
import Mathlib.Logic.Function.Iterate
import Mathlib.Tactic.Common

/-! Unit-of-work sessions over nested transactions. A session holds objects it has not flushed, one list of flushed
entries for every open transaction level, and what outermost commits have made durable. Listeners keep a memory of
their own and hear of every flush and of every level that ends: the end of a savepoint is announced as a commit or a
rollback just like the end of the outermost transaction. -/

namespace TheCargo.Foundation.Savepoints

variable {χ φ σ : Type*}

-- The innermost level comes first; the last one is the outermost transaction.
structure Session (χ φ : Type*) where
  unflushed : List χ
  frames : List (List φ)
  durable : List φ

inductive Event (χ : Type*)
  | beforeFlush (objects : List χ)
  | afterCommit
  | afterRollback
  | afterTransactionEnd (outermost : Bool)

abbrev Listener (χ φ σ : Type*) := Event χ → Session χ φ → σ → σ

def writeTop (xs : List φ) : List (List φ) → List (List φ)
  | [] => [xs]
  | top :: rest => (top ++ xs) :: rest

namespace Session

def start : Session χ φ := ⟨[], [], []⟩

def opened (s : Session χ φ) : Session χ φ :=
  match s.frames with
  | [] => { s with frames := [[]] }
  | _ :: _ => s

def add (s : Session χ φ) (c : χ) : Session χ φ :=
  { s.opened with unflushed := s.unflushed ++ [c] }

def flush (emit : List χ → List φ) (s : Session χ φ) : Session χ φ :=
  if s.unflushed.isEmpty then s
  else { s with unflushed := [], frames := writeTop (emit s.unflushed) s.frames }

def nest (s : Session χ φ) : Session χ φ := { s with frames := [] :: s.frames }

def merge (s : Session χ φ) : Session χ φ :=
  match s.frames with
  | inner :: outer :: rest => { s with frames := (outer ++ inner) :: rest }
  | _ => s

-- A rollback also expunges the objects that were added since the level began.
def undo (s : Session χ φ) : Session χ φ :=
  match s.frames with
  | _ :: rest => { s with unflushed := [], frames := rest }
  | [] => s

def finish (s : Session χ φ) : Session χ φ :=
  match s.frames with
  | [root] => { s with frames := [], durable := s.durable ++ root }
  | _ => s

def nested (s : Session χ φ) : Bool := 2 ≤ s.frames.length

end Session

variable (emit : List χ → List φ) (listen : Listener χ φ σ)

def flush (p : Session χ φ × σ) : Session χ φ × σ :=
  if p.1.unflushed.isEmpty then p
  else
    let s := p.1.flush emit
    (s, listen (.afterTransactionEnd false) s (listen (.beforeFlush p.1.unflushed) p.1 p.2))

def beginNested (p : Session χ φ × σ) : Session χ φ × σ :=
  let q := flush emit listen (p.1.opened, p.2)
  (q.1.nest, q.2)

def release (p : Session χ φ × σ) : Session χ φ × σ :=
  if p.1.nested then
    let q := flush emit listen p
    let s := q.1.merge
    (s, listen (.afterTransactionEnd false) s (listen .afterCommit s q.2))
  else p

def rollbackTo (p : Session χ φ × σ) : Session χ φ × σ :=
  if p.1.nested then
    let s := p.1.undo
    (s, listen (.afterTransactionEnd false) s (listen .afterRollback s p.2))
  else p

/-- An outermost commit releases every open savepoint first. -/
def commit (p : Session χ φ × σ) : Session χ φ × σ :=
  let q := flush emit listen ((release emit listen)^[p.1.frames.length - 1] (p.1.opened, p.2))
  let s := q.1.finish
  (s, listen (.afterTransactionEnd true) s (listen .afterCommit s q.2))

def rollback (p : Session χ φ × σ) : Session χ φ × σ :=
  if p.1.frames.isEmpty then p
  else
    let q := (rollbackTo listen)^[p.1.frames.length - 1] p
    let s := q.1.undo
    (s, listen (.afterTransactionEnd true) s (listen .afterRollback s q.2))

/-- Closing a session ends its levels without announcing a rollback. -/
def closeLevel (outermost : Bool) (p : Session χ φ × σ) : Session χ φ × σ :=
  let s := p.1.undo
  (s, listen (.afterTransactionEnd outermost) s p.2)

def close (p : Session χ φ × σ) : Session χ φ × σ :=
  if p.1.frames.isEmpty then ({ p.1 with unflushed := [] }, p.2)
  else closeLevel listen true ((closeLevel listen false)^[p.1.frames.length - 1] p)

lemma flatten_writeTop (xs : List φ) (fs : List (List φ)) (x : φ) :
    x ∈ (writeTop xs fs).flatten ↔ x ∈ xs ∨ x ∈ fs.flatten := by
  cases fs with
  | nil => simp [writeTop]
  | cons top rest =>
    simp only [writeTop, List.flatten_cons, List.mem_append]
    tauto

lemma length_writeTop (xs : List φ) (fs : List (List φ)) :
    (writeTop xs fs).length = max 1 fs.length := by
  cases fs <;> simp [writeTop]

lemma Session.opened_ne_nil (s : Session χ φ) : s.opened.frames ≠ [] := by
  cases s with
  | mk unflushed frames durable => cases frames <;> exact List.cons_ne_nil _ _

lemma Session.flush_ne_nil {emit : List χ → List φ} (s : Session χ φ) (h : ¬ s.unflushed.isEmpty = true) :
    (s.flush emit).frames ≠ [] := by
  rw [Session.flush, if_neg h]
  cases hf : s.frames <;> simp [writeTop]

section Events

variable {emit listen}

lemma flush_session (p : Session χ φ × σ) : (flush emit listen p).1 = p.1.flush emit := by
  rw [flush, Session.flush]
  split <;> rfl

lemma release_of_nested {p : Session χ φ × σ} (h : p.1.nested = true) :
    release emit listen p =
      (((flush emit listen p).1).merge,
        listen (.afterTransactionEnd false) (flush emit listen p).1.merge
          (listen .afterCommit (flush emit listen p).1.merge (flush emit listen p).2)) := by
  simp [release, h]

lemma opened_of_nested {s : Session χ φ} (h : s.nested = true) : s.opened = s := by
  cases s with
  | mk unflushed frames durable =>
    cases frames with
    | nil => simp [Session.nested] at h
    | cons top rest => rfl

lemma length_release {p : Session χ φ × σ} (h : 1 ≤ p.1.frames.length) :
    (release emit listen p).1.frames.length = max 1 (p.1.frames.length - 1) := by
  by_cases hn : p.1.nested = true
  · have hl : 2 ≤ p.1.frames.length := by simpa [Session.nested] using hn
    have hf : (p.1.flush emit).frames.length = p.1.frames.length := by
      rw [Session.flush]
      split_ifs with he
      · rfl
      · simp only [length_writeTop]
        omega
    rw [release_of_nested hn, flush_session]
    rw [Session.merge]
    split
    · rename_i inner outer rest hfr
      rw [hfr] at hf
      simp only [List.length_cons] at hf ⊢
      omega
    · rename_i hfr
      match hm : (p.1.flush emit).frames with
      | [] | [_] => simp only [hm, List.length_cons, List.length_nil] at hf; omega
      | inner :: outer :: rest => exact absurd hm (hfr inner outer rest)
  · have hl : ¬ 2 ≤ p.1.frames.length := by simpa [Session.nested] using hn
    simp only [release, hn]
    simp only [Bool.false_eq_true, if_false]
    omega

lemma length_rollbackTo {p : Session χ φ × σ} (h : 1 ≤ p.1.frames.length) :
    (rollbackTo listen p).1.frames.length = max 1 (p.1.frames.length - 1) := by
  rw [rollbackTo]
  split_ifs with hn
  · have hl : 2 ≤ p.1.frames.length := by simpa [Session.nested] using hn
    match hm : p.1.frames with
    | [] | [_] => simp only [hm, List.length_cons, List.length_nil] at hl; omega
    | inner :: outer :: rest => simp [Session.undo, hm]
  · have hl : ¬ 2 ≤ p.1.frames.length := by simpa [Session.nested] using hn
    omega

lemma length_iterate {f : Session χ φ × σ → Session χ φ × σ}
    (hf : ∀ p : Session χ φ × σ, 1 ≤ p.1.frames.length →
      (f p).1.frames.length = max 1 (p.1.frames.length - 1))
    (n : ℕ) {p : Session χ φ × σ} (h : p.1.frames.length = n + 1) :
    (f^[n] p).1.frames.length = 1 := by
  induction n generalizing p with
  | zero => exact h
  | succ n ih =>
    rw [Function.iterate_succ_apply]
    apply ih
    have hh := hf p (by omega)
    omega

def commitRoot (emit : List χ → List φ) (listen : Listener χ φ σ) (p : Session χ φ × σ) :
    Session χ φ × σ :=
  let q := flush emit listen p
  (q.1.finish, listen (.afterTransactionEnd true) q.1.finish (listen .afterCommit q.1.finish q.2))

lemma commit_of_flat {p : Session χ φ × σ} (h : p.1.nested = false) :
    commit emit listen p = commitRoot emit listen (p.1.opened, p.2) := by
  have hl : p.1.frames.length - 1 = 0 := by
    simp only [Session.nested, decide_eq_false_iff_not] at h
    omega
  simp only [commit, commitRoot, hl, Function.iterate_zero, id]

lemma commit_of_nested {p : Session χ φ × σ} (h : p.1.nested = true) :
    commit emit listen p = commitRoot emit listen
      ((release emit listen)^[p.1.frames.length - 2] (release emit listen p)) := by
  have hn : p.1.frames.length - 1 = (p.1.frames.length - 2) + 1 := by
    simp only [Session.nested, decide_eq_true_eq] at h
    omega
  simp only [commit, commitRoot, opened_of_nested h]
  rw [hn, Function.iterate_succ_apply]

end Events

section Keeping

variable {emit listen} {P : σ → Prop} (hl : ∀ e s m, P m → P (listen e s m))

include hl

lemma flush_keeps {p : Session χ φ × σ} (h : P p.2) : P (flush emit listen p).2 := by
  rw [flush]
  split
  · exact h
  · exact hl _ _ _ (hl _ _ _ h)

lemma beginNested_keeps {p : Session χ φ × σ} (h : P p.2) : P (beginNested emit listen p).2 :=
  flush_keeps hl (p := (p.1.opened, p.2)) h

lemma release_keeps {p : Session χ φ × σ} (h : P p.2) : P (release emit listen p).2 := by
  rw [release]
  split
  · exact hl _ _ _ (hl _ _ _ (flush_keeps hl h))
  · exact h

lemma rollbackTo_keeps {p : Session χ φ × σ} (h : P p.2) : P (rollbackTo listen p).2 := by
  rw [rollbackTo]
  split
  · exact hl _ _ _ (hl _ _ _ h)
  · exact h

omit hl in
lemma iterate_keeps {f : Session χ φ × σ → Session χ φ × σ} (hf : ∀ p, P p.2 → P (f p).2) (n : ℕ)
    {p : Session χ φ × σ} (h : P p.2) : P (f^[n] p).2 :=
  Function.Iterate.rec (fun q : Session χ φ × σ => P q.2) h hf n

lemma commit_keeps {p : Session χ φ × σ} (h : P p.2) : P (commit emit listen p).2 := by
  apply hl
  apply hl
  apply flush_keeps hl
  exact iterate_keeps (fun _ => release_keeps hl) _ h

lemma rollback_keeps {p : Session χ φ × σ} (h : P p.2) : P (rollback listen p).2 := by
  rw [rollback]
  split
  · exact h
  · exact hl _ _ _ (hl _ _ _ (iterate_keeps (fun _ => rollbackTo_keeps hl) _ h))

lemma close_keeps {p : Session χ φ × σ} (h : P p.2) : P (close listen p).2 := by
  rw [close]
  split
  · exact h
  · exact hl _ _ _ (iterate_keeps (fun _ hp => hl _ _ _ hp) _ h)

end Keeping

lemma finish_flush {s : Session χ φ} (he : emit [] = []) (h : s.nested = false) :
    (s.opened.flush emit).finish =
      ⟨[], [], s.durable ++ (s.frames.flatten ++ emit s.unflushed)⟩ := by
  cases s with
  | mk unflushed frames durable =>
    simp only [Session.nested, decide_eq_false_iff_not] at h
    match frames with
    | [] =>
      cases unflushed with
      | nil => simp [Session.opened, Session.flush, Session.finish, he]
      | cons c cs => simp [Session.opened, Session.flush, Session.finish, writeTop]
    | [root] =>
      cases unflushed with
      | nil => simp [Session.opened, Session.flush, Session.finish, he]
      | cons c cs => simp [Session.opened, Session.flush, Session.finish, writeTop]
    | _ :: _ :: rest => simp at h

namespace Session

def live (s : Session φ φ) : List φ := s.unflushed ++ s.frames.flatten

lemma mem_live_add (s : Session φ φ) (c x : φ) : x ∈ (s.add c).live ↔ x ∈ s.live ∨ x = c := by
  cases s with
  | mk unflushed frames durable =>
    cases frames <;> simp only [live, add, opened, List.mem_append, List.mem_singleton,
      List.flatten_cons, List.flatten_nil, List.not_mem_nil] <;> tauto

lemma mem_live_flush (s : Session φ φ) (x : φ) : x ∈ (s.flush id).live ↔ x ∈ s.live := by
  rw [flush]
  split_ifs with h
  · rfl
  · simp only [live, List.nil_append, flatten_writeTop, id, List.mem_append]

lemma live_opened (s : Session φ φ) : s.opened.live = s.live := by
  cases s with
  | mk unflushed frames durable => cases frames <;> rfl

lemma mem_live_merge (s : Session φ φ) (x : φ) : x ∈ s.merge.live ↔ x ∈ s.live := by
  cases s with
  | mk unflushed frames durable =>
    match frames with
    | [] | [_] => rfl
    | inner :: outer :: rest =>
      simp only [live, merge, List.flatten_cons, List.mem_append]
      tauto

lemma live_nest (s : Session φ φ) : s.nest.live = s.live := rfl

lemma mem_live_undo {s : Session φ φ} {x : φ} (h : x ∈ s.undo.live) : x ∈ s.live := by
  cases s with
  | mk unflushed frames durable =>
    cases frames with
    | nil => exact h
    | cons top rest =>
      simp only [live, undo, List.nil_append] at h
      simp only [live, List.flatten_cons, List.mem_append]
      exact Or.inr (Or.inr h)

lemma mem_finish (s : Session φ φ) (x : φ) :
    x ∈ s.finish.live ∨ x ∈ s.finish.durable ↔ x ∈ s.live ∨ x ∈ s.durable := by
  cases s with
  | mk unflushed frames durable =>
    match frames with
    | [] | _ :: _ :: _ => rfl
    | [root] =>
      simp only [live, finish, List.flatten_cons, List.flatten_nil, List.mem_append]
      tauto

end Session

section Levelwise

def Levelwise (B : List φ → Prop) (s : Session φ φ) : Prop :=
  match s.frames with
  | [] => s.unflushed = [] ∧ B s.durable
  | top :: rest => B (top ++ s.unflushed) ∧ (∀ level ∈ rest, B level) ∧ B s.durable

variable {B : List φ → Prop} {s : Session φ φ}

lemma Levelwise.durable (h : Levelwise B s) : B s.durable := by
  rw [Levelwise] at h
  split at h
  · exact h.2
  · exact h.2.2

lemma levelwise_start (hnil : B []) : Levelwise B Session.start := ⟨rfl, hnil⟩

lemma Levelwise.opened (hnil : B []) (h : Levelwise B s) : Levelwise B s.opened := by
  cases s with
  | mk unflushed frames durable =>
    cases frames with
    | nil =>
      obtain ⟨hu, hd⟩ := h
      subst hu
      exact ⟨hnil, fun _ hl => absurd hl List.not_mem_nil, hd⟩
    | cons top rest => exact h

lemma Levelwise.flush (h : Levelwise B s) : Levelwise B (s.flush id) ∧ (s.flush id).unflushed = [] := by
  cases s with
  | mk unflushed frames durable =>
    cases unflushed with
    | nil => exact ⟨h, rfl⟩
    | cons c cs =>
      cases frames with
      | nil => exact absurd h.1 (List.cons_ne_nil c cs)
      | cons top rest =>
        have htop : B (top ++ c :: cs ++ []) := by
          rw [List.append_nil]
          exact h.1
        exact ⟨⟨htop, h.2⟩, rfl⟩

lemma Levelwise.nest (hnil : B []) (h : Levelwise B s) (hu : s.unflushed = []) : Levelwise B s.nest := by
  cases s with
  | mk unflushed frames durable =>
    subst hu
    cases frames with
    | nil => exact ⟨hnil, fun _ hl => absurd hl List.not_mem_nil, h.2⟩
    | cons top rest =>
      obtain ⟨htop, hrest, hd⟩ := h
      rw [List.append_nil] at htop
      exact ⟨hnil, List.forall_mem_cons.mpr ⟨htop, hrest⟩, hd⟩

lemma Levelwise.merge (happend : ∀ xs ys, B xs → B ys → B (xs ++ ys)) (h : Levelwise B s) (hu : s.unflushed = []) :
    Levelwise B s.merge := by
  cases s with
  | mk unflushed frames durable =>
    subst hu
    match frames with
    | [] | [_] => exact h
    | inner :: outer :: rest =>
      obtain ⟨hinner, hrest, hd⟩ := h
      obtain ⟨houter, hrest⟩ := List.forall_mem_cons.mp hrest
      rw [List.append_nil] at hinner
      have hmerged : B (outer ++ inner ++ []) := by
        rw [List.append_nil]
        exact happend outer inner houter hinner
      exact ⟨hmerged, hrest, hd⟩

lemma Levelwise.undo (h : Levelwise B s) : Levelwise B s.undo := by
  cases s with
  | mk unflushed frames durable =>
    match frames with
    | [] => exact h
    | [_] => exact ⟨rfl, h.2.2⟩
    | _ :: outer :: rest =>
      obtain ⟨_, hrest, hd⟩ := h
      obtain ⟨houter, hrest⟩ := List.forall_mem_cons.mp hrest
      have hkept : B (outer ++ []) := by
        rw [List.append_nil]
        exact houter
      exact ⟨hkept, hrest, hd⟩

lemma Levelwise.finish (happend : ∀ xs ys, B xs → B ys → B (xs ++ ys)) (h : Levelwise B s) (hu : s.unflushed = []) :
    Levelwise B s.finish := by
  cases s with
  | mk unflushed frames durable =>
    subst hu
    match frames with
    | [] | _ :: _ :: _ => exact h
    | [root] =>
      obtain ⟨hroot, _, hd⟩ := h
      rw [List.append_nil] at hroot
      exact ⟨rfl, happend durable root hd hroot⟩

lemma Levelwise.add (hnil : B []) {c : φ} (h : Levelwise B s)
    (hc : ∀ top, B (top ++ s.unflushed) → B (top ++ (s.unflushed ++ [c]))) : Levelwise B (s.add c) := by
  have ho := h.opened hnil
  cases s with
  | mk unflushed frames durable =>
    cases frames with
    | nil => exact ⟨hc [] ho.1, ho.2⟩
    | cons top rest => exact ⟨hc top ho.1, ho.2⟩

variable {listen : Listener φ φ σ} {p : Session φ φ × σ}

lemma levelwise_beginNested (hnil : B []) (h : Levelwise B p.1) :
    Levelwise B (beginNested id listen p).1 := by
  have hf := (h.opened hnil).flush
  rw [← @flush_session _ _ _ id listen (p.1.opened, p.2)] at hf
  exact hf.1.nest hnil hf.2

lemma levelwise_release (happend : ∀ xs ys, B xs → B ys → B (xs ++ ys)) (h : Levelwise B p.1) :
    Levelwise B (release id listen p).1 := by
  by_cases hn : p.1.nested = true
  · rw [release_of_nested hn, flush_session]
    exact h.flush.1.merge happend h.flush.2
  · rw [release, if_neg hn]
    exact h

lemma levelwise_rollbackTo (h : Levelwise B p.1) : Levelwise B (rollbackTo listen p).1 := by
  rw [rollbackTo]
  split
  · exact h.undo
  · exact h

lemma levelwise_commit (hnil : B []) (happend : ∀ xs ys, B xs → B ys → B (xs ++ ys)) (h : Levelwise B p.1) :
    Levelwise B (commit id listen p).1 := by
  have hreleased : Levelwise B ((release id listen)^[p.1.frames.length - 1] (p.1.opened, p.2)).1 :=
    Function.Iterate.rec (fun q : Session φ φ × σ => Levelwise B q.1) (h.opened hnil)
      (fun q hq => levelwise_release happend hq) _
  have hf := hreleased.flush
  rw [← @flush_session _ _ _ id listen] at hf
  exact hf.1.finish happend hf.2

lemma levelwise_rollback (h : Levelwise B p.1) : Levelwise B (rollback listen p).1 := by
  rw [rollback]
  split
  · exact h
  · have hrolled : Levelwise B ((rollbackTo listen)^[p.1.frames.length - 1] p).1 :=
      Function.Iterate.rec (fun q : Session φ φ × σ => Levelwise B q.1) h (fun q hq => levelwise_rollbackTo hq) _
    exact hrolled.undo

end Levelwise

@[simp] lemma flush_durable (s : Session χ φ) : (s.flush emit).durable = s.durable := by
  rw [Session.flush]
  split <;> rfl

@[simp] lemma opened_durable (s : Session χ φ) : s.opened.durable = s.durable := by
  rw [Session.opened]
  split <;> rfl

@[simp] lemma merge_durable (s : Session χ φ) : s.merge.durable = s.durable := by
  rw [Session.merge]
  split <;> rfl

@[simp] lemma undo_durable (s : Session χ φ) : s.undo.durable = s.durable := by
  rw [Session.undo]
  split <;> rfl

end TheCargo.Foundation.Savepoints
