import Mathlib.Data.List.Basic
import Mathlib.Tactic.Common

/-! Regular expressions with word boundaries, over any alphabet. Only single letters repeat, which is what keeps the
matcher a structural recursion. A match depends on the letters on either side of it, and so is stated with both. -/

namespace TheCargo.Foundation

variable {α : Type*}

inductive Regex (α : Type*)
  | empty
  | one (p : α → Bool)
  | many (p : α → Bool)
  | boundary
  | seq (r t : Regex α)
  | alt (r t : Regex α)

namespace Regex

def fail : Regex α := .one (fun _ => false)

def alts (rs : List (Regex α)) : Regex α := rs.foldr .alt fail

def seqs (rs : List (Regex α)) : Regex α := rs.foldr .seq .empty

def some1 (p : α → Bool) : Regex α := .seq (.one p) (.many p)

def opt (r : Regex α) : Regex α := .alt r .empty

variable (isWord : α → Bool)

def AtBoundary (before after : Option α) : Prop := before.any isWord ≠ after.any isWord

instance (before after : Option α) : Decidable (AtBoundary isWord before after) :=
  inferInstanceAs (Decidable (_ ≠ _))

abbrev Language (α : Type*) := Option α → List α → Option α → Prop

namespace Language

def empty : Language α := fun _ w _ => w = []

def seq (L M : Language α) : Language α := fun before w after =>
  ∃ u v, w = u ++ v ∧ L before u (v.head?.or after) ∧ M (u.getLast?.or before) v after

def alt (L M : Language α) : Language α := fun before w after => L before w after ∨ M before w after

def fail : Language α := fun _ _ _ => False

variable (L M N : Language α)

@[simp] lemma empty_seq : empty.seq L = L := by
  funext before w after
  apply propext
  constructor
  · rintro ⟨u, v, rfl, rfl, hv⟩
    exact hv
  · intro h
    exact ⟨[], w, rfl, rfl, h⟩

@[simp] lemma seq_empty : L.seq empty = L := by
  funext before w after
  apply propext
  constructor
  · rintro ⟨u, v, rfl, hu, rfl⟩
    rw [List.append_nil]
    exact hu
  · intro h
    exact ⟨w, [], (List.append_nil w).symm, h, rfl⟩

lemma seq_assoc : (L.seq M).seq N = L.seq (M.seq N) := by
  funext before w after
  apply propext
  constructor
  · rintro ⟨_, x, rfl, ⟨u, v, rfl, hu, hv⟩, hx⟩
    refine ⟨u, v ++ x, List.append_assoc u v x, ?_, v, x, rfl, hv, ?_⟩
    · rwa [List.head?_append, Option.or_assoc]
    · rwa [List.getLast?_append, Option.or_assoc] at hx
  · rintro ⟨u, _, rfl, hu, v, x, rfl, hv, hx⟩
    refine ⟨u ++ v, x, (List.append_assoc u v x).symm, ⟨u, v, rfl, ?_, hv⟩, ?_⟩
    · rwa [List.head?_append, Option.or_assoc] at hu
    · rwa [List.getLast?_append, Option.or_assoc]

lemma alt_seq : (L.alt M).seq N = (L.seq N).alt (M.seq N) := by
  funext before w after
  apply propext
  constructor
  · rintro ⟨u, v, rfl, hu | hu, hv⟩
    · exact Or.inl ⟨u, v, rfl, hu, hv⟩
    · exact Or.inr ⟨u, v, rfl, hu, hv⟩
  · rintro (⟨u, v, rfl, hu, hv⟩ | ⟨u, v, rfl, hu, hv⟩)
    · exact ⟨u, v, rfl, Or.inl hu, hv⟩
    · exact ⟨u, v, rfl, Or.inr hu, hv⟩

lemma seq_alt : L.seq (M.alt N) = (L.seq M).alt (L.seq N) := by
  funext before w after
  apply propext
  constructor
  · rintro ⟨u, v, rfl, hu, hv | hv⟩
    · exact Or.inl ⟨u, v, rfl, hu, hv⟩
    · exact Or.inr ⟨u, v, rfl, hu, hv⟩
  · rintro (⟨u, v, rfl, hu, hv⟩ | ⟨u, v, rfl, hu, hv⟩)
    · exact ⟨u, v, rfl, hu, Or.inl hv⟩
    · exact ⟨u, v, rfl, hu, Or.inr hv⟩

@[simp] lemma alt_fail : L.alt fail = L := by
  funext before w after
  exact propext (or_iff_left id)

end Language

def Matches : Regex α → Language α
  | .empty => Language.empty
  | .one p => fun _ w _ => ∃ c, w = [c] ∧ p c = true
  | .many p => fun _ w _ => ∀ c ∈ w, p c = true
  | .boundary => fun before w after => w = [] ∧ AtBoundary isWord before after
  | .seq r t => (Matches r).seq (Matches t)
  | .alt r t => (Matches r).alt (Matches t)

def skips (p : α → Bool) : Option α → List α → List (Option α × List α)
  | before, [] => [(before, [])]
  | before, c :: cs => (before, c :: cs) :: if p c then skips p (some c) cs else []

def ends : Regex α → Option α → List α → List (Option α × List α)
  | .empty, before, s => [(before, s)]
  | .one _, _, [] => []
  | .one p, _, c :: cs => if p c then [(some c, cs)] else []
  | .many p, before, s => skips p before s
  | .boundary, before, s => if AtBoundary isWord before s.head? then [(before, s)] else []
  | .seq r t, before, s => (ends r before s).flatMap (fun e => ends t e.1 e.2)
  | .alt r t, before, s => ends r before s ++ ends t before s

def «match» (r : Regex α) (s : List α) : Bool := !(ends isWord r none s).isEmpty

def searchFrom (r : Regex α) : Option α → List α → Bool
  | before, [] => !(ends isWord r before []).isEmpty
  | before, c :: cs => !(ends isWord r before (c :: cs)).isEmpty || searchFrom r (some c) cs

def search (r : Regex α) (s : List α) : Bool := searchFrom isWord r none s

variable {isWord}

@[simp] lemma matches_fail : Matches isWord (fail : Regex α) = Language.fail := by
  funext before w after
  apply propext
  constructor
  · rintro ⟨c, _, hc⟩
    exact absurd hc (by simp)
  · exact False.elim

lemma matches_alts {rs : List (Regex α)} {before after : Option α} {w : List α} :
    Matches isWord (alts rs) before w after ↔ ∃ r ∈ rs, Matches isWord r before w after := by
  induction rs with
  | nil => simp [alts, Language.fail]
  | cons r rs ih =>
    rw [List.exists_mem_cons_iff, ← ih]
    rfl

lemma mem_skips {p : α → Bool} {before : Option α} {s : List α} {e : Option α × List α} :
    e ∈ skips p before s ↔ ∃ w, s = w ++ e.2 ∧ e.1 = w.getLast?.or before ∧ ∀ c ∈ w, p c = true := by
  induction s generalizing before with
  | nil =>
    simp only [skips, List.mem_singleton]
    constructor
    · rintro rfl
      exact ⟨[], rfl, rfl, by simp⟩
    · rintro ⟨w, hs, hb, _⟩
      obtain ⟨rfl, hn⟩ := List.append_eq_nil_iff.mp hs.symm
      exact Prod.ext hb hn
  | cons c cs ih =>
    simp only [skips, List.mem_cons]
    constructor
    · rintro (rfl | he)
      · exact ⟨[], rfl, rfl, by simp⟩
      · split at he
        · rename_i hp
          obtain ⟨w, hs, hb, hw⟩ := ih.mp he
          refine ⟨c :: w, by rw [hs, List.cons_append], ?_, ?_⟩
          · rw [hb, List.getLast?_cons]
            cases w.getLast? <;> rfl
          · rintro d (_ | ⟨_, hd⟩)
            · exact hp
            · exact hw d hd
        · exact absurd he List.not_mem_nil
    · rintro ⟨w, hs, hb, hw⟩
      cases w with
      | nil => exact Or.inl (Prod.ext hb hs.symm)
      | cons d w =>
        obtain ⟨rfl, hcs⟩ := List.cons.inj hs
        have hc : p c = true := hw c List.mem_cons_self
        rw [if_pos hc]
        refine Or.inr (ih.mpr ⟨w, hcs, ?_, fun d hd => hw d (List.mem_cons_of_mem c hd)⟩)
        rw [hb, List.getLast?_cons]
        cases w.getLast? <;> rfl

lemma mem_ends_one {p : α → Bool} {before : Option α} {s : List α} {e : Option α × List α} :
    e ∈ ends isWord (.one p) before s ↔
      ∃ w, s = w ++ e.2 ∧ e.1 = w.getLast?.or before ∧ Matches isWord (.one p) before w e.2.head? := by
  cases s with
  | nil =>
    simp only [ends, Matches, List.not_mem_nil, false_iff]
    rintro ⟨w, hs, _, c, rfl, _⟩
    exact absurd hs (by simp)
  | cons c cs =>
    simp only [ends, Matches]
    constructor
    · intro he
      split at he
      · rename_i hp
        rw [List.mem_singleton.mp he]
        exact ⟨[c], rfl, rfl, c, rfl, hp⟩
      · exact absurd he List.not_mem_nil
    · rintro ⟨w, hs, hb, d, rfl, hd⟩
      obtain ⟨rfl, hcs⟩ := List.cons.inj hs
      rw [if_pos hd, List.mem_singleton]
      exact Prod.ext hb hcs.symm

lemma mem_ends_boundary {before : Option α} {s : List α} {e : Option α × List α} :
    e ∈ ends isWord .boundary before s ↔
      ∃ w, s = w ++ e.2 ∧ e.1 = w.getLast?.or before ∧ Matches isWord .boundary before w e.2.head? := by
  simp only [ends, Matches]
  constructor
  · intro he
    split at he
    · rename_i hb
      rw [List.mem_singleton.mp he]
      exact ⟨[], rfl, rfl, rfl, hb⟩
    · exact absurd he List.not_mem_nil
  · rintro ⟨w, hs, hb, rfl, ha⟩
    have hs' : s = e.2 := hs
    rw [hs', if_pos ha, List.mem_singleton]
    exact Prod.ext hb rfl

lemma mem_ends {r : Regex α} {before : Option α} {s : List α} {e : Option α × List α} :
    e ∈ ends isWord r before s ↔
      ∃ w, s = w ++ e.2 ∧ e.1 = w.getLast?.or before ∧ Matches isWord r before w e.2.head? := by
  induction r generalizing before s e with
  | empty =>
    simp only [ends, List.mem_singleton, Matches, Language.empty]
    constructor
    · rintro rfl
      exact ⟨[], rfl, rfl, rfl⟩
    · rintro ⟨w, hs, hb, rfl⟩
      exact Prod.ext hb hs.symm
  | one p => exact mem_ends_one
  | many p => exact mem_skips
  | boundary => exact mem_ends_boundary
  | seq r t ihr iht =>
    simp only [ends, List.mem_flatMap, ihr, iht, Matches, Language.seq]
    constructor
    · rintro ⟨m, ⟨u, hs, hm, hu⟩, v, hv, he, ht⟩
      refine ⟨u ++ v, ?_, ?_, u, v, rfl, ?_, hm ▸ ht⟩
      · rw [hs, hv, List.append_assoc]
      · rw [he, hm, List.getLast?_append, Option.or_assoc]
      · rwa [hv, List.head?_append] at hu
    · rintro ⟨w, hs, he, u, v, rfl, hu, ht⟩
      refine ⟨(u.getLast?.or before, v ++ e.2), ⟨u, ?_, rfl, ?_⟩, v, rfl, ?_, ht⟩
      · rw [hs, List.append_assoc]
      · rwa [List.head?_append]
      · rw [he, List.getLast?_append, Option.or_assoc]
  | alt r t ihr iht =>
    simp only [ends, List.mem_append, ihr, iht, Matches, Language.alt]
    constructor
    · rintro (⟨w, hs, hb, hw⟩ | ⟨w, hs, hb, hw⟩)
      · exact ⟨w, hs, hb, Or.inl hw⟩
      · exact ⟨w, hs, hb, Or.inr hw⟩
    · rintro ⟨w, hs, hb, hw | hw⟩
      · exact Or.inl ⟨w, hs, hb, hw⟩
      · exact Or.inr ⟨w, hs, hb, hw⟩

lemma ends_nonempty {r : Regex α} {before : Option α} {s : List α} :
    (!(ends isWord r before s).isEmpty) = true ↔
      ∃ w post, s = w ++ post ∧ Matches isWord r before w post.head? := by
  rw [Bool.not_eq_true', List.isEmpty_eq_false_iff_exists_mem]
  constructor
  · rintro ⟨e, he⟩
    obtain ⟨w, hs, _, hw⟩ := mem_ends.mp he
    exact ⟨w, e.2, hs, hw⟩
  · rintro ⟨w, post, hs, hw⟩
    exact ⟨(w.getLast?.or before, post), mem_ends.mpr ⟨w, hs, rfl, hw⟩⟩

lemma match_iff {r : Regex α} {s : List α} :
    r.match isWord s = true ↔ ∃ w post, s = w ++ post ∧ Matches isWord r none w post.head? :=
  ends_nonempty

lemma searchFrom_iff {r : Regex α} {before : Option α} {s : List α} :
    searchFrom isWord r before s = true ↔
      ∃ pre w post, s = pre ++ w ++ post ∧ Matches isWord r (pre.getLast?.or before) w post.head? := by
  induction s generalizing before with
  | nil =>
    rw [searchFrom, ends_nonempty]
    constructor
    · rintro ⟨w, post, hs, hw⟩
      exact ⟨[], w, post, hs, hw⟩
    · rintro ⟨pre, w, post, hs, hw⟩
      obtain ⟨hpw, rfl⟩ := List.append_eq_nil_iff.mp hs.symm
      obtain ⟨rfl, rfl⟩ := List.append_eq_nil_iff.mp hpw
      exact ⟨[], [], rfl, hw⟩
  | cons c cs ih =>
    rw [searchFrom, Bool.or_eq_true, ends_nonempty, ih]
    constructor
    · rintro (⟨w, post, hs, hw⟩ | ⟨pre, w, post, hs, hw⟩)
      · exact ⟨[], w, post, hs, hw⟩
      · refine ⟨c :: pre, w, post, by rw [hs]; rfl, ?_⟩
        rw [List.getLast?_cons]
        cases hp : pre.getLast? <;> rw [hp] at hw <;> exact hw
    · rintro ⟨pre, w, post, hs, hw⟩
      cases pre with
      | nil => exact Or.inl ⟨w, post, hs, hw⟩
      | cons d pre =>
        obtain ⟨rfl, hcs⟩ := List.cons.inj hs
        refine Or.inr ⟨pre, w, post, hcs, ?_⟩
        rw [List.getLast?_cons] at hw
        cases hp : pre.getLast? <;> rw [hp] at hw <;> exact hw

lemma search_iff {r : Regex α} {s : List α} :
    r.search isWord s = true ↔
      ∃ pre w post, s = pre ++ w ++ post ∧ Matches isWord r pre.getLast? w post.head? := by
  rw [search, searchFrom_iff]
  simp only [Option.or_none]

end Regex

end TheCargo.Foundation
