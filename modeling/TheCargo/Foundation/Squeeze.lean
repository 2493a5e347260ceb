import Mathlib.Tactic.Common

namespace TheCargo.Foundation

variable {α : Type} (p : α → Bool) (n : ℕ) (r : List α)

def squeezeRun (run : List α) : List α := if n ≤ run.length then r else run

/-- Replaces every run of at least `n` letters `p` by `r`, past a run already read. -/
def squeeze : List α → List α → List α
  | run, [] => squeezeRun n r run
  | run, c :: s => if p c then squeeze (run ++ [c]) s else squeezeRun n r run ++ c :: squeeze [] s

def Short : ℕ → List α → Prop
  | _, [] => True
  | k, c :: s => if p c then k + 1 < n ∧ Short (k + 1) s else Short 0 s

variable {p n r} {q : α → Bool} {m : ℕ} {s u run : List α} {j k : ℕ}

lemma Short.mono (h : Short p n k s) (hjk : j ≤ k) : Short p n j s := by
  induction s generalizing j k with
  | nil => trivial
  | cons c s ih =>
    rw [Short] at h ⊢
    split
    · rename_i hc
      rw [if_pos hc] at h
      exact ⟨by omega, ih h.2 (by omega)⟩
    · rename_i hc
      rwa [if_neg hc] at h

lemma Short.of_append_left (h : Short p n k (s ++ u)) : Short p n k s := by
  induction s generalizing k with
  | nil => trivial
  | cons c s ih =>
    rw [List.cons_append, Short] at h
    rw [Short]
    split
    · rename_i hc
      rw [if_pos hc] at h
      exact ⟨h.1, ih h.2⟩
    · rename_i hc
      rw [if_neg hc] at h
      exact ih h

lemma Short.of_append_right (h : Short p n k (s ++ u)) : Short p n 0 u := by
  induction s generalizing k with
  | nil => exact h.mono (Nat.zero_le k)
  | cons c s ih =>
    rw [List.cons_append, Short] at h
    split at h
    · exact ih h.2
    · exact ih h

lemma short_append (hu : ∀ c ∈ u, p c = true) (hlen : k + u.length < n) :
    Short p n k (u ++ s) ↔ Short p n (k + u.length) s := by
  induction u generalizing k with
  | nil => exact Iff.rfl
  | cons c u ih =>
    obtain ⟨hc, hu⟩ := List.forall_mem_cons.mp hu
    rw [List.length_cons] at hlen
    rw [List.cons_append, Short, if_pos hc, ih hu (by omega), List.length_cons, Nat.add_assoc, Nat.add_comm 1]
    exact and_iff_right (by omega)

lemma short_break (hu : ∀ c ∈ u, p c = false) (hne : u ≠ []) : Short p n k (u ++ s) ↔ Short p n 0 s := by
  induction u generalizing k with
  | nil => exact absurd rfl hne
  | cons c u ih =>
    obtain ⟨hc, hu⟩ := List.forall_mem_cons.mp hu
    rw [List.cons_append, Short, if_neg (by simp [hc])]
    cases u with
    | nil => exact Iff.rfl
    | cons d u => exact ih hu (List.cons_ne_nil d u)

lemma short_around {c : α} (hc : p c = false) : Short p n k (s ++ c :: u) ↔ Short p n k s ∧ Short p n 0 u := by
  induction s generalizing k with
  | nil =>
    simp only [List.nil_append, Short, hc, Bool.false_eq_true, if_false, true_and]
  | cons d s ih =>
    rw [List.cons_append, Short, Short]
    split
    · rw [ih, and_assoc]
    · exact ih

lemma squeezeRun_length (hr : r.length < n) : (squeezeRun n r run).length < n := by
  rw [squeezeRun]
  split <;> omega

lemma squeezeRun_all (hr : ∀ c ∈ r, p c = true) (hrun : ∀ c ∈ run, p c = true) :
    ∀ c ∈ squeezeRun n r run, p c = true := by
  rw [squeezeRun]
  split
  · exact hr
  · exact hrun

lemma squeezeRun_ne_nil (hr : r ≠ []) (hrun : run ≠ []) : squeezeRun n r run ≠ [] := by
  rw [squeezeRun]
  split
  · exact hr
  · exact hrun

lemma squeezeRun_nil (hn : 0 < n) : squeezeRun n r [] = [] := if_neg (Nat.not_le.mpr hn)

lemma squeeze_of_short (hlen : run.length < n) (h : Short p n run.length s) : squeeze p n r run s = run ++ s := by
  induction s generalizing run with
  | nil => rw [squeeze, squeezeRun, if_neg (Nat.not_le.mpr hlen), List.append_nil]
  | cons c s ih =>
    rw [Short] at h
    rw [squeeze]
    split
    · rename_i hc
      rw [if_pos hc] at h
      have hlen' : (run ++ [c]).length < n := by
        rw [List.length_append]
        exact h.1
      rw [ih hlen' (by rw [List.length_append]; exact h.2), List.append_assoc]
      rfl
    · rename_i hc
      rw [if_neg hc] at h
      have hpos : ([] : List α).length < n := Nat.lt_of_le_of_lt (Nat.zero_le _) hlen
      rw [squeezeRun, if_neg (Nat.not_le.mpr hlen), ih hpos h, List.nil_append]

lemma short_squeeze (hr : ∀ c ∈ r, p c = true) (hlen : r.length < n) (hrun : ∀ c ∈ run, p c = true) (s : List α) :
    Short p n 0 (squeeze p n r run s) := by
  induction s generalizing run with
  | nil =>
    have hshort := (short_append (k := 0) (s := []) (squeezeRun_all (n := n) hr hrun)
      (by rw [Nat.zero_add]; exact squeezeRun_length hlen)).mpr trivial
    rwa [List.append_nil] at hshort
  | cons c s ih =>
    rw [squeeze]
    split
    · rename_i hc
      exact ih (List.forall_mem_append.mpr ⟨hrun, List.forall_mem_singleton.mpr hc⟩)
    · rename_i hc
      rw [short_append (squeezeRun_all hr hrun) (by rw [Nat.zero_add]; exact squeezeRun_length hlen), Short, if_neg hc]
      exact ih (List.forall_mem_nil _)

lemma Short.squeeze (hr : ∀ c ∈ r, p c = false) (hne : r ≠ []) (hq : ∀ c, q c = true → p c = false)
    (hrun : ∀ c ∈ run, q c = true) (h : Short p n k (run ++ s)) : Short p n k (squeeze q m r run s) := by
  have hflush : ∀ v, (∀ c ∈ v, q c = true) → ∀ c ∈ squeezeRun m r v, p c = false := by
    intro v hv
    rw [squeezeRun]
    split
    · exact hr
    · exact fun c hc => hq c (hv c hc)
  induction s generalizing run k with
  | nil =>
    rw [Foundation.squeeze]
    by_cases hnil : squeezeRun m r run = []
    · rw [hnil]
      trivial
    · have hbreak := (short_break (k := k) (s := []) (n := n) (hflush run hrun) hnil).mpr trivial
      rwa [List.append_nil] at hbreak
  | cons c s ih =>
    rw [Foundation.squeeze]
    split
    · rename_i hc
      refine ih (List.forall_mem_append.mpr ⟨hrun, List.forall_mem_singleton.mpr hc⟩) ?_
      rwa [List.append_assoc]
    · have hrest : ∀ k, Short p n k (c :: s) → Short p n k (c :: Foundation.squeeze q m r [] s) := by
        intro k hk
        rw [Short] at hk ⊢
        split
        · rename_i hc
          rw [if_pos hc] at hk
          exact ⟨hk.1, ih (List.forall_mem_nil _) hk.2⟩
        · rename_i hc
          rw [if_neg hc] at hk
          exact ih (List.forall_mem_nil _) hk
      by_cases hnil : run = []
      · subst hnil
        have hflushed : squeezeRun m r [] = [] ∨ squeezeRun m r [] ≠ [] := Classical.em _
        rcases hflushed with hempty | hfull
        · rw [hempty]
          exact hrest k h
        · rw [short_break (hflush [] (List.forall_mem_nil _)) hfull]
          exact hrest 0 (h.mono (Nat.zero_le k))
      · rw [short_break (hflush run hrun) (squeezeRun_ne_nil hne hnil)]
        exact hrest 0 ((short_break (fun d hd => hq d (hrun d hd)) hnil).mp h)

lemma mem_squeeze {c : α} (h : c ∈ squeeze p n r run s) : c ∈ run ++ s ∨ c ∈ r := by
  induction s generalizing run with
  | nil =>
    rw [squeeze, squeezeRun] at h
    rw [List.append_nil]
    split at h
    · exact .inr h
    · exact .inl h
  | cons d s ih =>
    rw [squeeze] at h
    split at h
    · have hstep := ih h
      rwa [List.append_assoc] at hstep
    · rw [List.mem_append, List.mem_cons, squeezeRun] at h
      rw [List.mem_append, List.mem_cons]
      rcases h with h | h | h
      · split at h
        · exact .inr h
        · exact .inl (.inl h)
      · exact .inl (.inr (.inl h))
      · exact (ih h).imp (fun hs => .inr (.inr hs)) id

lemma squeeze_clears (hr : ∀ c ∈ r, p c = false) (run s : List α) : ∀ c ∈ squeeze p 1 r run s, p c = false := by
  have hrun (run : List α) : ∀ c ∈ squeezeRun 1 r run, p c = false := by
    intro c hc
    rw [squeezeRun] at hc
    split at hc
    · exact hr c hc
    · next hshort =>
      have hnil : run = [] := List.length_eq_zero_iff.mp (by omega)
      rw [hnil] at hc
      cases hc
  induction s generalizing run with
  | nil => exact hrun run
  | cons d s ih =>
    rw [squeeze]
    split
    · exact ih (run ++ [d])
    · next hd =>
      intro c hc
      rcases List.mem_append.mp hc with hc | hc
      · exact hrun run c hc
      · rcases List.mem_cons.mp hc with rfl | hc
        · exact eq_false_of_ne_true hd
        · exact ih [] c hc

end TheCargo.Foundation
