import Mathlib.Algebra.Order.Ring.Rat
import Mathlib.Data.List.Perm.Basic
import Mathlib.Tactic.Linarith
import TheCargo.Foundation.Dict
import TheCargo.Foundation.Runs

/-! A cache whose entries are good for a while, in front of a source that answers over a network. -/

namespace TheCargo.Foundation.TtlCache

variable {κ ρ υ : Type*} [DecidableEq κ]

-- A load waits for the source, and then for its answer to arrive.
structure Load (κ ρ : Type*) where
  key : κ
  answer : Option (ℚ × ρ)

-- The last four fields are what has happened: what was asked of the source, what it said and when, what the callers got
-- and when, and the errors they got.
structure World (κ ρ υ : Type*) where
  clock : ℚ
  entries : Dict κ (ℚ × υ)
  loads : List (Load κ ρ)
  asked : List (κ × ℚ)
  answered : List (κ × ℚ × ρ)
  returned : List (κ × ℚ × υ)
  raised : List (κ × ℚ)

inductive Op (κ ρ : Type*)
  | ask (key : κ) (now : ℚ)
  | answer (i : ℕ) (said : ρ) (now : ℚ)
  | store (i : ℕ) (now : ℚ)
  | fail (i : ℕ)

-- `read` takes the value out of what the source said; nothing where the caller gets an error instead.
variable (ttl : ℚ) (read : ρ → Option υ)

def start : World κ ρ υ := ⟨0, Dict.empty, [], [], [], [], []⟩

def fresh (w : World κ ρ υ) (key : κ) (now : ℚ) : Option υ :=
  match w.entries.get? key with
  | none => none
  | some (storedAt, value) => if now - storedAt < ttl then some value else none

def World.give (w : World κ ρ υ) (key : κ) (now : ℚ) (value : υ) : World κ ρ υ :=
  { w with clock := now, returned := w.returned ++ [(key, now, value)] }

def World.load (w : World κ ρ υ) (key : κ) (now : ℚ) : World κ ρ υ :=
  { w with clock := now, loads := w.loads ++ [⟨key, none⟩], asked := w.asked ++ [(key, now)] }

def World.hear (w : World κ ρ υ) (i : ℕ) (key : κ) (now : ℚ) (said : ρ) : World κ ρ υ :=
  { w with
    clock := now
    loads := w.loads.set i ⟨key, some (now, said)⟩
    answered := w.answered ++ [(key, now, said)] }

def World.drop (w : World κ ρ υ) (i : ℕ) (now : ℚ) : World κ ρ υ :=
  { w with clock := now, loads := w.loads.eraseIdx i }

def World.raise (w : World κ ρ υ) (key : κ) (now : ℚ) : World κ ρ υ := { w with raised := w.raised ++ [(key, now)] }

def World.keep (w : World κ ρ υ) (key : κ) (now : ℚ) (value : υ) : World κ ρ υ :=
  { w with entries := w.entries.set key (now, value) }

def step (w : World κ ρ υ) : Op κ ρ → Option (World κ ρ υ)
  | .ask key now =>
    if now < w.clock then none
    else
      match fresh ttl w key now with
      | some value => some (w.give key now value)
      | none => some (w.load key now)
  | .answer i said now =>
    if now < w.clock then none
    else
      match w.loads[i]? with
      | some ⟨key, none⟩ => some (w.hear i key now said)
      | _ => none
  | .store i now =>
    if now < w.clock then none
    else
      match w.loads[i]? with
      | some ⟨key, some (_, said)⟩ =>
        match read said with
        | none => some ((w.drop i now).raise key now)
        | some value => some (((w.drop i now).keep key now value).give key now value)
      | _ => none
  | .fail i =>
    match w.loads[i]? with
    | some load => some ((w.drop i w.clock).raise load.key w.clock)
    | none => none

def Rests (answered : List (κ × ℚ × ρ)) (r : κ × ℚ × υ) (s : ℚ) : Prop :=
  s ≤ r.2.1 ∧ ∃ said, (r.1, s, said) ∈ answered ∧ read said = some r.2.2

def Prompt (latency : ℚ) (w : World κ ρ υ) : Op κ ρ → Prop
  | .store i now => ∀ load ∈ w.loads[i]?, ∀ answer ∈ load.answer, now ≤ answer.1 + latency
  | _ => True

def Alone (w : World κ ρ υ) : Op κ ρ → Prop
  | .ask key now => fresh ttl w key now = none → ∀ load ∈ w.loads, load.key ≠ key
  | _ => True

instance decidablePrompt (latency : ℚ) (w : World κ ρ υ) : (op : Op κ ρ) → Decidable (Prompt latency w op)
  | .store i now =>
    inferInstanceAs (Decidable (∀ load ∈ w.loads[i]?, ∀ answer ∈ load.answer, now ≤ answer.1 + latency))
  | .ask _ _ => inferInstanceAs (Decidable True)
  | .answer _ _ _ => inferInstanceAs (Decidable True)
  | .fail _ => inferInstanceAs (Decidable True)

instance decidableAlone (w : World κ ρ υ) : (op : Op κ ρ) → Decidable (Alone ttl w op)
  | .ask key now => inferInstanceAs (Decidable (fresh ttl w key now = none → ∀ load ∈ w.loads, load.key ≠ key))
  | .answer _ _ _ => inferInstanceAs (Decidable True)
  | .store _ _ => inferInstanceAs (Decidable True)
  | .fail _ => inferInstanceAs (Decidable True)

inductive Moves (w : World κ ρ υ) : Op κ ρ → World κ ρ υ → Prop
  | gives (key : κ) (now storedAt : ℚ) (value : υ) (hnow : w.clock ≤ now)
      (hentry : w.entries.get? key = some (storedAt, value)) (hfresh : now - storedAt < ttl) :
      Moves w (.ask key now) (w.give key now value)
  | loads (key : κ) (now : ℚ) (hnow : w.clock ≤ now) (hmiss : fresh ttl w key now = none) :
      Moves w (.ask key now) (w.load key now)
  | hears (i : ℕ) (key : κ) (said : ρ) (now : ℚ) (hnow : w.clock ≤ now) (hi : w.loads[i]? = some ⟨key, none⟩) :
      Moves w (.answer i said now) (w.hear i key now said)
  | keeps (i : ℕ) (key : κ) (said : ρ) (value : υ) (now answeredAt : ℚ) (hnow : w.clock ≤ now)
      (hi : w.loads[i]? = some ⟨key, some (answeredAt, said)⟩) (hread : read said = some value) :
      Moves w (.store i now) (((w.drop i now).keep key now value).give key now value)
  | raises (op : Op κ ρ) (i : ℕ) (load : Load κ ρ) (now : ℚ) (hnow : w.clock ≤ now) (hi : w.loads[i]? = some load) :
      Moves w op ((w.drop i now).raise load.key now)

variable {ttl read} {w w' : World κ ρ υ} {op : Op κ ρ}

lemma fresh_eq_some {key : κ} {now : ℚ} {value : υ} (h : fresh ttl w key now = some value) :
    ∃ storedAt, w.entries.get? key = some (storedAt, value) ∧ now - storedAt < ttl := by
  rw [fresh] at h
  split at h
  · exact absurd h (by simp)
  · rename_i storedAt value' hentry
    obtain ⟨hlt, hvalue⟩ := Option.ite_none_right_eq_some.mp h
    exact ⟨storedAt, Option.some.inj hvalue ▸ hentry, hlt⟩

lemma step_moves (h : step ttl read w op = some w') : Moves ttl read w op w' := by
  cases op with
  | ask key now =>
    simp only [step] at h
    split at h
    · exact absurd h (by simp)
    · rename_i hnow
      split at h
      · rename_i value hfresh
        obtain ⟨storedAt, hentry, hlt⟩ := fresh_eq_some hfresh
        exact Option.some.inj h ▸ .gives key now storedAt value (not_lt.mp hnow) hentry hlt
      · rename_i hmiss
        exact Option.some.inj h ▸ .loads key now (not_lt.mp hnow) hmiss
  | answer i said now =>
    simp only [step] at h
    split at h
    · exact absurd h (by simp)
    · rename_i hnow
      split at h
      · rename_i key hi
        exact Option.some.inj h ▸ .hears i key said now (not_lt.mp hnow) hi
      · exact absurd h (by simp)
  | store i now =>
    simp only [step] at h
    split at h
    · exact absurd h (by simp)
    · rename_i hnow
      split at h
      · rename_i key answeredAt said hi
        split at h
        · exact Option.some.inj h ▸ .raises _ i _ now (not_lt.mp hnow) hi
        · rename_i value hread
          exact Option.some.inj h ▸ .keeps i key said value now answeredAt (not_lt.mp hnow) hi hread
      · exact absurd h (by simp)
  | fail i =>
    simp only [step] at h
    split at h
    · rename_i load hi
      exact Option.some.inj h ▸ .raises _ i load w.clock (le_refl _) hi
    · exact absurd h (by simp)

omit [DecidableEq κ] in
lemma Rests.mono {answered answered' : List (κ × ℚ × ρ)} {r : κ × ℚ × υ} {s : ℚ} (h : Rests read answered r s)
    (hsub : answered ⊆ answered') : Rests read answered' r s :=
  ⟨h.1, h.2.imp fun _ hsaid => ⟨hsub hsaid.1, hsaid.2⟩⟩

omit [DecidableEq κ] in
lemma Rests.later {answered : List (κ × ℚ × ρ)} {key : κ} {storedAt now s : ℚ} {value : υ}
    (h : Rests read answered (key, storedAt, value) s) (hnow : storedAt ≤ now) :
    Rests read answered (key, now, value) s :=
  ⟨h.1.trans hnow, h.2⟩

section Bounded

variable {latency : ℚ}

structure Bounded (ttl : ℚ) (read : ρ → Option υ) (latency : ℚ) (w : World κ ρ υ) : Prop where
  entry : ∀ key storedAt value, w.entries.get? key = some (storedAt, value) →
    storedAt ≤ w.clock ∧ ∃ s, storedAt ≤ s + latency ∧ Rests read w.answered (key, storedAt, value) s
  load : ∀ load ∈ w.loads, ∀ answer ∈ load.answer,
    answer.1 ≤ w.clock ∧ (load.key, answer.1, answer.2) ∈ w.answered
  returned : ∀ r ∈ w.returned, ∃ s, Rests read w.answered r s ∧ r.2.1 ≤ s + (ttl + latency)

lemma bounded_start : Bounded ttl read latency (start : World κ ρ υ) :=
  ⟨fun _ _ _ h => absurd h (by simp [start, Dict.get?, Dict.empty, lookup]), by simp [start], by simp [start]⟩

lemma bounded_moves (hpos : 0 ≤ ttl) (hw : Bounded ttl read latency w) (hop : Prompt latency w op)
    (h : Moves ttl read w op w') : Bounded ttl read latency w' := by
  have hentry : ∀ now, w.clock ≤ now → ∀ key storedAt value, w.entries.get? key = some (storedAt, value) →
      storedAt ≤ now ∧ ∃ s, storedAt ≤ s + latency ∧ Rests read w.answered (key, storedAt, value) s :=
    fun now hnow key storedAt value hget =>
      ⟨(hw.entry key storedAt value hget).1.trans hnow, (hw.entry key storedAt value hget).2⟩
  have hload : ∀ now, w.clock ≤ now → ∀ load ∈ w.loads, ∀ answer ∈ load.answer,
      answer.1 ≤ now ∧ (load.key, answer.1, answer.2) ∈ w.answered :=
    fun now hnow load hl answer ha => ⟨(hw.load load hl answer ha).1.trans hnow, (hw.load load hl answer ha).2⟩
  cases h with
  | gives key now storedAt value hnow hget hfresh =>
    refine ⟨hentry now hnow, hload now hnow, List.forall_mem_append.mpr ⟨hw.returned, ?_⟩⟩
    obtain ⟨hstored, s, hs, hrests⟩ := hentry now hnow key storedAt value hget
    refine List.forall_mem_singleton.mpr ⟨s, hrests.later hstored, ?_⟩
    show now ≤ s + (ttl + latency)
    linarith
  | loads key now hnow hmiss =>
    refine ⟨hentry now hnow, List.forall_mem_append.mpr ⟨hload now hnow, ?_⟩, hw.returned⟩
    exact List.forall_mem_singleton.mpr (fun answer ha => absurd ha (by simp))
  | hears i key said now hnow hi =>
    have hsub : w.answered ⊆ w.answered ++ [(key, now, said)] := List.subset_append_left _ _
    refine ⟨fun key storedAt value hget => ?_, fun load hl answer ha => ?_, fun r hr => ?_⟩
    · obtain ⟨hstored, s, hs, hrests⟩ := hentry now hnow key storedAt value hget
      exact ⟨hstored, s, hs, hrests.mono hsub⟩
    · rcases List.mem_or_eq_of_mem_set hl with hold | rfl
      · exact ⟨(hload now hnow load hold answer ha).1, hsub (hload now hnow load hold answer ha).2⟩
      · obtain rfl := Option.some.inj ha
        exact ⟨le_refl _, List.mem_append_right _ List.mem_cons_self⟩
    · obtain ⟨s, hrests, hs⟩ := hw.returned r hr
      exact ⟨s, hrests.mono hsub, hs⟩
  | keeps i key said value now answeredAt hnow hi hread =>
    obtain ⟨hpast, hsaid⟩ := hload now hnow _ (List.mem_of_getElem? hi) _ rfl
    have hlate : now ≤ answeredAt + latency := hop _ hi _ rfl
    have hrests : Rests read w.answered (key, now, value) answeredAt := ⟨hpast, said, hsaid, hread⟩
    refine ⟨fun key' storedAt value' hget => ?_, fun load hl => ?_, List.forall_mem_append.mpr ⟨hw.returned, ?_⟩⟩
    · have hset : (w.entries.set key (now, value)).get? key' = some (storedAt, value') := hget
      rw [Dict.get?_set] at hset
      split at hset
      · rename_i hkey
        obtain ⟨rfl, rfl⟩ := Prod.mk.inj (Option.some.inj hset)
        exact ⟨le_refl _, answeredAt, hlate, hkey ▸ hrests⟩
      · exact hentry now hnow key' storedAt value' hset
    · exact hload now hnow load (List.mem_of_mem_eraseIdx hl)
    · refine List.forall_mem_singleton.mpr ⟨answeredAt, hrests, ?_⟩
      show now ≤ answeredAt + (ttl + latency)
      linarith
  | raises _ i _ now hnow =>
    exact ⟨hentry now hnow, fun load hl => hload now hnow load (List.mem_of_mem_eraseIdx hl), hw.returned⟩

lemma bounded_run (hpos : 0 ≤ ttl) {ops : List (Op κ ρ)}
    (hprompt : Runs.Along (step ttl read) (Prompt latency) start ops)
    (h : Runs.run (step ttl read) start ops = some w) : Bounded ttl read latency w :=
  Runs.run_along (fun _ _ _ hs hop ht => bounded_moves hpos hs hop (step_moves ht)) bounded_start hprompt h

end Bounded

section Requests

def Requested (key : κ) (w : World κ ρ υ) : Prop :=
  w.raised.countP (fun r => r.1 = key) + w.loads.countP (fun load => load.key = key) ≤
    w.asked.countP (fun a => a.1 = key)

variable {key : κ} {i : ℕ} {load : Load κ ρ}

lemma countP_eraseIdx (key : κ) (hi : w.loads[i]? = some load) : w.loads.countP (fun l => l.key = key) =
    (w.loads.eraseIdx i).countP (fun l => l.key = key) + if load.key = key then 1 else 0 := by
  obtain ⟨hlt, hload⟩ := List.getElem?_eq_some_iff.mp hi
  have hperm := (List.getElem_cons_eraseIdx_perm hlt).countP_eq (fun l => decide (l.key = key))
  rw [← hperm, List.countP_cons, hload]
  simp only [decide_eq_true_eq]

lemma requested_moves (hw : Requested key w) (h : Moves ttl read w op w') : Requested key w' := by
  rw [Requested] at hw ⊢
  cases h with
  | gives key' now storedAt value hnow hentry hfresh => exact hw
  | loads key' now hnow hmiss =>
    simp only [World.load, List.countP_append, List.countP_cons, List.countP_nil]
    omega
  | hears i key' said now hnow hi =>
    have hkeys : (w.hear i key' now said).loads.countP (fun load => load.key = key) =
        w.loads.countP (fun load => load.key = key) := by
      have hset := countP_eraseIdx key hi
      obtain ⟨hlt, -⟩ := List.getElem?_eq_some_iff.mp hi
      have hnew : (w.hear i key' now said).loads[i]? = some ⟨key', some (now, said)⟩ := List.getElem?_set_self hlt
      have herase := countP_eraseIdx key hnew
      have hsame : (w.hear i key' now said).loads.eraseIdx i = w.loads.eraseIdx i := List.eraseIdx_set_eq
      rw [herase, hset, hsame]
    rw [hkeys]
    exact hw
  | keeps i key' said value now answeredAt hnow hi hread =>
    have hload := countP_eraseIdx key hi
    have hraised : (((w.drop i now).keep key' now value).give key' now value).raised = w.raised := rfl
    have hasked : (((w.drop i now).keep key' now value).give key' now value).asked = w.asked := rfl
    have hloads : (((w.drop i now).keep key' now value).give key' now value).loads = w.loads.eraseIdx i := rfl
    rw [hraised, hasked, hloads]
    omega
  | raises op i load now hnow hi =>
    have hload := countP_eraseIdx key hi
    simp only [World.raise, World.drop, List.countP_append, List.countP_cons, List.countP_nil, decide_eq_true_eq]
    omega

lemma requested_run {ops : List (Op κ ρ)} (h : Runs.run (step ttl read) start ops = some w) (key : κ) :
    Requested key w := by
  have hstart : Requested key (start : World κ ρ υ) := Nat.le_refl 0
  exact Runs.run_invariant (fun _ _ _ hs ht => requested_moves hs (step_moves ht)) hstart h

end Requests

section Alone

def returnedOf (key : κ) (w : World κ ρ υ) : List (κ × ℚ × υ) := w.returned.filter (fun r => r.1 = key)

structure Chain (read : ρ → Option υ) (key : κ) (moments : List ℚ) (w : World κ ρ υ) : Prop where
  rests : List.Forall₂ (Rests read w.answered) (returnedOf key w) moments
  sorted : moments.Pairwise (· ≤ ·)
  past : ∀ s ∈ moments, s ≤ w.clock
  load : ∀ load ∈ w.loads, load.key = key → ∀ answer ∈ load.answer,
    answer.1 ≤ w.clock ∧ (key, answer.1, answer.2) ∈ w.answered ∧ ∀ s ∈ moments, s ≤ answer.1
  entry : ∀ storedAt value, w.entries.get? key = some (storedAt, value) → ∃ s,
    storedAt ≤ w.clock ∧ Rests read w.answered (key, storedAt, value) s ∧ (∀ t ∈ moments, t ≤ s) ∧
      ∀ load ∈ w.loads, load.key = key → ∀ answer ∈ load.answer, s ≤ answer.1
  alone : w.loads.countP (fun load => load.key = key) ≤ 1

lemma chain_start (key : κ) : Chain read key [] (start : World κ ρ υ) :=
  ⟨.nil, .nil, by simp, by simp [start], fun _ _ h => absurd h (by simp [start, Dict.get?, Dict.empty, lookup]),
    Nat.zero_le _⟩

variable {key key' : κ} {moments : List ℚ} {now : ℚ} {value : υ} {said : ρ} {i : ℕ}

lemma Chain.tick (h : Chain read key moments w) (hnow : w.clock ≤ now) :
    Chain read key moments { w with clock := now } where
  rests := h.rests
  sorted := h.sorted
  past s hs := (h.past s hs).trans hnow
  load load hl hkey answer ha :=
    ⟨(h.load load hl hkey answer ha).1.trans hnow, (h.load load hl hkey answer ha).2⟩
  entry storedAt value hget := by
    obtain ⟨s, hstored, hrest⟩ := h.entry storedAt value hget
    exact ⟨s, hstored.trans hnow, hrest⟩
  alone := h.alone

lemma Chain.fewer (h : Chain read key moments w) {loads : List (Load κ ρ)} (hsub : loads.Sublist w.loads) :
    Chain read key moments { w with loads := loads } where
  rests := h.rests
  sorted := h.sorted
  past := h.past
  load load hl := h.load load (hsub.subset hl)
  entry storedAt value hget := by
    obtain ⟨s, hstored, hrests, hpast, hloads⟩ := h.entry storedAt value hget
    exact ⟨s, hstored, hrests, hpast, fun load hl => hloads load (hsub.subset hl)⟩
  alone := hsub.countP_le.trans h.alone

lemma Chain.returns (h : Chain read key moments w) {s : ℚ} (hrests : Rests read w.answered (key, now, value) s)
    (hs : s ≤ w.clock) (hpast : ∀ t ∈ moments, t ≤ s)
    (hload : ∀ load ∈ w.loads, load.key = key → ∀ answer ∈ load.answer, s ≤ answer.1)
    (hentry : ∀ storedAt value, w.entries.get? key = some (storedAt, value) → ∃ t, storedAt ≤ w.clock ∧
      Rests read w.answered (key, storedAt, value) t ∧ s ≤ t ∧
      ∀ load ∈ w.loads, load.key = key → ∀ answer ∈ load.answer, t ≤ answer.1) :
    Chain read key (moments ++ [s]) { w with returned := w.returned ++ [(key, now, value)] } where
  rests := by
    have hof : returnedOf key { w with returned := w.returned ++ [(key, now, value)] } =
        returnedOf key w ++ [(key, now, value)] := by simp [returnedOf]
    rw [hof]
    exact List.rel_append h.rests (.cons hrests .nil)
  sorted := List.pairwise_append.mpr ⟨h.sorted, List.pairwise_singleton _ _, fun t ht u hu =>
    List.mem_singleton.mp hu ▸ hpast t ht⟩
  past := List.forall_mem_append.mpr ⟨h.past, List.forall_mem_singleton.mpr hs⟩
  load load hl hkey answer ha := by
    obtain ⟨hclock, hsaid, hbefore⟩ := h.load load hl hkey answer ha
    exact ⟨hclock, hsaid, List.forall_mem_append.mpr
      ⟨hbefore, List.forall_mem_singleton.mpr (hload load hl hkey answer ha)⟩⟩
  entry storedAt value hget := by
    obtain ⟨t, hstored, hrests, hst, hloads⟩ := hentry storedAt value hget
    exact ⟨t, hstored, hrests, List.forall_mem_append.mpr
      ⟨fun u hu => (hpast u hu).trans hst, List.forall_mem_singleton.mpr hst⟩, hloads⟩
  alone := h.alone

lemma Chain.returns_other (h : Chain read key moments w) (hkey : key' ≠ key) :
    Chain read key moments { w with returned := w.returned ++ [(key', now, value)] } where
  rests := by
    have hof : returnedOf key { w with returned := w.returned ++ [(key', now, value)] } = returnedOf key w := by
      simp [returnedOf, hkey]
    rw [hof]
    exact h.rests
  sorted := h.sorted
  past := h.past
  load := h.load
  entry := h.entry
  alone := h.alone

lemma Chain.asks (h : Chain read key moments w) (hnone : key' = key → ∀ load ∈ w.loads, load.key ≠ key) :
    Chain read key moments { w with loads := w.loads ++ [⟨key', none⟩], asked := w.asked ++ [(key', now)] } where
  rests := h.rests
  sorted := h.sorted
  past := h.past
  load load hl hkey answer ha := by
    rcases List.mem_append.mp hl with hl | hl
    · exact h.load load hl hkey answer ha
    · obtain rfl := List.mem_singleton.mp hl
      exact absurd ha (by simp)
  entry storedAt value hget := by
    obtain ⟨s, hstored, hrests, hpast, hloads⟩ := h.entry storedAt value hget
    refine ⟨s, hstored, hrests, hpast, fun load hl hkey answer ha => ?_⟩
    rcases List.mem_append.mp hl with hl | hl
    · exact hloads load hl hkey answer ha
    · obtain rfl := List.mem_singleton.mp hl
      exact absurd ha (by simp)
  alone := by
    rw [List.countP_append]
    by_cases hkey : key' = key
    · have hzero : w.loads.countP (fun load => load.key = key) = 0 :=
        List.countP_eq_zero.mpr (fun load hl => by simpa using hnone hkey load hl)
      simp [hzero, hkey]
    · simpa [hkey] using h.alone

lemma Chain.hears (h : Chain read key moments w) (hi : w.loads[i]? = some ⟨key', none⟩) :
    Chain read key moments
      { w with
        loads := w.loads.set i ⟨key', some (w.clock, said)⟩
        answered := w.answered ++ [(key', w.clock, said)] } := by
  have hsub : w.answered ⊆ w.answered ++ [(key', w.clock, said)] := List.subset_append_left _ _
  have hkeys : (w.loads.set i ⟨key', some (w.clock, said)⟩).map Load.key = w.loads.map Load.key := by
    have hkey : (w.loads.map Load.key)[i]? = some key' := by rw [List.getElem?_map, hi, Option.map_some]
    obtain ⟨hlt, hsame⟩ := List.getElem?_eq_some_iff.mp hkey
    rw [List.map_set, ← hsame]
    exact List.set_getElem_self hlt
  refine ⟨?_, h.sorted, h.past, fun load hl hkey answer ha => ?_, fun storedAt value hget => ?_, ?_⟩
  · exact h.rests.imp (fun _ _ hr => hr.mono hsub)
  · rcases List.mem_or_eq_of_mem_set hl with hold | rfl
    · obtain ⟨hclock, hsaid, hbefore⟩ := h.load load hold hkey answer ha
      exact ⟨hclock, hsub hsaid, hbefore⟩
    · obtain rfl := Option.some.inj ha
      obtain rfl : key' = key := hkey
      exact ⟨le_refl _, List.mem_append_right _ List.mem_cons_self, h.past⟩
  · obtain ⟨s, hstored, hrests, hpast, hloads⟩ := h.entry storedAt value hget
    refine ⟨s, hstored, hrests.mono hsub, hpast, fun load hl hkey answer ha => ?_⟩
    rcases List.mem_or_eq_of_mem_set hl with hold | rfl
    · exact hloads load hold hkey answer ha
    · obtain rfl := Option.some.inj ha
      exact hrests.1.trans hstored
  · have hcount := congrArg (List.countP (fun k => decide (k = key))) hkeys
    rw [List.countP_map, List.countP_map] at hcount
    exact hcount.trans_le h.alone

lemma Chain.raises (h : Chain read key moments w) : Chain read key moments (w.raise key' now) where
  rests := h.rests
  sorted := h.sorted
  past := h.past
  load := h.load
  entry := h.entry
  alone := h.alone

lemma Chain.keeps (h : Chain read key moments w) {s : ℚ} (hrests : Rests read w.answered (key, now, value) s)
    (hnow : now ≤ w.clock) (hpast : ∀ t ∈ moments, t ≤ s) (hnone : ∀ load ∈ w.loads, load.key ≠ key) :
    Chain read key moments (w.keep key now value) where
  rests := h.rests
  sorted := h.sorted
  past := h.past
  load := h.load
  entry storedAt value' hget := by
    have hset : (w.entries.set key (now, value)).get? key = some (storedAt, value') := hget
    rw [Dict.get?_set, if_pos rfl] at hset
    obtain ⟨rfl, rfl⟩ := Prod.mk.inj (Option.some.inj hset)
    exact ⟨s, hnow, hrests, hpast, fun load hl hkey => absurd hkey (hnone load hl)⟩
  alone := h.alone

lemma Chain.keeps_other (h : Chain read key moments w) (hkey : key' ≠ key) :
    Chain read key moments (w.keep key' now value) where
  rests := h.rests
  sorted := h.sorted
  past := h.past
  load := h.load
  entry storedAt value' hget := by
    have hset : (w.entries.set key' (now, value)).get? key = some (storedAt, value') := hget
    rw [Dict.get?_set, if_neg hkey] at hset
    exact h.entry storedAt value' hset
  alone := h.alone

lemma Chain.moves (h : Chain read key moments w) (hop : Alone ttl w op) (hm : Moves ttl read w op w') :
    ∃ moments, Chain read key moments w' := by
  cases hm with
  | gives key' now storedAt value hnow hget hfresh =>
    have ht := h.tick hnow
    by_cases hkey : key' = key
    · subst hkey
      obtain ⟨s, hstored, hrests, hpast, hloads⟩ := ht.entry storedAt value hget
      refine ⟨_, ht.returns (hrests.later hstored) (hrests.1.trans hstored) hpast hloads ?_⟩
      intro storedAt' value' hget'
      obtain ⟨rfl, rfl⟩ := Prod.mk.inj (Option.some.inj (hget.symm.trans hget'))
      exact ⟨s, hstored, hrests, le_refl _, hloads⟩
    · exact ⟨_, ht.returns_other hkey⟩
  | loads key' now hnow hmiss =>
    exact ⟨_, (h.tick hnow).asks (fun hkey => hkey ▸ hop hmiss)⟩
  | hears i key' said now hnow hi => exact ⟨_, (h.tick hnow).hears hi⟩
  | keeps i key' said value now answeredAt hnow hi hread =>
    have hd := (h.tick hnow).fewer (List.eraseIdx_sublist w.loads i)
    by_cases hkey : key' = key
    · subst hkey
      obtain ⟨hpast, hsaid, hbefore⟩ := (h.tick hnow).load _ (List.mem_of_getElem? hi) rfl _ rfl
      have hrests : Rests read w.answered (key', now, value) answeredAt := ⟨hpast, said, hsaid, hread⟩
      have hnone : ∀ load ∈ w.loads.eraseIdx i, load.key ≠ key' := by
        obtain ⟨hlt, hload⟩ := List.getElem?_eq_some_iff.mp hi
        have hone := (List.getElem_cons_eraseIdx_perm hlt).countP_eq (fun load => decide (load.key = key'))
        rw [List.countP_cons_of_pos (by simp [hload])] at hone
        have hzero : (w.loads.eraseIdx i).countP (fun load => load.key = key') = 0 := by
          have halone := h.alone
          omega
        exact fun load hl => by simpa using List.countP_eq_zero.mp hzero load hl
      refine ⟨_, (hd.keeps hrests (le_refl _) hbefore hnone).returns hrests hpast hbefore
        (fun load hl hkey => absurd hkey (hnone load hl)) (fun storedAt value' hget => ?_)⟩
      have hset : (w.entries.set key' (now, value)).get? key' = some (storedAt, value') := hget
      rw [Dict.get?_set, if_pos rfl] at hset
      obtain ⟨rfl, rfl⟩ := Prod.mk.inj (Option.some.inj hset)
      exact ⟨answeredAt, le_refl _, hrests, le_refl _, fun load hl hkey => absurd hkey (hnone load hl)⟩
    · exact ⟨_, (hd.keeps_other hkey).returns_other hkey⟩
  | raises _ i load now hnow => exact ⟨_, ((h.tick hnow).fewer (List.eraseIdx_sublist w.loads i)).raises⟩

lemma returned_forward {ops : List (Op κ ρ)} (halone : Runs.Along (step ttl read) (Alone ttl) start ops)
    (h : Runs.run (step ttl read) start ops = some w) (key : κ) :
    ∃ moments : List ℚ, List.Forall₂ (Rests read w.answered) (returnedOf key w) moments ∧
      moments.Pairwise (· ≤ ·) := by
  have hstep : ∀ s op t, (∃ moments, Chain read key moments s) → Alone ttl s op → step ttl read s op = some t →
      ∃ moments, Chain read key moments t :=
    fun s op t ⟨_, hs⟩ hop ht => hs.moves hop (step_moves ht)
  obtain ⟨moments, hchain⟩ := Runs.run_along hstep ⟨[], chain_start key⟩ halone h
  exact ⟨moments, hchain.rests, hchain.sorted⟩

end Alone

end TheCargo.Foundation.TtlCache
