import Mathlib.Data.Rat.Floor
import Mathlib.Tactic.Linarith
import TheCargo.Foundation.Dict
import TheCargo.Foundation.Runs

/-! The rate limit of an endpoint: a sorted set of the calls that it let through. -/

namespace TheCargo.Middleware.SlidingWindow

open Foundation Foundation.Runs

-- `now` is read by the worker, `clock` are the milliseconds of the server that runs the script.
structure Call where
  now : ℚ
  clock : ℤ
  random : ℕ
  epoch : 0 ≤ now
  range : 1 ≤ random ∧ random ≤ 1000000

structure SortedSet where
  entries : List (String × ℚ)
  deadline : ℤ

-- `render` is how Lua writes a number next to `..`.
variable (render : ℚ → String) (limit window : ℕ)

def truncate (q : ℚ) : ℤ := if 0 ≤ q then ⌊q⌋ else ⌈q⌉

def SortedSet.live (s : SortedSet) (clock : ℤ) : List (String × ℚ) := if s.deadline < clock then [] else s.entries

def removeByScore (entries : List (String × ℚ)) (low high : ℚ) : List (String × ℚ) :=
  entries.filter (fun e => ¬(low ≤ e.2 ∧ e.2 ≤ high))

def oldest (entries : List (String × ℚ)) : Option ℚ := (entries.map Prod.snd).min?

def member (call : Call) : String := render call.now ++ ":" ++ toString call.random

def kept (s : SortedSet) (call : Call) : List (String × ℚ) := removeByScore (s.live call.clock) 0 (call.now - window)

def script (s : SortedSet) (call : Call) : (ℕ × ℤ) × SortedSet :=
  let entries := kept window s call
  let current := entries.length
  if limit ≤ current then
    let resetAt := match oldest entries with
      | none => 0
      | some score => truncate (score + window)
    ((current, resetAt), ⟨entries, s.deadline⟩)
  else
    let entries := put (member render call) call.now entries
    ((entries.length, 0), ⟨entries, call.clock + window * 1000⟩)

inductive Outcome
  | allowed (remaining limit reset : ℤ)
  | exceeded (limit retryAfter resetAt : ℤ)

def Outcome.isAllowed : Outcome → Bool
  | .allowed _ _ _ => true
  | .exceeded _ _ _ => false

def rateLimit (s : SortedSet) (call : Call) : Outcome × SortedSet :=
  let ((currentCount, resetAt), s) := script render limit window s call
  if 0 < resetAt then (.exceeded limit (max 1 (truncate (resetAt - call.now))) resetAt, s)
  else (.allowed (max 0 (limit - currentCount)) limit (truncate (call.now + window)), s)

structure World where
  set : SortedSet
  admitted : List ℚ

def start : World := ⟨⟨[], 0⟩, []⟩

def step (w : World) (call : Call) : Option World :=
  let (outcome, set) := rateLimit render limit window w.set call
  some ⟨set, if outcome.isAllowed then w.admitted ++ [call.now] else w.admitted⟩

def within (t : ℚ) (now : ℚ) : Bool := t - window < now ∧ now ≤ t

def Fresh (w : World) (call : Call) : Prop :=
  (kept window w.set call).length < limit → member render call ∉ (kept window w.set call).map Prod.fst

def OnTime (w : World) (call : Call) : Prop :=
  w.set.deadline < call.clock → ∀ e ∈ w.set.entries, e.2 ≤ call.now - window

def Distinct (w : World) (call : Call) : Prop := Fresh render limit window w call ∧ OnTime window w call

instance decidableDistinct (w : World) (call : Call) : Decidable (Distinct render limit window w call) :=
  inferInstanceAs (Decidable ((_ → _) ∧ (_ → _)))

variable {render limit window} {w v : World} {call : Call} {last : ℚ}

structure Holds (window : ℕ) (last : ℚ) (w : World) : Prop where
  counted : ∀ b, last - window ≤ b → w.admitted.countP (fun n => b < n) ≤ w.set.entries.countP (fun e => b < e.2)
  past : ∀ n ∈ w.admitted, n ≤ last
  epoch : ∀ e ∈ w.set.entries, 0 ≤ e.2

lemma holds_start (last : ℚ) : Holds window last start :=
  ⟨fun _ _ => Nat.le_refl 0, by simp [start], by simp [start]⟩

lemma kept_sublist (s : SortedSet) (call : Call) : (kept window s call).Sublist s.entries := by
  rw [kept, removeByScore, SortedSet.live]
  split
  · exact List.nil_sublist _
  · exact List.filter_sublist

lemma Holds.kept (h : Holds window last w) (hlast : last ≤ call.now)
    (honTime : OnTime window w call) {b : ℚ} (hb : call.now - window ≤ b) :
    w.admitted.countP (fun n => b < n) ≤ (SlidingWindow.kept window w.set call).countP (fun e => b < e.2) := by
  have hcounted := h.counted b (by linarith)
  rw [SlidingWindow.kept, SortedSet.live]
  split
  · rename_i hexpired
    have hnone : w.set.entries.countP (fun e => b < e.2) = 0 := by
      apply List.countP_eq_zero.mpr
      intro e he hlt
      have hold := honTime hexpired e he
      have hnew := of_decide_eq_true hlt
      linarith
    omega
  · have hsame : w.set.entries.countP (fun e => b < e.2) =
        (removeByScore w.set.entries 0 (call.now - window)).countP (fun e => b < e.2) := by
      rw [removeByScore, List.countP_filter]
      apply List.countP_congr
      intro e _
      simp only [Bool.and_eq_true, decide_eq_true_eq]
      constructor
      · intro hlt
        exact ⟨hlt, fun hold => by linarith [hold.2]⟩
      · exact And.left
    omega

lemma oldest_of_nonempty {entries : List (String × ℚ)} (h : entries ≠ []) :
    ∃ e ∈ entries, oldest entries = some e.2 := by
  cases ho : oldest entries with
  | none =>
    have hnil := List.min?_eq_none_iff.mp ho
    exact absurd (List.map_eq_nil_iff.mp hnil) h
  | some score =>
    obtain ⟨e, he, hscore⟩ := List.mem_map.mp (List.min?_mem ho)
    exact ⟨e, he, by rw [hscore]⟩

lemma truncate_pos {q : ℚ} (h : 1 ≤ q) : 0 < truncate q := by
  have hq : 0 ≤ q := by linarith
  rw [truncate, if_pos hq]
  exact Int.floor_pos.mpr h

lemma step_full (hlimit : 1 ≤ limit) (hwindow : 0 < window) (hepoch : ∀ e ∈ w.set.entries, 0 ≤ e.2)
    (hfull : limit ≤ (kept window w.set call).length) :
    step render limit window w call = some ⟨⟨kept window w.set call, w.set.deadline⟩, w.admitted⟩ := by
  have hne : kept window w.set call ≠ [] := by
    intro hnil
    rw [hnil, List.length_nil] at hfull
    omega
  obtain ⟨e, he, hoffset⟩ := oldest_of_nonempty hne
  have hscore := hepoch e ((kept_sublist w.set call).subset he)
  have hreset : 0 < truncate (e.2 + window) := by
    apply truncate_pos
    have : (1 : ℚ) ≤ window := by exact_mod_cast hwindow
    linarith
  simp [step, rateLimit, script, hfull, hoffset, hreset, Outcome.isAllowed]

lemma step_room (hroom : ¬limit ≤ (kept window w.set call).length) :
    step render limit window w call =
      some ⟨⟨put (member render call) call.now (kept window w.set call), call.clock + window * 1000⟩,
        w.admitted ++ [call.now]⟩ := by
  simp [step, rateLimit, script, hroom, Outcome.isAllowed]

lemma Holds.step (h : Holds window last w) (hlimit : 1 ≤ limit) (hwindow : 0 < window) (hlast : last ≤ call.now)
    (hdistinct : Distinct render limit window w call) (hv : SlidingWindow.step render limit window w call = some v) :
    Holds window call.now v := by
  have hkept {b : ℚ} := h.kept hlast hdistinct.2 (b := b)
  by_cases hfull : limit ≤ (SlidingWindow.kept window w.set call).length
  · rw [step_full hlimit hwindow h.epoch hfull] at hv
    obtain rfl := Option.some.inj hv
    exact ⟨fun b hb => hkept hb, fun n hn => (h.past n hn).trans hlast,
      fun e he => h.epoch e ((kept_sublist w.set call).subset he)⟩
  · rw [step_room hfull] at hv
    obtain rfl := Option.some.inj hv
    rw [put_fresh (hdistinct.1 (not_le.mp hfull))]
    refine ⟨?_, ?_, ?_⟩
    · intro b hb
      have hcount := hkept hb
      rw [List.countP_append, List.countP_append]
      exact Nat.add_le_add hcount (by simp)
    · intro n hn
      rcases List.mem_append.mp hn with hn | hn
      · exact (h.past n hn).trans hlast
      · exact (List.mem_singleton.mp hn).le
    · intro e he
      rcases List.mem_append.mp he with he | he
      · exact h.epoch e ((kept_sublist w.set call).subset he)
      · obtain rfl := List.mem_singleton.mp he
        exact call.epoch

def AtMost (limit window : ℕ) (w : World) : Prop := ∀ t, w.admitted.countP (within window t) ≤ limit

lemma Holds.atMost (h : Holds window last w) (hat : AtMost limit window w) (hlimit : 1 ≤ limit) (hwindow : 0 < window)
    (hlast : last ≤ call.now) (hdistinct : Distinct render limit window w call)
    (hv : SlidingWindow.step render limit window w call = some v) : AtMost limit window v := by
  by_cases hfull : limit ≤ (SlidingWindow.kept window w.set call).length
  · rw [step_full hlimit hwindow h.epoch hfull] at hv
    obtain rfl := Option.some.inj hv
    exact hat
  · rw [step_room hfull] at hv
    obtain rfl := Option.some.inj hv
    intro t
    have hbefore := hat t
    rw [List.countP_append, List.countP_singleton]
    split
    · rename_i hin
      obtain ⟨_, hnow⟩ := of_decide_eq_true hin
      -- Every call of the window that ends at `t` is still in the set, which has room.
      have hwide : w.admitted.countP (within window t) ≤ w.admitted.countP (fun n => t - window < n) :=
        List.countP_mono_left (fun n _ hn => decide_eq_true (of_decide_eq_true hn).1)
      have hkept : _ ≤ _ := h.kept hlast hdistinct.2 (b := t - window) (by linarith)
      have hlength : (SlidingWindow.kept window w.set call).countP (fun e => t - window < e.2) ≤ _ :=
        List.countP_le_length
      omega
    · omega

lemma Holds.run {calls : List Call} (h : Holds window last w) (hat : AtMost limit window w) (hlimit : 1 ≤ limit)
    (hwindow : 0 < window) (hlast : ∀ c ∈ calls, last ≤ c.now) (hsorted : calls.Pairwise (fun a b => a.now ≤ b.now))
    (hdistinct : Along (SlidingWindow.step render limit window) (Distinct render limit window) w calls)
    (hrun : Runs.run (SlidingWindow.step render limit window) w calls = some v) : AtMost limit window v := by
  induction calls generalizing w last with
  | nil =>
    obtain rfl := Option.some.inj hrun
    exact hat
  | cons call calls ih =>
    obtain ⟨u, hu, hrun⟩ := run_cons.mp hrun
    obtain ⟨hfirst, hrest⟩ := List.pairwise_cons.mp hsorted
    have hle := hlast call List.mem_cons_self
    exact ih (h.step hlimit hwindow hle hdistinct.1 hu) (h.atMost hat hlimit hwindow hle hdistinct.1 hu) hfirst hrest
      (hdistinct.2 u hu) hrun

theorem window_admits_at_most (render : ℚ → String) (limit window : ℕ) (calls : List Call) (w : World)
    (hlimit : 1 ≤ limit) (hwindow : 0 < window) (hsorted : calls.Pairwise (fun a b => a.now ≤ b.now))
    (hdistinct : Along (step render limit window) (Distinct render limit window) start calls)
    (hrun : run (step render limit window) start calls = some w) :
    ∀ t, w.admitted.countP (within window t) ≤ limit :=
  (holds_start 0).run (fun _ => Nat.zero_le limit) hlimit hwindow (fun c _ => c.epoch) hsorted hdistinct hrun

theorem two_instants_admit_at_most :
    ∃ w, run (step (fun q => toString q.num) 2 60) start
        [⟨1700000000, 1700000000000, 7, by decide, by decide⟩, ⟨1700000000, 1700000000000, 8, by decide, by decide⟩,
          ⟨1700000001, 1700000001000, 7, by decide, by decide⟩] = some w ∧
      ∀ t, w.admitted.countP (within 60 t) ≤ 2 :=
  Exists.imp
    (fun _ hw => ⟨hw, window_admits_at_most _ 2 60 _ _ (by decide) (by decide) (by decide) (by decide +kernel) hw⟩)
    (Option.isSome_iff_exists.mp (by decide +kernel))

theorem one_member_admits_three :
    ∃ w, run (step (fun q => toString q.num) 2 60) start
        [⟨1700000000, 1700000000000, 7, by decide, by decide⟩, ⟨1700000000, 1700000000000, 7, by decide, by decide⟩,
          ⟨1700000000, 1700000000000, 7, by decide, by decide⟩] = some w ∧
      2 < w.admitted.countP (within 60 1700000000) :=
  ⟨_, rfl, by decide +kernel⟩

end TheCargo.Middleware.SlidingWindow
