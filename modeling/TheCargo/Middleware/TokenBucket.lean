import Mathlib.Data.Rat.Floor
import TheCargo.Foundation.Bucket

/-! The rate limit of an organization: a token bucket in a Redis hash that expires. -/

namespace TheCargo.Middleware.TokenBucket

open Foundation

-- The two fields of the hash, and the time in milliseconds at which `PEXPIRE` lets it go.
structure Entry where
  bucket : Bucket ℚ
  deadline : ℤ

structure Call where
  org : String
  now : ℚ
  deriving DecidableEq

abbrev Store := String → Option Entry

variable (expires : Bool) (service : String) (rate burst : ℚ)

def redisKey (org : String) : String := "ratelimit:org:" ++ service ++ ":" ++ org

def milliseconds (now : ℚ) : ℤ := ⌊now * 1000⌋

def Entry.expired (e : Entry) (now : ℚ) : Bool := e.deadline < milliseconds now

def read (store : Store) (key : String) (now : ℚ) : Option (Bucket ℚ) :=
  match store key with
  | none => none
  | some e => if expires && e.expired now then none else some e.bucket

-- Exact, where Lua has doubles and its `tostring` keeps fourteen digits of the two numbers that are stored.
def script (store : Store) (call : Call) : ℤ × Store :=
  let key := redisKey service call.org
  let now := call.now
  let state := read expires store key now
  let tokens := (state.map Bucket.tokens).getD burst
  let since := (state.map Bucket.since).getD now
  let tokens := min burst (tokens + max 0 (now - since) * rate)
  let (tokens, retryMs) := if 1 ≤ tokens then (tokens - 1, 0) else (tokens, ⌈(1 - tokens) / rate * 1000⌉)
  let deadline := milliseconds now + (⌈burst / rate * 1000⌉ + 1000)
  (retryMs, Function.update store key (some ⟨⟨tokens, now⟩, deadline⟩))

def take (retryMs : ℤ) : Option ℤ := if retryMs = 0 then none else some (max 1 ⌈(retryMs : ℚ) / 1000⌉)

def served (store : Store) : List Call → List (Call × ℤ)
  | [] => []
  | call :: calls =>
    let (retryMs, store) := script expires service rate burst store call
    (call, retryMs) :: served store calls

def admitted (s t : ℚ) (org : String) (g : Call × ℤ) : Bool :=
  g.1.org = org ∧ s ≤ g.1.now ∧ g.1.now ≤ t ∧ take g.2 = none

def nothing : Store := fun _ => none

structure BoundsEveryWindow (calls : List Call) : Prop where
  window : ∀ org s t, s ≤ t →
    ((served true service rate burst nothing calls).countP (admitted s t org) : ℚ) ≤ burst + rate * (t - s)
  others : ∀ org, (served true service rate burst nothing calls).filter (fun g => g.1.org = org) =
    served true service rate burst nothing (calls.filter (fun c => c.org = org))
  forever : served true service rate burst nothing calls = served false service rate burst nothing calls

variable {expires service rate burst}

lemma redisKey_inj {a b : String} (h : redisKey service a = redisKey service b) : a = b :=
  (String.append_right_inj _).mp h

lemma tokens_level (state : Option (Bucket ℚ)) (now : ℚ) :
    min burst ((state.map Bucket.tokens).getD burst + max 0 (now - (state.map Bucket.since).getD now) * rate) =
      Bucket.level rate burst state now := by
  cases state with
  | none => simp [Bucket.level]
  | some b => rfl

lemma script_store (store : Store) (call : Call) :
    (script expires service rate burst store call).2 =
      Function.update store (redisKey service call.org)
        (some ⟨Bucket.draw rate burst (read expires store (redisKey service call.org) call.now) call.now,
          milliseconds call.now + (⌈burst / rate * 1000⌉ + 1000)⟩) := by
  rw [script]
  simp only [tokens_level, Bucket.draw]
  split <;> rfl

lemma script_admits (hrate : 0 < rate) (store : Store) (call : Call) :
    take (script expires service rate burst store call).1 = none ↔
      1 ≤ Bucket.level rate burst (read expires store (redisKey service call.org) call.now) call.now := by
  rw [script]
  simp only [tokens_level, take]
  split
  · rename_i h
    simp [h]
  · rename_i h
    have hwait : 0 < (1 - Bucket.level rate burst (read expires store (redisKey service call.org) call.now) call.now) /
        rate * 1000 := by
      have hlack := sub_pos.mpr (not_le.mp h)
      positivity
    have hceil := Int.ceil_pos.mpr hwait
    rw [if_neg hceil.ne']
    simp [h]

lemma read_mem {store : Store} {key : String} {now : ℚ} {b : Bucket ℚ} (h : b ∈ read expires store key now) :
    ∃ e ∈ store key, e.bucket = b := by
  rw [read] at h
  split at h
  · cases h
  · rename_i e he
    obtain ⟨_, hb⟩ := Option.ite_none_left_eq_some.mp h
    exact ⟨e, he, Option.some.inj hb⟩

lemma script_congr {store store' : Store} {call : Call}
    (h : store (redisKey service call.org) = store' (redisKey service call.org)) :
    (script expires service rate burst store call).1 = (script expires service rate burst store' call).1 ∧
      (script expires service rate burst store call).2 (redisKey service call.org) =
        (script expires service rate burst store' call).2 (redisKey service call.org) := by
  have hread : read expires store (redisKey service call.org) call.now =
      read expires store' (redisKey service call.org) call.now := by
    rw [read, read, h]
  constructor
  · rw [script, script]
    simp only [hread]
  · rw [script_store, script_store, Function.update_self, Function.update_self, hread]

lemma served_filter (org : String) (calls : List Call) {store store' : Store}
    (h : store (redisKey service org) = store' (redisKey service org)) :
    (served expires service rate burst store calls).filter (fun g => g.1.org = org) =
      served expires service rate burst store' (calls.filter (fun c => c.org = org)) := by
  induction calls generalizing store store' with
  | nil => rfl
  | cons call calls ih =>
    by_cases horg : call.org = org
    · subst horg
      obtain ⟨hretry, hstore⟩ : (script expires service rate burst store call).1 = _ ∧ _ := script_congr h
      rw [List.filter_cons_of_pos (by simp), served, served, List.filter_cons_of_pos (by simp), ih hstore, hretry]
    · have hne : redisKey service org ≠ redisKey service call.org := fun hk => horg (redisKey_inj hk).symm
      have hstore : (script expires service rate burst store call).2 (redisKey service org) =
          store' (redisKey service org) := by
        rw [script_store, Function.update_of_ne hne, h]
      rw [List.filter_cons_of_neg (by simpa using horg), served, List.filter_cons_of_neg (by simpa using horg),
        ih hstore]

structure Sane (rate burst : ℚ) (e : Entry) : Prop where
  tokens : 0 ≤ e.bucket.tokens
  deadline : e.deadline = milliseconds e.bucket.since + (⌈burst / rate * 1000⌉ + 1000)

lemma Sane.level (hrate : 0 < rate) {e : Entry} (h : Sane rate burst e) {now : ℚ} (hexpired : e.expired now = true) :
    Bucket.level rate burst (some e.bucket) now = burst := by
  apply Bucket.level_full h.tokens _ hrate
  have hpast : e.deadline + 1 ≤ milliseconds now := of_decide_eq_true hexpired
  have hnow : ((e.deadline + 1 : ℤ) : ℚ) ≤ now * 1000 := Int.le_floor.mp hpast
  have hsince : e.bucket.since * 1000 < milliseconds e.bucket.since + 1 := Int.lt_floor_add_one _
  have hfull : burst / rate * 1000 ≤ ⌈burst / rate * 1000⌉ := Int.le_ceil _
  rw [h.deadline] at hnow
  push_cast at hnow
  have helapsed : burst / rate ≤ now - e.bucket.since := by linarith
  exact (div_le_iff₀ hrate).mp helapsed

lemma level_read (hrate : 0 < rate) {store : Store} {key : String} (h : ∀ e ∈ store key, Sane rate burst e) (now : ℚ) :
    Bucket.level rate burst (read true store key now) now = Bucket.level rate burst (read false store key now) now := by
  cases he : store key with
  | none => rw [read, read, he]
  | some e =>
    rw [read, read, he]
    dsimp only
    cases hexpired : e.expired now with
    | false => rfl
    | true => exact ((h e he).level hrate hexpired).symm

lemma script_forever (hrate : 0 < rate) {store : Store} (h : ∀ key, ∀ e ∈ store key, Sane rate burst e) (call : Call) :
    script true service rate burst store call = script false service rate burst store call := by
  have hlevel := level_read hrate (h (redisKey service call.org)) call.now
  rw [script, script]
  simp only [tokens_level, hlevel]

lemma script_sane (hrate : 0 < rate) (hburst : 1 ≤ burst) {store : Store}
    (h : ∀ key, ∀ e ∈ store key, Sane rate burst e) (call : Call) (key : String) :
    ∀ e ∈ (script expires service rate burst store call).2 key, Sane rate burst e := by
  intro e he
  rw [script_store] at he
  by_cases hkey : key = redisKey service call.org
  · subst hkey
    rw [Function.update_self] at he
    obtain rfl := Option.mem_some_iff.mp he
    refine ⟨Bucket.draw_nonneg ?_ (by linarith) hrate _, rfl⟩
    intro c hc
    obtain ⟨e, he, rfl⟩ := read_mem hc
    exact (h _ e he).tokens
  · rw [Function.update_of_ne hkey] at he
    exact h key e he

lemma served_forever (hrate : 0 < rate) (hburst : 1 ≤ burst) (calls : List Call) {store : Store}
    (h : ∀ key, ∀ e ∈ store key, Sane rate burst e) :
    served true service rate burst store calls = served false service rate burst store calls := by
  induction calls generalizing store with
  | nil => rfl
  | cons call calls ih =>
    rw [served, served, script_forever hrate h]
    dsimp only
    rw [ih (script_sane hrate hburst h call)]

lemma read_false (store : Store) (key : String) (now : ℚ) :
    read false store key now = (store key).map Entry.bucket := by
  rw [read]
  cases store key <;> rfl

lemma served_grants (hrate : 0 < rate) {org : String} {calls : List Call} (horg : ∀ c ∈ calls, c.org = org)
    (store : Store) :
    (served false service rate burst store calls).map (fun g => (g.1.now, decide (take g.2 = none))) =
      Bucket.grants rate burst ((store (redisKey service org)).map Entry.bucket) (calls.map Call.now) := by
  induction calls generalizing store with
  | nil => rfl
  | cons call calls ih =>
    obtain ⟨hcall, hcalls⟩ := List.forall_mem_cons.mp horg
    subst hcall
    have hadmits : take (script false service rate burst store call).1 = none ↔ _ := script_admits hrate store call
    rw [read_false] at hadmits
    rw [served, List.map_cons, List.map_cons, ih hcalls, script_store, Bucket.grants, read_false, Function.update_self]
    exact congrArg₂ List.cons (Prod.ext rfl (decide_eq_decide.mpr hadmits)) rfl

theorem bucket_bounds_every_window (service : String) (rate burst : ℚ) (calls : List Call) (hrate : 0 < rate)
    (hburst : 1 ≤ burst) (hsorted : calls.Pairwise (fun a b => a.now ≤ b.now)) :
    BoundsEveryWindow service rate burst calls := by
  have hforever : served true service rate burst nothing calls = served false service rate burst nothing calls :=
    served_forever hrate hburst calls nofun
  refine ⟨?_, fun org => served_filter org calls rfl, hforever⟩
  intro org s t hst
  let own := calls.filter (fun c => c.org = org)
  have horg : ∀ c ∈ own, c.org = org := fun c hc => of_decide_eq_true (List.mem_filter.mp hc).2
  have htimes : (own.map Call.now).Pairwise (· ≤ ·) := List.pairwise_map.mpr (hsorted.filter _)
  have hown : (served false service rate burst nothing calls).filter (fun g => g.1.org = org) =
      served false service rate burst nothing own := served_filter org calls rfl
  have hgrants : (served false service rate burst nothing own).map (fun g => (g.1.now, decide (take g.2 = none))) =
      Bucket.grants rate burst none (own.map Call.now) := served_grants hrate horg nothing
  have hcount : (served true service rate burst nothing calls).countP (admitted s t org) =
      (Bucket.grants rate burst none (own.map Call.now)).countP (Bucket.within s t) := by
    rw [hforever, ← hgrants, ← hown, List.countP_map, List.countP_filter]
    congr 1
    funext g
    rw [Bool.eq_iff_iff]
    simp only [admitted, Bucket.within, Function.comp_apply, Bool.and_eq_true, decide_eq_true_eq]
    tauto
  rw [hcount]
  exact Bucket.grants_within hrate (by linarith) htimes (by simp) hst

theorem two_tokens_bound_every_window :
    BoundsEveryWindow "shipment" 1 2 [⟨"a", 0⟩, ⟨"a", 0⟩, ⟨"b", 0⟩, ⟨"a", 1 / 4⟩, ⟨"a", 1⟩] :=
  bucket_bounds_every_window _ _ _ _ (by decide) (by decide) (by decide +kernel)

example : (served true "shipment" 1 2 nothing [⟨"a", 0⟩, ⟨"a", 0⟩, ⟨"b", 0⟩, ⟨"a", 1 / 4⟩, ⟨"a", 1⟩]).map Prod.snd =
    [0, 0, 0, 750, 0] := by
  decide +kernel

end TheCargo.Middleware.TokenBucket
