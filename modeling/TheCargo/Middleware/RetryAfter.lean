import TheCargo.Middleware.TokenBucket

namespace TheCargo.Middleware.TokenBucket

open Foundation

variable (service : String) (rate burst : ℚ)

def replay (store : Store) (calls : List Call) : Store :=
  calls.foldl (fun store call => (script true service rate burst store call).2) store

def retry (store : Store) (call : Call) : ℤ := (script true service rate burst store call).1

def available (store : Store) (call : Call) : ℚ :=
  let state := read true store (redisKey service call.org) call.now
  min burst ((state.map Bucket.tokens).getD burst + max 0 (call.now - (state.map Bucket.since).getD call.now) * rate)

variable {service rate burst} {store : Store} {call : Call}

lemma available_level : available service rate burst store call =
    Bucket.level rate burst (read true store (redisKey service call.org) call.now) call.now :=
  tokens_level _ _

lemma admits_iff (hrate : 0 < rate) (store : Store) (call : Call) :
    take (retry service rate burst store call) = none ↔ 1 ≤ available service rate burst store call := by
  rw [available_level]
  exact script_admits hrate store call

lemma retry_refused (h : available service rate burst store call < 1) :
    retry service rate burst store call = ⌈(1 - available service rate burst store call) / rate * 1000⌉ := by
  have hlack : ¬ 1 ≤ available service rate burst store call := not_le.mpr h
  rw [available] at hlack ⊢
  simp only [retry, script, if_neg hlack]

lemma retry_pos (hrate : 0 < rate) (h : available service rate burst store call < 1) :
    1 ≤ retry service rate burst store call := by
  rw [retry_refused h]
  apply Int.one_le_ceil_iff.mpr
  have hlack := sub_pos.mpr h
  positivity

lemma take_least {retryMs : ℤ} (h : 1 ≤ retryMs) :
    ∃ seconds, take retryMs = some seconds ∧ IsLeast {n : ℤ | 1 ≤ n ∧ (retryMs : ℚ) / 1000 ≤ n} seconds := by
  refine ⟨max 1 ⌈(retryMs : ℚ) / 1000⌉, if_neg (by omega), ⟨le_max_left _ _, ?_⟩, ?_⟩
  · have hceil : (retryMs : ℚ) / 1000 ≤ ⌈(retryMs : ℚ) / 1000⌉ := Int.le_ceil _
    have hmax : ⌈(retryMs : ℚ) / 1000⌉ ≤ max 1 ⌈(retryMs : ℚ) / 1000⌉ := le_max_right _ _
    exact hceil.trans (Int.cast_le.mpr hmax)
  · rintro n ⟨hone, hn⟩
    exact max_le hone (Int.ceil_le.mpr hn)

lemma sane_replay (hrate : 0 < rate) (hburst : 1 ≤ burst) (calls : List Call)
    (h : ∀ key, ∀ e ∈ store key, Sane rate burst e) :
    ∀ key, ∀ e ∈ replay service rate burst store calls key, Sane rate burst e := by
  induction calls generalizing store with
  | nil => exact h
  | cons call calls ih => exact ih (script_sane hrate hburst h call)

lemma available_of_entry (hrate : 0 < rate) (hsane : ∀ key, ∀ e ∈ store key, Sane rate burst e) {e : Entry}
    (he : store (redisKey service call.org) = some e) :
    available service rate burst store call = Bucket.level rate burst (some e.bucket) call.now := by
  rw [available_level, level_read hrate (hsane _), read_false, he, Option.map_some]

def Fills (service : String) (rate : ℚ) (org : String) (b : Bucket ℚ) (now : ℚ) (store : Store) : Prop :=
  ∃ e, store (redisKey service org) = some e ∧ Bucket.Follows rate b e.bucket ∧ e.bucket.since ≤ now

lemma fills_refused (h : available service rate burst store call < 1) :
    Fills service rate call.org ⟨available service rate burst store call, call.now⟩ call.now
      (script true service rate burst store call).2 := by
  have hentry : (script true service rate burst store call).2 (redisKey service call.org) =
      some ⟨⟨available service rate burst store call, call.now⟩,
        milliseconds call.now + (⌈burst / rate * 1000⌉ + 1000)⟩ := by
    rw [available_level] at h ⊢
    rw [script_store, Function.update_self, Bucket.draw_refused h]
  exact ⟨_, hentry, Bucket.Follows.refl _, le_rfl⟩

lemma Fills.available {org : String} {b : Bucket ℚ} {now : ℚ} (hfills : Fills service rate org b now store)
    (hrate : 0 < rate) (hburst : 1 ≤ burst) (hsane : ∀ key, ∀ e ∈ store key, Sane rate burst e) (horg : call.org = org)
    (hnow : now ≤ call.now) :
    1 ≤ TokenBucket.available service rate burst store call ↔ 1 ≤ b.tokens + (call.now - b.since) * rate := by
  subst horg
  obtain ⟨e, he, hfollows, hsince⟩ := hfills
  rw [available_of_entry hrate hsane he]
  exact hfollows.level hburst (hsince.trans hnow)

lemma Fills.script {org : String} {b : Bucket ℚ} {now : ℚ} (hfills : Fills service rate org b now store)
    (hrate : 0 < rate) (hburst : 1 ≤ burst) (hsane : ∀ key, ∀ e ∈ store key, Sane rate burst e) (hnow : now ≤ call.now)
    (hrefused : call.org = org → take (retry service rate burst store call) ≠ none) :
    Fills service rate org b call.now (script true service rate burst store call).2 := by
  obtain ⟨e, he, hfollows, hsince⟩ := hfills
  by_cases horg : call.org = org
  · subst horg
    have hlevel : Bucket.level rate burst (some e.bucket) call.now < 1 := by
      have hadmits : take (retry service rate burst store call) = none ↔ _ := admits_iff hrate store call
      rw [available_of_entry hrate hsane he] at hadmits
      exact not_le.mp (fun hle => hrefused rfl (hadmits.mpr hle))
    have hentry : (TokenBucket.script true service rate burst store call).2 (redisKey service call.org) =
        some ⟨Bucket.draw rate burst (some e.bucket) call.now,
          milliseconds call.now + (⌈burst / rate * 1000⌉ + 1000)⟩ := by
      rw [script_forever hrate hsane, script_store, Function.update_self, read_false, he, Option.map_some]
    exact ⟨_, hentry, hfollows.draw hburst (hsince.trans hnow) hlevel, le_rfl⟩
  · have hkey : redisKey service org ≠ redisKey service call.org := fun hk => horg (redisKey_inj hk).symm
    refine ⟨e, ?_, hfollows, hsince.trans hnow⟩
    rw [script_store, Function.update_of_ne hkey, he]

lemma Fills.replay {org : String} {b : Bucket ℚ} {now t : ℚ} {calls : List Call}
    (hfills : Fills service rate org b now store) (hrate : 0 < rate) (hburst : 1 ≤ burst)
    (hsane : ∀ key, ∀ e ∈ store key, Sane rate burst e)
    (hsorted : calls.Pairwise (fun a b => a.now ≤ b.now)) (hlate : ∀ c ∈ calls, now ≤ c.now)
    (hend : ∀ c ∈ calls, c.now ≤ t) (ht : now ≤ t)
    (hrefused : ∀ g ∈ served true service rate burst store calls, g.1.org = org → take g.2 ≠ none) :
    Fills service rate org b t (replay service rate burst store calls) := by
  induction calls generalizing store now with
  | nil =>
    obtain ⟨e, he, hfollows, hsince⟩ := hfills
    exact ⟨e, he, hfollows, hsince.trans ht⟩
  | cons call calls ih =>
    obtain ⟨hfirst, hrest⟩ := List.pairwise_cons.mp hsorted
    obtain ⟨hcall, hcalls⟩ := List.forall_mem_cons.mp hrefused
    have hnow := hlate call List.mem_cons_self
    exact ih (hfills.script hrate hburst hsane hnow hcall) (script_sane hrate hburst hsane call) hrest hfirst
      (fun c hc => hend c (List.mem_cons_of_mem _ hc)) (hend call List.mem_cons_self) hcalls

lemma fills_until {before between : List Call} {next : Call} (hrate : 0 < rate) (hburst : 1 ≤ burst)
    (hsorted : (before ++ call :: (between ++ [next])).Pairwise (fun a b => a.now ≤ b.now))
    (hrefused : available service rate burst (replay service rate burst nothing before) call < 1)
    (hbetween : ∀ g ∈ served true service rate burst (replay service rate burst nothing (before ++ [call])) between,
      g.1.org = call.org → take g.2 ≠ none) :
    Fills service rate call.org ⟨available service rate burst (replay service rate burst nothing before) call, call.now⟩
      next.now (replay service rate burst nothing (before ++ call :: between)) := by
  have hstore : replay service rate burst nothing (before ++ [call]) =
      (script true service rate burst (replay service rate burst nothing before) call).2 := List.foldl_append
  have hlater : replay service rate burst nothing (before ++ call :: between) =
      replay service rate burst (replay service rate burst nothing (before ++ [call])) between := by
    simp only [replay, List.foldl_append, List.foldl_cons, List.foldl_nil]
  have hsane : ∀ key, ∀ e ∈ replay service rate burst nothing (before ++ [call]) key, Sane rate burst e :=
    sane_replay hrate hburst _ nofun
  obtain ⟨hcall, hrest⟩ := List.pairwise_cons.mp (List.pairwise_append.mp hsorted).2.1
  obtain ⟨hbetweenSorted, -, hnext⟩ := List.pairwise_append.mp hrest
  have hcalled := fills_refused hrefused
  rw [← hstore] at hcalled
  rw [hlater]
  refine hcalled.replay hrate hburst hsane hbetweenSorted ?_ ?_ ?_ hbetween
  · exact fun c hc => hcall c (List.mem_append_left _ hc)
  · exact fun c hc => hnext c hc next (List.mem_singleton_self next)
  · exact hcall next (List.mem_append_right _ (List.mem_singleton_self next))

lemma filled_after {found passed : ℚ} (hrate : 0 < rate)
    (h : (⌈(1 - found) / rate * 1000⌉ : ℚ) / 1000 ≤ passed) : 1 ≤ found + passed * rate := by
  have hceil := Int.le_ceil ((1 - found) / rate * 1000)
  have htime : (1 - found) / rate ≤ passed := by linarith
  have hroom := (div_le_iff₀ hrate).mp htime
  linarith

lemma not_filled_before {found passed : ℚ} (hrate : 0 < rate)
    (h : passed ≤ ((⌈(1 - found) / rate * 1000⌉ : ℚ) - 1) / 1000) : ¬ 1 ≤ found + passed * rate := by
  have hceil := Int.ceil_lt_add_one ((1 - found) / rate * 1000)
  have htime : passed < (1 - found) / rate := by linarith
  have hroom := (lt_div_iff₀ hrate).mp htime
  exact not_le.mpr (by linarith)

theorem retry_after_is_honest (service : String) (rate burst : ℚ) (before between : List Call) (call next : Call)
    (hrate : 0 < rate) (hburst : 1 ≤ burst)
    (hsorted : (before ++ call :: (between ++ [next])).Pairwise (fun a b => a.now ≤ b.now))
    (hrefused : available service rate burst (replay service rate burst nothing before) call < 1)
    (hbetween : ∀ g ∈ served true service rate burst (replay service rate burst nothing (before ++ [call])) between,
      g.1.org = call.org → take g.2 ≠ none)
    (horg : next.org = call.org) :
    let retryMs := retry service rate burst (replay service rate burst nothing before) call
    let later := replay service rate burst nothing (before ++ call :: between)
    1 ≤ retryMs ∧
      (∃ seconds, take retryMs = some seconds ∧ IsLeast {n : ℤ | 1 ≤ n ∧ (retryMs : ℚ) / 1000 ≤ n} seconds) ∧
      (call.now + (retryMs : ℚ) / 1000 ≤ next.now →
        1 ≤ available service rate burst later next ∧ take (retry service rate burst later next) = none) ∧
      (next.now ≤ call.now + ((retryMs : ℚ) - 1) / 1000 →
        available service rate burst later next < 1 ∧ take (retry service rate burst later next) ≠ none) := by
  intro retryMs later
  have hpos : 1 ≤ retryMs := retry_pos hrate hrefused
  let found := available service rate burst (replay service rate burst nothing before) call
  have hfills : Fills service rate call.org ⟨found, call.now⟩ next.now later :=
    fills_until hrate hburst hsorted hrefused hbetween
  have hsane : ∀ key, ∀ e ∈ later key, Sane rate burst e := sane_replay hrate hburst _ nofun
  have hadmitted : 1 ≤ available service rate burst later next ↔ 1 ≤ found + (next.now - call.now) * rate :=
    hfills.available hrate hburst hsane horg le_rfl
  have hwait : retryMs = ⌈(1 - found) / rate * 1000⌉ := retry_refused hrefused
  refine ⟨hpos, take_least hpos, ?_, ?_⟩
  · intro hlate
    rw [hwait] at hlate
    have hnow := hadmitted.mpr (filled_after hrate (le_sub_iff_add_le'.mpr hlate))
    exact ⟨hnow, (admits_iff hrate later next).mpr hnow⟩
  · intro hearly
    rw [hwait] at hearly
    have hnow := fun hle => not_filled_before hrate (sub_le_iff_le_add'.mpr hearly) (hadmitted.mp hle)
    exact ⟨not_le.mp hnow, fun htake => hnow ((admits_iff hrate later next).mp htake)⟩

theorem a_refused_call_waits_for_its_token :
    let retryMs := retry "shipment" 1 2 (replay "shipment" 1 2 nothing [⟨"a", 0⟩, ⟨"a", 0⟩]) ⟨"a", 1 / 4⟩
    let later := replay "shipment" 1 2 nothing [⟨"a", 0⟩, ⟨"a", 0⟩, ⟨"a", 1 / 4⟩, ⟨"b", 1 / 4⟩, ⟨"a", 1 / 2⟩]
    1 ≤ retryMs ∧
      (∃ seconds, take retryMs = some seconds ∧ IsLeast {n : ℤ | 1 ≤ n ∧ (retryMs : ℚ) / 1000 ≤ n} seconds) ∧
      (1 / 4 + (retryMs : ℚ) / 1000 ≤ 1 →
        1 ≤ available "shipment" 1 2 later ⟨"a", 1⟩ ∧ take (retry "shipment" 1 2 later ⟨"a", 1⟩) = none) ∧
      (1 ≤ 1 / 4 + ((retryMs : ℚ) - 1) / 1000 →
        available "shipment" 1 2 later ⟨"a", 1⟩ < 1 ∧ take (retry "shipment" 1 2 later ⟨"a", 1⟩) ≠ none) :=
  retry_after_is_honest "shipment" 1 2 [⟨"a", 0⟩, ⟨"a", 0⟩] [⟨"b", 1 / 4⟩, ⟨"a", 1 / 2⟩] ⟨"a", 1 / 4⟩ ⟨"a", 1⟩
    (by decide) (by decide) (by decide +kernel) (by decide +kernel) (by decide +kernel) rfl

end TheCargo.Middleware.TokenBucket
