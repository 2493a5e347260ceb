import TheCargo.Consent.Contactability
import TheCargo.Foundation.Grouping
import TheCargo.Foundation.Runs

/-! One query for the histories of many numbers, and the checks that read them from the cache. -/

namespace TheCargo.Consent

open Foundation Foundation.Runs Models Utils.Phone Db.Types

variable (phonenumbers : PhoneNumbers) (db : ConsentTable)

structure Prefetched where
  cache : ConsentCache
  queries : ℕ

def among (organizationId : UUID) (normalized : List String) : List ConsentRow :=
  db.filter (fun row => row.columns.organizationId = organizationId &&
    normalized.any (fun number =>
      USPhoneType.processBindParam phonenumbers (some number) = some row.columns.customerNumber))

def selectIn (organizationId : UUID) (normalized : List String) : List ConsentRecord :=
  (sortedBy ConsentRow.createdAt (among phonenumbers db organizationId normalized)).map ConsentRow.object

def group (normalized : List String) (rows : List ConsentRecord) : Dict String (List ConsentRecord) :=
  rows.foldl (fun grouped row => grouped.append row.customerNumber row) (Dict.ofKeys normalized [])

def normalizedNumbers (customerNumbers : List String) : List String :=
  ((customerNumbers.filter (fun n => n ≠ "")).map (normalizedCustomer phonenumbers)).dedup

def prefetchConsentStates (organizationId : UUID) (customerNumbers : List String) (cache : ConsentCache) : Prefetched :=
  let normalized := normalizedNumbers phonenumbers customerNumbers
  if normalized = [] then ⟨cache, 0⟩
  else
    let grouped := group normalized (selectIn phonenumbers db organizationId normalized)
    ⟨grouped.items.foldl (fun cache e => cache.set (consentCacheKey organizationId e.1) e.2) cache, 1⟩

inductive Call
  | prefetch (organizationId : UUID) (customerNumbers : List String)
  | check (organizationId : UUID) (customerNumber : String) (ourLine : Option String) (channel : ConsentChannel)
      (sendType : SendType)

-- The shared dict and the numbers that were prefetched into it so far.
structure Batch where
  cache : ConsentCache
  prefetched : List (UUID × String)

def Batch.start : Batch := ⟨Dict.empty, []⟩

def Batch.step (b : Batch) : Call → Option Batch
  | .prefetch organizationId customerNumbers =>
    some ⟨(prefetchConsentStates phonenumbers db organizationId customerNumbers b.cache).cache,
      b.prefetched ++ (customerNumbers.filter (fun n => n ≠ "")).map (fun n => (organizationId, n))⟩
  | .check organizationId customerNumber ourLine channel sendType =>
    let checked := checkContactability phonenumbers db organizationId customerNumber ourLine channel sendType
      (some b.cache)
    some { b with cache := checked.cache.getD b.cache }

def Agrees (b : Batch) : Call → Prop
  | .prefetch _ _ => True
  | .check organizationId customerNumber ourLine channel sendType =>
    let checked := checkContactability phonenumbers db organizationId customerNumber ourLine channel sendType
      (some b.cache)
    checked.result =
        (checkContactability phonenumbers db organizationId customerNumber ourLine channel sendType none).result ∧
      ((∃ n, (organizationId, n) ∈ b.prefetched ∧
          normalizedCustomer phonenumbers n = normalizedCustomer phonenumbers customerNumber) →
        checked.queries = 0)

def ReadsAsStored : Call → Prop
  | .prefetch organizationId customerNumbers =>
    ∀ row ∈ among phonenumbers db organizationId (normalizedNumbers phonenumbers customerNumbers),
      row.object.customerNumber = row.columns.customerNumber
  | .check _ _ _ _ _ => True

structure Seeded (b : Batch) : Prop where
  histories : ∀ organizationId number records, b.cache.get? (organizationId, number) = some records →
    records = loadConsentState phonenumbers db organizationId number
  held : ∀ organizationId n, (organizationId, n) ∈ b.prefetched →
    (b.cache.get? (organizationId, normalizedCustomer phonenumbers n)).isSome

variable {phonenumbers db}

lemma seeded_start : Seeded phonenumbers db Batch.start := by
  refine ⟨?_, ?_⟩
  · intro organizationId number records h
    cases h
  · intro organizationId n h
    cases h

lemma bind_of_normal (hi : Idempotent phonenumbers) {number : String}
    (hnormal : normalizedCustomer phonenumbers number = number) :
    USPhoneType.processBindParam phonenumbers (some number) = some number ∨
      USPhoneType.processBindParam phonenumbers (some number) = none := by
  rw [USPhoneType.processBindParam]
  split
  · exact Or.inl rfl
  · split
    · rename_i normalized hok
      cases normalized with
      | none => exact Or.inr rfl
      | some p =>
        have hp : normalizePhone phonenumbers (some number) = some p := normalizePhone_eq_some.mpr hok
        rw [normalizedCustomer, hp, orElse_some (hi.ne_empty hp)] at hnormal
        exact Or.inl (by rw [hnormal])
    · exact Or.inl rfl

lemma normal_of_mem (hi : Idempotent phonenumbers) {customerNumbers : List String} {number : String}
    (h : number ∈ normalizedNumbers phonenumbers customerNumbers) :
    normalizedCustomer phonenumbers number = number := by
  obtain ⟨n, _, rfl⟩ := List.mem_map.mp (List.mem_dedup.mp h)
  exact normalizedCustomer_fixed hi n

lemma mem_among (hi : Idempotent phonenumbers) {organizationId : UUID} {customerNumbers : List String}
    {row : ConsentRow}
    (h : row ∈ among phonenumbers db organizationId (normalizedNumbers phonenumbers customerNumbers)) :
    row.columns.customerNumber ∈ normalizedNumbers phonenumbers customerNumbers := by
  obtain ⟨_, hany⟩ := Bool.and_eq_true_iff.mp (List.mem_filter.mp h).2
  obtain ⟨number, hnumber, hbind⟩ := List.any_eq_true.mp hany
  have hbind := of_decide_eq_true hbind
  rcases bind_of_normal hi (normal_of_mem hi hnumber) with hsame | hnone
  · rw [hsame] at hbind
    rwa [← Option.some.inj hbind]
  · rw [hnone] at hbind
    cases hbind

lemma among_own (hi : Idempotent phonenumbers) {organizationId : UUID} {customerNumbers : List String}
    {number : String} (h : number ∈ normalizedNumbers phonenumbers customerNumbers) :
    (among phonenumbers db organizationId (normalizedNumbers phonenumbers customerNumbers)).filter
        (fun row => row.columns.customerNumber = number) =
      ofCustomer phonenumbers db organizationId number := by
  rw [among, ofCustomer, List.filter_filter, normal_of_mem hi h]
  apply List.filter_congr
  intro row _
  rw [Bool.eq_iff_iff]
  simp only [Bool.and_eq_true, decide_eq_true_eq, List.any_eq_true]
  constructor
  · rintro ⟨hown, horg, other, hother, hbind⟩
    refine ⟨horg, ?_⟩
    rcases bind_of_normal hi (normal_of_mem hi hother) with hsame | hnone
    · rw [hsame] at hbind
      have hnumber : other = number := (Option.some.inj hbind).trans hown
      subst hnumber
      rw [hsame, hown]
    · rw [hnone] at hbind
      cases hbind
  · rintro ⟨horg, hbind⟩
    rcases bind_of_normal hi (normal_of_mem hi h) with hsame | hnone
    · have hown := Option.some.inj (hbind.symm.trans hsame)
      exact ⟨hown, horg, number, h, hbind⟩
    · rw [hnone] at hbind
      cases hbind

lemma selectIn_own (hi : Idempotent phonenumbers) {organizationId : UUID} {customerNumbers : List String}
    (hread : ReadsAsStored phonenumbers db (.prefetch organizationId customerNumbers)) {number : String}
    (h : number ∈ normalizedNumbers phonenumbers customerNumbers) :
    (selectIn phonenumbers db organizationId (normalizedNumbers phonenumbers customerNumbers)).filter
        (fun row => row.customerNumber = number) =
      loadConsentState phonenumbers db organizationId number := by
  rw [selectIn, loadConsentState, List.filter_map, ← among_own hi h, ← filter_sortedBy]
  congr 1
  apply List.filter_congr
  intro row hrow
  rw [Function.comp_apply, hread row ((List.mem_insertionSort _).mp hrow)]

lemma group_get? (hi : Idempotent phonenumbers) {organizationId : UUID} {customerNumbers : List String}
    (hread : ReadsAsStored phonenumbers db (.prefetch organizationId customerNumbers)) (number : String) :
    (group (normalizedNumbers phonenumbers customerNumbers)
        (selectIn phonenumbers db organizationId (normalizedNumbers phonenumbers customerNumbers))).get? number =
      if number ∈ normalizedNumbers phonenumbers customerNumbers then
        some (loadConsentState phonenumbers db organizationId number)
      else none := by
  rw [group]
  split
  · rename_i h
    have hkey : (Dict.ofKeys (normalizedNumbers phonenumbers customerNumbers) ([] : List ConsentRecord)).get? number =
        some [] := by rw [Dict.get?_ofKeys, if_pos h]
    rw [Dict.get?_group _ hkey, List.nil_append, selectIn_own hi hread h]
  · rename_i h
    apply Dict.get?_group_none
    · rw [Dict.get?_ofKeys, if_neg h]
    · rintro _ hrecord rfl
      obtain ⟨row, hrow, rfl⟩ := List.mem_map.mp hrecord
      have hrow := (List.mem_insertionSort _).mp hrow
      exact h (hread row hrow ▸ mem_among hi hrow)

lemma prefetch_get? (hi : Idempotent phonenumbers) {organizationId : UUID} {customerNumbers : List String}
    (hread : ReadsAsStored phonenumbers db (.prefetch organizationId customerNumbers)) (cache : ConsentCache)
    (org : UUID) (number : String) :
    (prefetchConsentStates phonenumbers db organizationId customerNumbers cache).cache.get? (org, number) =
      if organizationId = org ∧ number ∈ normalizedNumbers phonenumbers customerNumbers then
        some (loadConsentState phonenumbers db organizationId number)
      else cache.get? (org, number) := by
  rw [prefetchConsentStates]
  by_cases hnone : normalizedNumbers phonenumbers customerNumbers = []
  · rw [if_pos hnone, hnone]
    simp
  · rw [if_neg hnone]
    dsimp only [consentCacheKey]
    rw [Dict.get?_write, group_get? hi hread]
    by_cases horg : organizationId = org <;>
      by_cases hnumber : number ∈ normalizedNumbers phonenumbers customerNumbers <;> simp [horg, hnumber]

variable {b v : Batch}

lemma Seeded.prefetch (h : Seeded phonenumbers db b) (hi : Idempotent phonenumbers) {organizationId : UUID}
    {customerNumbers : List String} (hread : ReadsAsStored phonenumbers db (.prefetch organizationId customerNumbers))
    (hv : b.step phonenumbers db (.prefetch organizationId customerNumbers) = some v) :
    Seeded phonenumbers db v := by
  obtain rfl := Option.some.inj hv
  refine ⟨?_, ?_⟩
  · intro org number records hget
    rw [prefetch_get? hi hread] at hget
    split at hget
    · rename_i hnew
      rw [← hnew.1]
      exact (Option.some.inj hget).symm
    · exact h.histories org number records hget
  · intro org n hn
    rw [prefetch_get? hi hread]
    split
    · rfl
    · rename_i hold
      rcases List.mem_append.mp hn with hn | hn
      · exact h.held org n hn
      · obtain ⟨m, hm, hpair⟩ := List.mem_map.mp hn
        obtain ⟨rfl, rfl⟩ := Prod.mk.inj hpair
        exact absurd ⟨rfl, List.mem_dedup.mpr (List.mem_map_of_mem hm)⟩ hold

lemma Seeded.check (h : Seeded phonenumbers db b) {organizationId : UUID} {customerNumber : String}
    {ourLine : Option String} {channel : ConsentChannel} {sendType : SendType}
    (hv : b.step phonenumbers db (.check organizationId customerNumber ourLine channel sendType) = some v) :
    Seeded phonenumbers db v := by
  obtain rfl := Option.some.inj hv
  simp only [checkContactability, consentCacheKey]
  split
  · exact h
  · simp only [Option.getD_some]
    refine ⟨?_, ?_⟩
    · intro org number records hget
      rw [Dict.get?_set] at hget
      split at hget
      · rename_i hkey
        obtain ⟨rfl, rfl⟩ := Prod.mk.inj hkey
        exact (Option.some.inj hget).symm
      · exact h.histories org number records hget
    · intro org n hn
      rw [Dict.get?_set]
      split
      · rfl
      · exact h.held org n hn

lemma Seeded.step (h : Seeded phonenumbers db b) (hi : Idempotent phonenumbers) {call : Call}
    (hread : ReadsAsStored phonenumbers db call) (hv : b.step phonenumbers db call = some v) :
    Seeded phonenumbers db v := by
  cases call with
  | prefetch organizationId customerNumbers => exact h.prefetch hi hread hv
  | check organizationId customerNumber ourLine channel sendType => exact h.check hv

lemma Seeded.agrees (h : Seeded phonenumbers db b) (call : Call) : Agrees phonenumbers db b call := by
  cases call with
  | prefetch organizationId customerNumbers => trivial
  | check organizationId customerNumber ourLine channel sendType =>
    simp only [Agrees, checkContactability, consentCacheKey]
    cases hget : b.cache.get? (organizationId, normalizedCustomer phonenumbers customerNumber) with
    | some records =>
      refine ⟨?_, fun _ => rfl⟩
      rw [h.histories organizationId _ records hget]
    | none =>
      refine ⟨rfl, ?_⟩
      rintro ⟨n, hn, hsame⟩
      have hheld := h.held organizationId n hn
      rw [hsame, hget] at hheld
      cases hheld

theorem bulk_checks_agree (phonenumbers : PhoneNumbers) (db : ConsentTable) (calls : List Call)
    (hi : Idempotent phonenumbers)
    (hread : Along (Batch.step phonenumbers db) (fun _ call => ReadsAsStored phonenumbers db call) Batch.start calls) :
    Along (Batch.step phonenumbers db) (Agrees phonenumbers db) Batch.start calls :=
  hread.imp (fun _ call hb _ => hb.agrees call) (fun _ _ _ hb hread hv => hb.step hi hread hv) seeded_start

def twoSpellings : PhoneNumbers where
  PhoneNumber := Unit
  parse value _ :=
    if value = "(323) 555-0100" ∨ value = "+13235550100" then .ok ()
    else .error "(1) The string supplied did not seem to be a phone number."
  isValidNumber _ := true
  formatNumber _ _ := "+13235550100"

lemma twoSpellings_idempotent : Idempotent twoSpellings := by
  intro value p h
  have hp : p = "+13235550100" := by
    cases value with
    | none => simp [normalizeUsPhone] at h
    | some value =>
      simp only [normalizeUsPhone, twoSpellings] at h
      split_ifs at h <;> simp_all
  rw [hp]
  decide

def optedOut : ConsentRecord :=
  ⟨7, 1, "+13235550100", .text, .global, none, .doNotText, .keyword, none, none, none, 100⟩

theorem a_prefetched_number_agrees :
    Along (Batch.step twoSpellings [⟨optedOut, none⟩]) (Agrees twoSpellings [⟨optedOut, none⟩]) Batch.start
      [.prefetch 1 ["(323) 555-0100", "50%"], .check 1 "+13235550100" none .text .mass,
        .check 1 "50%" none .text .mass] := by
  refine bulk_checks_agree twoSpellings _ _ twoSpellings_idempotent ⟨?_, fun _ _ => ⟨trivial, fun _ _ => ⟨trivial, ?_⟩⟩⟩
  · intro row hrow
    obtain rfl := List.mem_singleton.mp (List.mem_filter.mp hrow).1
    rfl
  · exact fun _ _ => trivial

theorem a_row_of_the_session_is_missed :
    USPhoneType.processBindParam twoSpellings (some "(323) 555-0100") = some optedOut.customerNumber ∧
      ¬ Along (Batch.step twoSpellings [⟨optedOut, some ("(323) 555-0100", none)⟩])
        (Agrees twoSpellings [⟨optedOut, some ("(323) 555-0100", none)⟩]) Batch.start
        [.prefetch 1 ["(323) 555-0100"], .check 1 "(323) 555-0100" none .text .mass] := by
  refine ⟨by decide, fun h => ?_⟩
  have hcheck := (h.2 _ rfl).1.1
  revert hcheck
  decide

end TheCargo.Consent
