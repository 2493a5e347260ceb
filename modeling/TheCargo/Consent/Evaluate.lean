import TheCargo.Foundation.Latest
import TheCargo.Models.ConsentRecord

namespace TheCargo.Consent

open Foundation Models

inductive Decision
  | allow
  | warn
  | block
  deriving DecidableEq, Repr

structure ContactabilityResult where
  decision : Decision
  reason : Option String := none
  status : Option ConsentStatus := none
  source : Option ConsentSource := none
  sourceDetail : Option String := none
  lineNumber : Option String := none
  recordedAt : Option Instant := none
  reasonRecordId : Option UUID := none
  deriving DecidableEq, Repr

def allowResult : ContactabilityResult := { decision := .allow }

abbrev Bucket := ConsentChannel × ConsentScope × Option String

def bucket (row : ConsentRecord) : Bucket := (row.channel, row.scope, row.lineNumber)

def latestByBucket (records : List ConsentRecord) : Dict Bucket ConsentRecord :=
  latest bucket ConsentRecord.createdAt records

def newestRow (records : List ConsentRecord) (b : Bucket) : Option ConsentRecord :=
  newestAt bucket ConsentRecord.createdAt records b

@[simp] lemma latestByBucket_get? (records : List ConsentRecord) (b : Bucket) :
    (latestByBucket records).get? b = newestRow records b :=
  latest_get? bucket ConsentRecord.createdAt records b

def restrictive (row : ConsentRecord) : Bool := row.status ≠ .allowed

def candidates (records : List ConsentRecord) (channel : ConsentChannel) (ourLine : Option String) :
    List ConsentRecord :=
  let latest := latestByBucket records
  let globalRow := ((latest.get? (channel, .global, none)).filter restrictive).toList
  match ourLine with
  | none => globalRow
  | some line =>
    globalRow ++ ((latest.get? (channel, .line, some line)).filter restrictive).toList ++
      ((latest.items.filter (fun e => e.1 = (channel, .line, none))).map Prod.snd).filter restrictive

def otherLineBlocks (records : List ConsentRecord) (channel : ConsentChannel)
    (ourLine : Option String) : List ConsentRecord :=
  ((latestByBucket records).items.filter (fun e =>
    e.1.1 = channel && e.1.2.1 = .line && e.1.2.2 ≠ none && e.1.2.2 ≠ ourLine &&
      restrictive e.2)).map Prod.snd

def pickEffective (records : List ConsentRecord) (channel : ConsentChannel)
    (ourLine : Option String) : Option ConsentRecord :=
  if (candidates records channel ourLine).isEmpty && (otherLineBlocks records channel ourLine).isEmpty then
    none
  else if !(candidates records channel ourLine).isEmpty then
    (candidates records channel ourLine).argmax ConsentRecord.createdAt
  else (otherLineBlocks records channel ourLine).argmax ConsentRecord.createdAt

def wrongNumberRow (records : List ConsentRecord) : Option ConsentRecord :=
  let latest := latestByBucket records
  let row := latest.get? (.call, .global, none)
  let textRow := latest.get? (.text, .global, none)
  let candidates := (row.toList ++ textRow.toList).filter (fun r => r.status = .wrongNumber)
  if candidates.isEmpty then none else candidates.argmax ConsentRecord.createdAt

def block (row : ConsentRecord) (reason : String) : ContactabilityResult where
  decision := .block
  reason := reason
  status := row.status
  source := row.source
  sourceDetail := row.sourceDetail
  lineNumber := row.lineNumber
  recordedAt := row.createdAt
  reasonRecordId := row.id

def warn (row : ConsentRecord) (reason : String) : ContactabilityResult where
  decision := .warn
  reason := reason
  status := row.status
  source := row.source
  sourceDetail := row.sourceDetail
  lineNumber := row.lineNumber
  recordedAt := row.createdAt
  reasonRecordId := row.id

def judge (effective : ConsentRecord) (channel : ConsentChannel) (ourLine : Option String)
    (sendType : SendType) : ContactabilityResult :=
  if channel = .call ∧ effective.status = .doNotCall then block effective "do_not_call"
  else if channel = .text ∧ effective.status = .doNotText then
    if effective.scope = .global then block effective "do_not_text_global"
    else if effective.lineNumber = none then block effective "do_not_text_legacy_any_line"
    else if ourLine ≠ none ∧ effective.lineNumber = ourLine then
      block effective "do_not_text_same_line"
    else if ourLine = none ∧ (sendType = .mass ∨ sendType = .automated) then
      block effective "do_not_text_other_line_bulk"
    else warn effective "do_not_text_other_line"
  else allowResult

def evaluate (records : List ConsentRecord) (channel : ConsentChannel) (ourLine : Option String)
    (sendType : SendType) : ContactabilityResult :=
  if records.isEmpty then allowResult
  else
    match wrongNumberRow records with
    | some wrong => block wrong "wrong_number"
    | none =>
      match pickEffective records channel ourLine with
      | none => allowResult
      | some effective => judge effective channel ourLine sendType

def coveringBuckets (channel : ConsentChannel) (ourLine : Option String) : List Bucket :=
  (channel, .global, none) ::
    match ourLine with
    | none => []
    | some line => [(channel, .line, some line), (channel, .line, none)]

def coveringRows (records : List ConsentRecord) (channel : ConsentChannel)
    (ourLine : Option String) : List ConsentRecord :=
  (coveringBuckets channel ourLine).filterMap (newestRow records)

def doNot : ConsentChannel → ConsentStatus
  | .call => .doNotCall
  | .text => .doNotText

lemma bucket_of_newestRow {records : List ConsentRecord} {b : Bucket} {row : ConsentRecord}
    (h : newestRow records b = some row) : bucket row = b :=
  (newestAt_spec _ _ h).2.1

lemma mem_of_newestRow {records : List ConsentRecord} {b : Bucket} {row : ConsentRecord}
    (h : newestRow records b = some row) : row ∈ records :=
  (newestAt_spec _ _ h).1

lemma mem_coveringRows {records : List ConsentRecord} {channel : ConsentChannel}
    {ourLine : Option String} {row : ConsentRecord} :
    row ∈ coveringRows records channel ourLine ↔
      bucket row ∈ coveringBuckets channel ourLine ∧ newestRow records (bucket row) = some row := by
  simp only [coveringRows, List.mem_filterMap]
  constructor
  · rintro ⟨b, hb, hn⟩
    obtain rfl := bucket_of_newestRow hn
    exact ⟨hb, hn⟩
  · rintro ⟨hb, hn⟩
    exact ⟨_, hb, hn⟩

lemma coveringRows_line (records : List ConsentRecord) (channel : ConsentChannel) (line : String) :
    coveringRows records channel (some line) =
      (newestRow records (channel, .global, none)).toList ++
        (newestRow records (channel, .line, some line)).toList ++
        (newestRow records (channel, .line, none)).toList := by
  simp only [coveringRows, coveringBuckets, List.filterMap_cons, List.filterMap_nil]
  cases newestRow records (channel, .global, none) <;>
    cases newestRow records (channel, .line, some line) <;>
      cases newestRow records (channel, .line, none) <;> rfl

lemma candidates_eq (records : List ConsentRecord) (channel : ConsentChannel)
    (ourLine : Option String) :
    candidates records channel ourLine = (coveringRows records channel ourLine).filter restrictive := by
  cases ourLine with
  | none =>
    simp only [candidates, latestByBucket_get?, Option.toList_filter, coveringRows, coveringBuckets,
      List.filterMap_cons, List.filterMap_nil]
    cases newestRow records (channel, .global, none) <;> rfl
  | some line =>
    have hlegacy : ((latestByBucket records).items.filter (fun e => e.1 = (channel, .line, none))).map Prod.snd =
        (newestRow records (channel, .line, none)).toList := by
      rw [Dict.items_at, latestByBucket_get?]
      cases newestRow records (channel, .line, none) <;> rfl
    simp only [candidates, latestByBucket_get?, Option.toList_filter, hlegacy, coveringRows_line,
      List.filter_append]

lemma pickEffective_of_candidates {records : List ConsentRecord} {channel : ConsentChannel}
    {ourLine : Option String} (h : candidates records channel ourLine ≠ []) :
    pickEffective records channel ourLine =
      (candidates records channel ourLine).argmax ConsentRecord.createdAt := by
  have he : (candidates records channel ourLine).isEmpty = false := by simpa using h
  simp [pickEffective, he]

lemma judge_block {channel : ConsentChannel} {ourLine : Option String} {sendType : SendType}
    {row : ConsentRecord} (h : bucket row ∈ coveringBuckets channel ourLine) :
    (judge row channel ourLine sendType).decision = .block ↔ row.status = doNot channel := by
  cases channel with
  | call => by_cases hs : row.status = .doNotCall <;> simp [judge, doNot, hs, block, allowResult]
  | text =>
    by_cases hs : row.status = .doNotText
    · have hr : row.scope = .global ∨ row.lineNumber = none ∨
          (ourLine ≠ none ∧ row.lineNumber = ourLine) := by
        cases ourLine with
        | none => exact Or.inl (by simpa [coveringBuckets, bucket] using h : _ ∧ _ ∧ _).2.1
        | some line =>
          simp only [coveringBuckets, bucket, List.mem_cons, Prod.mk.injEq, List.not_mem_nil,
            or_false] at h
          rcases h with h | h | h
          · exact Or.inl h.2.1
          · exact Or.inr (Or.inr ⟨by simp, h.2.2⟩)
          · exact Or.inr (Or.inl h.2.2)
      have hb : (judge row .text ourLine sendType).decision = .block := by
        simp only [judge, hs]
        rcases hr with hr | hr | hr
        · simp [hr, block]
        · by_cases hg : row.scope = .global <;> simp [hr, hg, block]
        · by_cases hg : row.scope = .global <;> by_cases hl : row.lineNumber = none <;>
            simp_all [block]
      simp [hb, hs, doNot]
    · simp [judge, doNot, hs, allowResult]

def WrongNumberStands (records : List ConsentRecord) : Prop :=
  ∃ channel row, newestRow records (channel, .global, none) = some row ∧ row.status = .wrongNumber

lemma wrongNumberRow_isSome (records : List ConsentRecord) :
    (wrongNumberRow records).isSome ↔ WrongNumberStands records := by
  let found := ((newestRow records (.call, .global, none)).toList ++
    (newestRow records (.text, .global, none)).toList).filter (fun r => r.status = .wrongNumber)
  have hw : wrongNumberRow records = found.argmax ConsentRecord.createdAt := by
    simp only [wrongNumberRow, latestByBucket_get?]
    split_ifs with he
    · simp [found, List.isEmpty_iff.mp he]
    · rfl
  have hf : (wrongNumberRow records).isSome ↔ ∃ r, r ∈ found := by
    rw [hw, Option.isSome_iff_ne_none, Ne, List.argmax_eq_none, List.eq_nil_iff_forall_not_mem]
    push Not
    rfl
  rw [hf]
  constructor
  · rintro ⟨r, hr⟩
    obtain ⟨hm, hs⟩ := List.mem_filter.mp hr
    rcases List.mem_append.mp hm with hm | hm
    · exact ⟨.call, r, Option.mem_toList.mp hm, of_decide_eq_true hs⟩
    · exact ⟨.text, r, Option.mem_toList.mp hm, of_decide_eq_true hs⟩
  · rintro ⟨channel, r, hn, hs⟩
    refine ⟨r, List.mem_filter.mpr ⟨List.mem_append.mpr ?_, decide_eq_true hs⟩⟩
    cases channel with
    | call => exact Or.inl (Option.mem_toList.mpr hn)
    | text => exact Or.inr (Option.mem_toList.mpr hn)

lemma evaluate_block {records : List ConsentRecord} {channel : ConsentChannel}
    {ourLine : Option String} {sendType : SendType} (h : candidates records channel ourLine ≠ []) :
    (evaluate records channel ourLine sendType).decision = .block ↔
      WrongNumberStands records ∨
        ∃ row, (candidates records channel ourLine).argmax ConsentRecord.createdAt = some row ∧
          (judge row channel ourLine sendType).decision = .block := by
  have hne : records.isEmpty = false := by
    obtain ⟨row, hrow⟩ := List.exists_mem_of_ne_nil _ h
    rw [candidates_eq] at hrow
    have hm := mem_of_newestRow (mem_coveringRows.mp (List.mem_of_mem_filter hrow)).2
    exact List.isEmpty_eq_false_iff.mpr (List.ne_nil_of_mem hm)
  rw [evaluate, hne, if_neg Bool.false_ne_true, ← wrongNumberRow_isSome,
    pickEffective_of_candidates h]
  cases hw : wrongNumberRow records with
  | some wrong => simp [block]
  | none =>
    obtain ⟨row, hrow⟩ := Option.ne_none_iff_exists'.mp
      (show (candidates records channel ourLine).argmax ConsentRecord.createdAt ≠ none by
        simpa using h)
    simp [hrow]

/-- Of the rows that cover a send and are not opt-ins, in the order of their buckets, some do-not row is newer than
every other row before it and no older than every other row after it. -/
def Unmasked (records : List ConsentRecord) (channel : ConsentChannel) (line : String) : Prop :=
  ∃ pre row post, (coveringRows records channel (some line)).filter restrictive = pre ++ row :: post ∧
    row.status = doNot channel ∧
    (∀ r ∈ pre, r.status ≠ doNot channel → r.createdAt < row.createdAt) ∧
    ∀ r ∈ post, r.status ≠ doNot channel → r.createdAt ≤ row.createdAt

theorem standing_opt_out_blocks_iff (records : List ConsentRecord) (channel : ConsentChannel)
    (line : String) (sendType : SendType)
    (h : ∃ b ∈ coveringBuckets channel (some line), ∃ row,
      newestRow records b = some row ∧ row.status = doNot channel) :
    (evaluate records channel (some line) sendType).decision = .block ↔
      WrongNumberStands records ∨ Unmasked records channel line := by
  have hc : candidates records channel (some line) ≠ [] := by
    obtain ⟨b, hb, row, hn, hs⟩ := h
    obtain rfl := bucket_of_newestRow hn
    rw [candidates_eq]
    apply List.ne_nil_of_mem (a := row)
    refine List.mem_filter.mpr ⟨mem_coveringRows.mpr ⟨hb, hn⟩, ?_⟩
    cases channel <;> simp [restrictive, hs, doNot]
  have hj : (∃ row, (candidates records channel (some line)).argmax ConsentRecord.createdAt = some row ∧
        (judge row channel (some line) sendType).decision = .block) ↔
      ∃ row, (candidates records channel (some line)).argmax ConsentRecord.createdAt = some row ∧
        row.status = doNot channel := by
    refine exists_congr fun row => and_congr_right fun hrow => judge_block ?_
    have hm := List.argmax_mem hrow
    rw [candidates_eq] at hm
    exact (mem_coveringRows.mp (List.mem_of_mem_filter hm)).1
  rw [evaluate_block hc, hj, candidates_eq,
    argmax_satisfies ConsentRecord.createdAt (P := fun row => row.status = doNot channel)]
  rfl

def optOut : ConsentRecord where
  id := 1
  organizationId := 1
  customerNumber := "+13235550100"
  channel := .text
  scope := .global
  lineNumber := none
  status := .doNotText
  source := .keyword
  sourceDetail := none
  createdByUserId := none
  reason := none
  createdAt := 1

def lineWrongNumber : ConsentRecord :=
  { optOut with id := 2, scope := .line, lineNumber := "+18005550001", status := .wrongNumber,
                source := .agent, createdAt := 2 }

theorem standing_opt_out_blocks_reversed :
    (evaluate [lineWrongNumber, { optOut with createdAt := 3 }] .text "+18005550001" .manual).decision =
        .block ↔
      WrongNumberStands [lineWrongNumber, { optOut with createdAt := 3 }] ∨
        Unmasked [lineWrongNumber, { optOut with createdAt := 3 }] .text "+18005550001" :=
  standing_opt_out_blocks_iff _ .text "+18005550001" .manual
    ⟨(.text, .global, none), by decide, { optOut with createdAt := 3 }, by decide, rfl⟩

theorem standing_opt_out_masked :
    (∃ b ∈ coveringBuckets .text "+18005550001", ∃ row,
      newestRow [optOut, lineWrongNumber] b = some row ∧ row.status = doNot .text) ∧
    (evaluate [optOut, lineWrongNumber] .text "+18005550001" .manual).decision = .allow :=
  ⟨⟨(.text, .global, none), by decide, optOut, by decide, rfl⟩, by decide⟩

end TheCargo.Consent
