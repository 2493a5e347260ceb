import TheCargo.Consent.Newest

namespace TheCargo.Consent

open Foundation Models

def Decision.rank : Decision → ℕ
  | .allow => 0
  | .warn => 1
  | .block => 2

variable {records : List ConsentRecord} {line : String} {sendType : SendType}

def OptOutLeads (rows : List ConsentRecord) : Prop :=
  ∃ pre row post, rows = pre ++ row :: post ∧ row.status = .doNotText ∧
    (∀ r ∈ pre, r.status ≠ .doNotText → r.createdAt < row.createdAt) ∧
    ∀ r ∈ post, r.status ≠ .doNotText → r.createdAt ≤ row.createdAt

def heardWithoutLine (records : List ConsentRecord) : List ConsentRecord :=
  match (newestRow records (.text, .global, none)).filter restrictive with
  | some row => [row]
  | none => otherLineBlocks records .text none

lemma optOutLeads_iff {rows : List ConsentRecord} :
    OptOutLeads rows ↔ ∃ row, rows.argmax ConsentRecord.createdAt = some row ∧ row.status = .doNotText :=
  (argmax_satisfies ConsentRecord.createdAt (P := fun row => row.status = .doNotText)).symm

lemma pickEffective_unknown :
    pickEffective records .text none = (heardWithoutLine records).argmax ConsentRecord.createdAt := by
  have hc : candidates records .text none =
      ((newestRow records (.text, .global, none)).filter restrictive).toList := by
    simp only [candidates, latestByBucket_get?]
  rw [pickEffective_eq, hc, heardWithoutLine]
  cases (newestRow records (.text, .global, none)).filter restrictive with
  | none => rfl
  | some row => rfl

lemma judge_unknown (hbulk : sendType = .mass ∨ sendType = .automated) (row : ConsentRecord) :
    (judge row .text none sendType).decision = if row.status = .doNotText then .block else .allow := by
  by_cases hs : row.status = .doNotText
  · simp only [judge, hs, hbulk]
    split_ifs <;> simp_all [block]
  · simp [judge, hs, allowResult]

lemma judge_known (row : ConsentRecord) :
    (judge row .text (some line) sendType).decision ≠ .allow ↔ row.status = .doNotText := by
  constructor
  · intro h
    exact (judge_justified h).1
  · intro hs
    simp only [judge, hs]
    split_ifs <;> simp_all [block, warn]

lemma evaluate_wrongNumber (hw : WrongNumberStands records) (channel : ConsentChannel) (ourLine : Option String) :
    (evaluate records channel ourLine sendType).decision = .block := by
  obtain ⟨wrong, hwrong⟩ := Option.isSome_iff_exists.mp ((wrongNumberRow_isSome records).mpr hw)
  rw [evaluate_eq, hwrong]
  rfl

lemma evaluate_unknown (hbulk : sendType = .mass ∨ sendType = .automated) (hw : ¬ WrongNumberStands records) :
    ((evaluate records .text none sendType).decision = .block ∧ OptOutLeads (heardWithoutLine records)) ∨
      ((evaluate records .text none sendType).decision = .allow ∧ ¬ OptOutLeads (heardWithoutLine records)) := by
  rw [evaluate_eq, wrongNumberRow_none hw, pickEffective_unknown, optOutLeads_iff]
  cases hm : (heardWithoutLine records).argmax ConsentRecord.createdAt with
  | none => exact Or.inr ⟨rfl, by simp⟩
  | some row =>
    simp only [judge_unknown hbulk]
    by_cases hs : row.status = .doNotText
    · exact Or.inl ⟨if_pos hs, row, rfl, hs⟩
    · refine Or.inr ⟨if_neg hs, ?_⟩
      rintro ⟨row', hrow, hs'⟩
      exact hs (Option.some.inj hrow ▸ hs')

lemma evaluate_known (hw : ¬ WrongNumberStands records) :
    (evaluate records .text (some line) sendType).decision ≠ .allow ↔
      ∃ row, pickEffective records .text (some line) = some row ∧ row.status = .doNotText := by
  rw [evaluate_eq, wrongNumberRow_none hw]
  cases pickEffective records .text (some line) with
  | none => simp [allowResult]
  | some row => simp [judge_known]

lemma otherLineBlocks_known (h : (coveringRows records .text (some line)).filter restrictive = []) :
    otherLineBlocks records .text (some line) = otherLineBlocks records .text none := by
  rw [otherLineBlocks, otherLineBlocks]
  apply congrArg
  apply List.filter_congr
  rintro ⟨⟨channel, scope, number⟩, row⟩ hi
  rw [Dict.mem_items, latestByBucket_get?] at hi
  have hb := bucket_of_newestRow hi
  by_cases hline : channel = .text ∧ scope = .line ∧ number = some line
  · obtain ⟨rfl, rfl, rfl⟩ := hline
    have hm : row ∈ coveringRows records .text (some line) := by
      rw [mem_coveringRows, hb]
      exact ⟨by simp [coveringBuckets], hi⟩
    have hr : restrictive row = false := by
      have hn := List.filter_eq_nil_iff.mp h row hm
      simpa using hn
    simp [hr]
  · by_cases hc : channel = .text <;> by_cases hs : scope = .line <;> by_cases hn : number = some line <;>
      simp_all

lemma pickEffective_known (h : (coveringRows records .text (some line)).filter restrictive = []) :
    pickEffective records .text (some line) = (heardWithoutLine records).argmax ConsentRecord.createdAt := by
  have hg : (newestRow records (.text, .global, none)).filter restrictive = none := by
    cases hn : newestRow records (.text, .global, none) with
    | none => rfl
    | some row =>
      have hm : row ∈ coveringRows records .text (some line) := by
        have hb := bucket_of_newestRow hn
        rw [mem_coveringRows, hb]
        exact ⟨by simp [coveringBuckets], hn⟩
      exact Option.filter_eq_none_iff.mpr (fun r hr => by
        rw [← Option.some.inj hr]
        exact List.filter_eq_nil_iff.mp h row hm)
  rw [pickEffective_eq, candidates_eq, h, otherLineBlocks_known h, heardWithoutLine, hg]
  rfl

lemma unmasked_iff : Unmasked records .text line ↔
    OptOutLeads ((coveringRows records .text (some line)).filter restrictive) := Iff.rfl

theorem unknown_line_is_no_more_permissive_iff (records : List ConsentRecord) (line : String) (sendType : SendType)
    (hbulk : sendType = .mass ∨ sendType = .automated) :
    (evaluate records .text (some line) sendType).decision.rank ≤
        (evaluate records .text none sendType).decision.rank ↔
      WrongNumberStands records ∨ ¬ Unmasked records .text line ∨ OptOutLeads (heardWithoutLine records) := by
  by_cases hw : WrongNumberStands records
  · simp [hw, evaluate_wrongNumber hw]
  rcases evaluate_unknown hbulk hw with ⟨hd, hheard⟩ | ⟨hd, hheard⟩
  · rw [hd]
    refine ⟨fun _ => Or.inr (Or.inr hheard), fun _ => ?_⟩
    cases (evaluate records .text (some line) sendType).decision <;> simp [Decision.rank]
  · have hallow : (evaluate records .text (some line) sendType).decision.rank ≤ Decision.allow.rank ↔
        ¬ (evaluate records .text (some line) sendType).decision ≠ .allow := by
      cases (evaluate records .text (some line) sendType).decision <;> simp [Decision.rank]
    rw [hd, hallow, evaluate_known hw, unmasked_iff]
    simp only [hw, hheard, false_or, or_false]
    apply not_congr
    by_cases hc : (coveringRows records .text (some line)).filter restrictive = []
    · rw [pickEffective_known hc, ← optOutLeads_iff, hc]
      refine ⟨fun h => absurd h hheard, ?_⟩
      rintro ⟨pre, row, post, hnil, -⟩
      simp at hnil
    · rw [← candidates_eq] at hc ⊢
      rw [pickEffective_of_candidates hc, optOutLeads_iff]

theorem an_unknown_line_respects_a_global_opt_out :
    (evaluate [optOut] .text (some "+18005550001") .mass).decision.rank ≤
        (evaluate [optOut] .text none .mass).decision.rank ↔
      WrongNumberStands [optOut] ∨ ¬ Unmasked [optOut] .text "+18005550001" ∨
        OptOutLeads (heardWithoutLine [optOut]) :=
  unknown_line_is_no_more_permissive_iff [optOut] "+18005550001" .mass (Or.inl rfl)

theorem an_unknown_line_forgets_an_opt_out_of_any_line :
    let legacy := [{ lineOptOut with lineNumber := none, source := .imported }]
    (evaluate legacy .text (some "+18005550001") .mass).decision = .block ∧
      (evaluate legacy .text none .mass).decision = .allow ∧
      ¬ (evaluate legacy .text (some "+18005550001") .mass).decision.rank ≤
        (evaluate legacy .text none .mass).decision.rank := by
  decide

end TheCargo.Consent
