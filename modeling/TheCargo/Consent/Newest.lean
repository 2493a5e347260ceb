import TheCargo.Consent.Evaluate

namespace TheCargo.Consent

open Foundation Models

abbrev NewestInBucket (records : List ConsentRecord) (row : ConsentRecord) : Prop :=
  Newest bucket ConsentRecord.createdAt records row

variable {records others : List ConsentRecord} {channel : ConsentChannel} {ourLine : Option String}
  {sendType : SendType}

lemma pickEffective_eq : pickEffective records channel ourLine =
    ((candidates records channel ourLine).argmax ConsentRecord.createdAt).or
      ((otherLineBlocks records channel ourLine).argmax ConsentRecord.createdAt) := by
  cases hc : candidates records channel ourLine with
  | nil =>
    rw [pickEffective, hc]
    cases ho : otherLineBlocks records channel ourLine <;> rfl
  | cons row rows =>
    have hne : candidates records channel ourLine ≠ [] := by simp [hc]
    obtain ⟨m, hm⟩ := Option.ne_none_iff_exists'.mp
      (show (row :: rows).argmax ConsentRecord.createdAt ≠ none by simp)
    rw [pickEffective_of_candidates hne, hc, hm, Option.some_or]

lemma evaluate_eq : evaluate records channel ourLine sendType =
    match wrongNumberRow records with
    | some wrong => block wrong "wrong_number"
    | none =>
      match pickEffective records channel ourLine with
      | none => allowResult
      | some effective => judge effective channel ourLine sendType := by
  cases records with
  | nil => cases ourLine <;> rfl
  | cons row rows => rfl

lemma mem_otherLineBlocks {row : ConsentRecord} : row ∈ otherLineBlocks records channel ourLine ↔
    newestRow records (bucket row) = some row ∧ row.channel = channel ∧ row.scope = .line ∧
      row.lineNumber ≠ none ∧ row.lineNumber ≠ ourLine ∧ restrictive row = true := by
  simp only [otherLineBlocks, List.mem_map, List.mem_filter, Bool.and_eq_true, decide_eq_true_eq]
  constructor
  · rintro ⟨⟨b, row'⟩, ⟨hi, hb⟩, rfl⟩
    rw [Dict.mem_items, latestByBucket_get?] at hi
    obtain rfl := bucket_of_newestRow hi
    obtain ⟨⟨⟨⟨h₁, h₂⟩, h₃⟩, h₄⟩, h₅⟩ := hb
    exact ⟨hi, h₁, h₂, h₃, h₄, h₅⟩
  · rintro ⟨hi, h₁, h₂, h₃, h₄, h₅⟩
    refine ⟨(bucket row, row), ⟨?_, ⟨⟨⟨⟨h₁, h₂⟩, h₃⟩, h₄⟩, h₅⟩⟩, rfl⟩
    rw [Dict.mem_items, latestByBucket_get?, hi]

lemma evaluate_congr (hr : (records.map ConsentRecord.createdAt).Nodup)
    (ho : (others.map ConsentRecord.createdAt).Nodup)
    (h : ∀ row, NewestInBucket records row ↔ NewestInBucket others row) :
    evaluate records channel ourLine sendType = evaluate others channel ourLine sendType := by
  have hnewest : newestRow records = newestRow others :=
    funext (newestAt_congr bucket ConsentRecord.createdAt hr ho h)
  have hwrong : wrongNumberRow records = wrongNumberRow others := by
    simp only [wrongNumberRow, latestByBucket_get?, hnewest]
  have hcandidates : candidates records channel ourLine = candidates others channel ourLine := by
    rw [candidates_eq, candidates_eq, coveringRows, coveringRows, hnewest]
  have hblocks : (otherLineBlocks records channel ourLine).argmax ConsentRecord.createdAt =
      (otherLineBlocks others channel ourLine).argmax ConsentRecord.createdAt := by
    apply argmax_congr
    · intro a ha b hb
      have ha := mem_of_newestRow (mem_otherLineBlocks.mp ha).1
      have hb := mem_of_newestRow (mem_otherLineBlocks.mp hb).1
      exact List.inj_on_of_nodup_map hr ha hb
    · intro row
      rw [mem_otherLineBlocks, mem_otherLineBlocks, hnewest]
  rw [evaluate_eq, evaluate_eq, hwrong, pickEffective_eq, pickEffective_eq, hcandidates, hblocks]

lemma newest_perm (h : records.Perm others) (row : ConsentRecord) :
    NewestInBucket records row ↔ NewestInBucket others row :=
  ⟨fun hn => ⟨h.mem_iff.mp hn.mem, fun b hb => hn.le b (h.mem_iff.mpr hb)⟩,
    fun hn => ⟨h.mem_iff.mpr hn.mem, fun b hb => hn.le b (h.mem_iff.mp hb)⟩⟩

lemma newest_sublist (h : others.Sublist records) (hkept : ∀ row, NewestInBucket records row → row ∈ others)
    (row : ConsentRecord) : NewestInBucket records row ↔ NewestInBucket others row := by
  constructor
  · intro hn
    exact ⟨hkept row hn, fun b hb => hn.le b (h.subset hb)⟩
  · intro hn
    refine ⟨h.subset hn.mem, ?_⟩
    intro b hb hbucket
    obtain ⟨m, hm⟩ := newestAt_of_mem bucket ConsentRecord.createdAt hb
    have hmb := bucket_of_newestRow hm
    have hm := newestAt_newest _ _ hm
    exact (hm.le b hb hmb.symm).trans (hn.le m (hkept m hm) (hmb.trans hbucket))

theorem only_newest_rows_decide :
    (∀ records others : List ConsentRecord, (records.map ConsentRecord.createdAt).Nodup →
      (others.map ConsentRecord.createdAt).Nodup →
      (∀ row, NewestInBucket records row ↔ NewestInBucket others row) → ∀ channel ourLine sendType,
        evaluate records channel ourLine sendType = evaluate others channel ourLine sendType) ∧
    (∀ records others : List ConsentRecord, (records.map ConsentRecord.createdAt).Nodup → records.Perm others →
      ∀ channel ourLine sendType,
        evaluate records channel ourLine sendType = evaluate others channel ourLine sendType) ∧
    ∀ records kept : List ConsentRecord, (records.map ConsentRecord.createdAt).Nodup → kept.Sublist records →
      (∀ row, NewestInBucket records row → row ∈ kept) → ∀ channel ourLine sendType,
        evaluate records channel ourLine sendType = evaluate kept channel ourLine sendType := by
  refine ⟨?_, ?_, ?_⟩
  · intro records others hr ho h channel ourLine sendType
    exact evaluate_congr hr ho h
  · intro records others hr h channel ourLine sendType
    exact evaluate_congr hr ((h.map _).nodup_iff.mp hr) (newest_perm h)
  · intro records kept hr h hkept channel ourLine sendType
    exact evaluate_congr hr ((h.map _).nodup hr) (newest_sublist h hkept)

theorem reversed_history_decides_alike :
    evaluate [optOut, lineWrongNumber] .text (some "+18005550001") .mass =
      evaluate [lineWrongNumber, optOut] .text (some "+18005550001") .mass :=
  only_newest_rows_decide.2.1 [optOut, lineWrongNumber] [lineWrongNumber, optOut] (by decide)
    (List.Perm.swap _ _ _) .text (some "+18005550001") .mass

lemma wrongNumberRow_newest {wrong : ConsentRecord} (h : wrongNumberRow records = some wrong) :
    newestRow records (bucket wrong) = some wrong ∧ wrong.scope = .global ∧ wrong.lineNumber = none ∧
      wrong.status = .wrongNumber := by
  simp only [wrongNumberRow, latestByBucket_get?] at h
  split at h
  · cases h
  · obtain ⟨hm, hs⟩ := List.mem_filter.mp (List.argmax_mem h)
    obtain ⟨c, hn⟩ : ∃ c, newestRow records (c, .global, none) = some wrong := by
      rcases List.mem_append.mp hm with hm | hm
      · exact ⟨_, Option.mem_toList.mp hm⟩
      · exact ⟨_, Option.mem_toList.mp hm⟩
    have hb := bucket_of_newestRow hn
    rw [← hb] at hn
    simp only [bucket, Prod.mk.injEq] at hb
    exact ⟨hn, hb.2.1, hb.2.2, of_decide_eq_true hs⟩

lemma channel_of_covering {row : ConsentRecord} (h : bucket row ∈ coveringBuckets channel ourLine) :
    row.channel = channel := by
  cases ourLine with
  | none => exact (Prod.mk.inj (List.mem_singleton.mp h)).1
  | some line =>
    simp only [coveringBuckets, List.mem_cons, List.not_mem_nil, or_false, bucket, Prod.mk.injEq] at h
    rcases h with h | h | h <;> exact h.1

lemma pickEffective_newest {row : ConsentRecord} (h : pickEffective records channel ourLine = some row) :
    newestRow records (bucket row) = some row ∧ row.channel = channel := by
  rw [pickEffective_eq, Option.or_eq_some_iff] at h
  rcases h with h | ⟨-, h⟩
  · have hm := List.argmax_mem h
    rw [candidates_eq] at hm
    obtain ⟨hb, hn⟩ := mem_coveringRows.mp (List.mem_of_mem_filter hm)
    exact ⟨hn, channel_of_covering hb⟩
  · obtain ⟨hn, hc, -⟩ := mem_otherLineBlocks.mp (List.argmax_mem h)
    exact ⟨hn, hc⟩

structure Justifies (row : ConsentRecord) (result : ContactabilityResult) : Prop where
  id : result.reasonRecordId = some row.id
  line : result.lineNumber = row.lineNumber

lemma judge_justified {row : ConsentRecord} (h : (judge row channel ourLine sendType).decision ≠ .allow) :
    row.status = doNot channel ∧ Justifies row (judge row channel ourLine sendType) ∧
      ((judge row channel ourLine sendType).decision = .warn → channel = .text ∧ row.scope = .line ∧
        row.lineNumber ≠ none ∧ row.lineNumber ≠ ourLine) := by
  have hblock (reason : String) (hs : row.status = doNot channel) :
      row.status = doNot channel ∧ Justifies row (block row reason) ∧
        ((block row reason).decision = .warn → channel = .text ∧ row.scope = .line ∧
          row.lineNumber ≠ none ∧ row.lineNumber ≠ ourLine) :=
    ⟨hs, ⟨rfl, rfl⟩, fun hw => by cases hw⟩
  rw [judge] at h ⊢
  split_ifs at h ⊢ with hcall htext hglobal hany hsame hbulk
  · exact hblock _ (by rw [hcall.1, hcall.2, doNot])
  · exact hblock _ (by rw [htext.1, htext.2, doNot])
  · exact hblock _ (by rw [htext.1, htext.2, doNot])
  · exact hblock _ (by rw [htext.1, htext.2, doNot])
  · exact hblock _ (by rw [htext.1, htext.2, doNot])
  · refine ⟨by rw [htext.1, htext.2, doNot], ⟨rfl, rfl⟩, fun _ => ⟨htext.1, ?_, hany, ?_⟩⟩
    · cases hscope : row.scope with
      | global => exact absurd hscope hglobal
      | line => rfl
    · intro hline
      exact hsame ⟨hline ▸ hany, hline⟩
  · exact absurd rfl h

lemma evaluate_justified (h : (evaluate records channel ourLine sendType).decision ≠ .allow) :
    ∃ row, newestRow records (bucket row) = some row ∧
      Justifies row (evaluate records channel ourLine sendType) ∧
      ((row.scope = .global ∧ row.lineNumber = none ∧ row.status = .wrongNumber) ∨
        (row.channel = channel ∧ row.status = doNot channel)) ∧
      ((evaluate records channel ourLine sendType).decision = .warn → channel = .text ∧ row.scope = .line ∧
        row.lineNumber ≠ none ∧ row.lineNumber ≠ ourLine) := by
  rw [evaluate_eq] at h ⊢
  cases hw : wrongNumberRow records with
  | some wrong =>
    obtain ⟨hn, hwrong⟩ := wrongNumberRow_newest hw
    exact ⟨wrong, hn, ⟨rfl, rfl⟩, Or.inl hwrong, fun hd => by cases hd⟩
  | none =>
    simp only [hw] at h ⊢
    cases hp : pickEffective records channel ourLine with
    | none =>
      rw [hp] at h
      exact absurd rfl h
    | some row =>
      simp only [hp] at h ⊢
      obtain ⟨hn, hc⟩ := pickEffective_newest hp
      obtain ⟨hs, hj, hwarn⟩ := judge_justified h
      exact ⟨row, hn, hj, Or.inr ⟨hc, hs⟩, hwarn⟩

def ofChannel (channel : ConsentChannel) (records : List ConsentRecord) : List ConsentRecord :=
  records.filter (fun row => row.channel = channel)

lemma newestRow_ofChannel {b : Bucket} (hb : b.1 = channel) :
    newestRow (ofChannel channel records) b = newestRow records b := by
  rw [newestRow, newestRow, newestAt, newestAt, ofChannel, List.filter_filter]
  apply congrArg
  apply List.filter_congr
  intro row _
  by_cases hr : bucket row = b
  · have hc : row.channel = channel := (congrArg Prod.fst hr).trans hb
    simp [hr, hc]
  · simp [hr]

lemma wrongNumberStands_ofChannel (h : WrongNumberStands (ofChannel channel records)) : WrongNumberStands records := by
  obtain ⟨c, row, hn, hs⟩ := h
  have hb := bucket_of_newestRow hn
  have hc := (List.mem_filter.mp (mem_of_newestRow hn)).2
  have hcc : c = channel := by
    rw [← of_decide_eq_true hc]
    exact (Prod.mk.inj hb).1.symm
  exact ⟨c, row, (newestRow_ofChannel hcc).symm.trans hn, hs⟩

lemma otherLineBlocks_ofChannel :
    otherLineBlocks (ofChannel channel records) channel ourLine = otherLineBlocks records channel ourLine := by
  have hitems : (latestByBucket (ofChannel channel records)).items =
      (latestByBucket records).items.filter (fun e => e.1.1 = channel) :=
    latest_filter (fun b : Bucket => decide (b.1 = channel)) records
  rw [otherLineBlocks, otherLineBlocks, hitems, List.filter_filter]
  apply congrArg
  apply List.filter_congr
  intro e _
  cases decide (e.1.1 = channel) <;> simp

lemma candidates_ofChannel :
    candidates (ofChannel channel records) channel ourLine = candidates records channel ourLine := by
  have hrow (b : Bucket) (hb : b ∈ coveringBuckets channel ourLine) :
      newestRow (ofChannel channel records) b = newestRow records b := by
    apply newestRow_ofChannel
    cases ourLine with
    | none => rw [List.mem_singleton.mp hb]
    | some line =>
      simp only [coveringBuckets, List.mem_cons, List.not_mem_nil, or_false] at hb
      rcases hb with rfl | rfl | rfl <;> rfl
  rw [candidates_eq, candidates_eq, coveringRows, coveringRows, List.filterMap_congr hrow]

lemma wrongNumberRow_none (hw : ¬ WrongNumberStands records) : wrongNumberRow records = none := by
  rwa [← wrongNumberRow_isSome, Bool.not_eq_true, Option.isSome_eq_false_iff, Option.isNone_iff_eq_none] at hw

lemma evaluate_ofChannel (h : ¬ WrongNumberStands records) :
    evaluate (ofChannel channel records) channel ourLine sendType = evaluate records channel ourLine sendType := by
  have hkept : ¬ WrongNumberStands (ofChannel channel records) := fun hw => h (wrongNumberStands_ofChannel hw)
  rw [evaluate_eq, evaluate_eq, wrongNumberRow_none h, wrongNumberRow_none hkept, pickEffective_eq, pickEffective_eq,
    candidates_ofChannel, otherLineBlocks_ofChannel]

theorem refusals_are_justified (records : List ConsentRecord) (channel : ConsentChannel) (ourLine : Option String)
    (sendType : SendType) :
    ((evaluate records channel ourLine sendType).decision ≠ .allow →
      ∃ row, NewestInBucket records row ∧ newestRow records (bucket row) = some row ∧
        (evaluate records channel ourLine sendType).reasonRecordId = some row.id ∧
        ((row.scope = .global ∧ row.lineNumber = none ∧ row.status = .wrongNumber) ∨
          (row.channel = channel ∧ row.status = doNot channel)) ∧
        ((evaluate records channel ourLine sendType).decision = .warn →
          channel = .text ∧ (evaluate records channel ourLine sendType).lineNumber = row.lineNumber ∧
            row.scope = .line ∧ row.lineNumber ≠ none ∧ row.lineNumber ≠ ourLine)) ∧
    (¬ WrongNumberStands records →
      evaluate (records.filter (fun row => row.channel = channel)) channel ourLine sendType =
        evaluate records channel ourLine sendType) := by
  refine ⟨?_, evaluate_ofChannel⟩
  intro h
  obtain ⟨row, hn, hj, hrow, hwarn⟩ := evaluate_justified h
  refine ⟨row, newestAt_newest _ _ hn, hn, hj.id, hrow, ?_⟩
  intro hw
  obtain ⟨htext, hscope⟩ := hwarn hw
  exact ⟨htext, hj.line, hscope⟩

def lineOptOut : ConsentRecord := { optOut with id := 3, scope := .line, lineNumber := "+18005550001", createdAt := 3 }

theorem another_line_is_warned_of :
    ∃ row, NewestInBucket [lineOptOut] row ∧ newestRow [lineOptOut] (bucket row) = some row ∧
      (evaluate [lineOptOut] .text (some "+18005550002") .mass).reasonRecordId = some row.id ∧
      ((row.scope = .global ∧ row.lineNumber = none ∧ row.status = .wrongNumber) ∨
        (row.channel = .text ∧ row.status = doNot .text)) ∧
      ((evaluate [lineOptOut] .text (some "+18005550002") .mass).decision = .warn →
        ConsentChannel.text = .text ∧
          (evaluate [lineOptOut] .text (some "+18005550002") .mass).lineNumber = row.lineNumber ∧
          row.scope = .line ∧ row.lineNumber ≠ none ∧ row.lineNumber ≠ some "+18005550002") :=
  (refusals_are_justified [lineOptOut] .text (some "+18005550002") .mass).1 (by decide)

end TheCargo.Consent
