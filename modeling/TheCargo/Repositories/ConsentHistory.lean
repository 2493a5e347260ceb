import TheCargo.Consent.Newest
import TheCargo.Consent.Prefetch
import TheCargo.Foundation.DistinctOn
import TheCargo.Foundation.Leader

namespace TheCargo.Repositories.ConsentHistory

open Foundation Models Utils.Phone Db.Types TheCargo.Consent

variable {ι : Type*} [LinearOrder ι] (collate : Bucket → ι) (phonenumbers : PhoneNumbers)

def history (db : ConsentTable) (organizationId : UUID) (customerNumber : String) (limit : ℕ) : List ConsentRecord :=
  ((sortedDown ConsentRow.createdAt (ofCustomer phonenumbers db organizationId customerNumber)).take limit).map
    ConsentRow.object

/-- `collate` is how the database sorts the columns of a bucket. -/
def latestStates (db : ConsentTable) (organizationId : UUID) (customerNumber : String) : Dict Bucket ConsentRecord :=
  let rows := newestOfEach collate (fun row => bucket row.columns) ConsentRow.createdAt
    (ofCustomer phonenumbers db organizationId customerNumber)
  (rows.map ConsentRow.object).foldl (fun latest row => latest.set (bucket row) row) Dict.empty

def values (d : Dict Bucket ConsentRecord) : List ConsentRecord := d.items.map Prod.snd

variable {collate phonenumbers} {db : ConsentTable} {organizationId : UUID} {customerNumber : String}

lemma loadConsentState_perm : (loadConsentState phonenumbers db organizationId customerNumber).Perm
    ((ofCustomer phonenumbers db organizationId customerNumber).map ConsentRow.object) :=
  (List.perm_insertionSort _ _).map _

def ReadsLines (phonenumbers : PhoneNumbers) (db : ConsentTable) (organizationId : UUID) (customerNumber : String) :
    Prop :=
  ∀ row ∈ ofCustomer phonenumbers db organizationId customerNumber, row.object.lineNumber = row.columns.lineNumber

lemma bucket_object {row : ConsentRow} (h : row.object.lineNumber = row.columns.lineNumber) :
    bucket row.object = bucket row.columns := by
  obtain ⟨columns, given⟩ := row
  cases given with
  | none => rfl
  | some given => exact congrArg (fun line => (columns.channel, columns.scope, line)) h

lemma objects_latest (hread : ReadsLines phonenumbers db organizationId customerNumber) :
    ((newestOfEach collate (fun row => bucket row.columns) ConsentRow.createdAt
      (ofCustomer phonenumbers db organizationId customerNumber)).map ConsentRow.object).map bucket =
    (newestOfEach collate (fun row => bucket row.columns) ConsentRow.createdAt
      (ofCustomer phonenumbers db organizationId customerNumber)).map (fun row => bucket row.columns) := by
  rw [List.map_map]
  apply List.map_congr_left
  intro row hrow
  exact bucket_object (hread row (mem_byKeyNewestFirst.mp ((distinctOn_sublist _).subset hrow)))

lemma items_latestStates (hread : ReadsLines phonenumbers db organizationId customerNumber) :
    (latestStates collate phonenumbers db organizationId customerNumber).items =
      ((newestOfEach collate (fun row => bucket row.columns) ConsentRow.createdAt
        (ofCustomer phonenumbers db organizationId customerNumber)).map ConsentRow.object).map
          (fun row => (bucket row, row)) := by
  refine items_foldl_set ?_ (fun _ _ => List.not_mem_nil)
  rw [objects_latest hread]
  exact newestOfEach_keys _

lemma values_latestStates (hread : ReadsLines phonenumbers db organizationId customerNumber) :
    values (latestStates collate phonenumbers db organizationId customerNumber) =
      (newestOfEach collate (fun row => bucket row.columns) ConsentRow.createdAt
        (ofCustomer phonenumbers db organizationId customerNumber)).map ConsentRow.object := by
  rw [values, items_latestStates hread, List.map_map]
  exact List.map_id _

theorem read_paths_agree (collate : Bucket → ι) (phonenumbers : PhoneNumbers) (db : ConsentTable)
    (organizationId : UUID) (customerNumber : String) (channel : ConsentChannel) (ourLine : Option String)
    (sendType : SendType) (hread : ReadsLines phonenumbers db organizationId customerNumber)
    (hdistinct : ((ofCustomer phonenumbers db organizationId customerNumber).map ConsentRow.createdAt).Nodup) :
    let records := loadConsentState phonenumbers db organizationId customerNumber
    let states := latestStates collate phonenumbers db organizationId customerNumber
    (∀ b, states.get? b = newestRow records b) ∧
      evaluate (values states) channel ourLine sendType = evaluate records channel ourLine sendType ∧
      ∀ limit, (∀ row, NewestInBucket records row → row ∈ history phonenumbers db organizationId customerNumber limit) →
        evaluate (history phonenumbers db organizationId customerNumber limit) channel ourLine sendType =
          evaluate records channel ourLine sendType := by
  intro records states
  have htimes (rows : List ConsentRow) :
      (rows.map ConsentRow.object).map ConsentRecord.createdAt = rows.map ConsentRow.createdAt := by
    rw [List.map_map]
    exact List.map_congr_left (fun row _ => row.object_createdAt)
  have hperm : records.Perm ((ofCustomer phonenumbers db organizationId customerNumber).map ConsentRow.object) :=
    loadConsentState_perm
  have hrecords : (records.map ConsentRecord.createdAt).Nodup :=
    (hperm.map _).nodup_iff.mpr (by rwa [htimes])
  have hnewest : ∀ row, row ∈ (newestOfEach collate (fun row => bucket row.columns) ConsentRow.createdAt
      (ofCustomer phonenumbers db organizationId customerNumber)).map ConsentRow.object ↔
      Newest bucket ConsentRecord.createdAt records row := by
    intro row
    refine Iff.trans ?_ (newest_perm hperm row).symm
    rw [NewestInBucket, newest_map _ _ (fun r hr => bucket_object (hread r hr)) (fun r _ => r.object_createdAt),
      List.mem_map]
    exact exists_congr fun r => and_congr_left fun _ => mem_newestOfEach hdistinct
  refine ⟨fun b => ?_, ?_, fun limit hkept => ?_⟩
  · apply Option.ext
    intro row
    rw [newestRow, newestAt_iff _ _ hrecords, ← hnewest row, ← Dict.mem_items, items_latestStates hread, List.mem_map]
    constructor
    · rintro ⟨row', hrow', he⟩
      obtain ⟨rfl, rfl⟩ := Prod.mk.inj he
      exact ⟨rfl, hrow'⟩
    · rintro ⟨rfl, hrow⟩
      exact ⟨row, hrow, rfl⟩
  · rw [values_latestStates hread]
    refine (evaluate_congr hrecords ?_ (newest_newest hnewest)).symm
    rw [htimes]
    exact newestOfEach_times hdistinct
  · have hsub : (history phonenumbers db organizationId customerNumber limit).Sublist
        ((sortedDown ConsentRow.createdAt (ofCustomer phonenumbers db organizationId customerNumber)).map
          ConsentRow.object) := (List.take_sublist _ _).map _
    have hall : ((sortedDown ConsentRow.createdAt (ofCustomer phonenumbers db organizationId customerNumber)).map
        ConsentRow.object).Perm records := ((sortedDown_perm _ _).map _).trans hperm.symm
    have hdown := (hall.map ConsentRecord.createdAt).nodup_iff.mpr hrecords
    refine (evaluate_congr hrecords (hdown.sublist (hsub.map _)) (fun row => ?_)).symm
    rw [← newest_perm hall row]
    exact newest_sublist hsub (fun row hrow => hkept row ((newest_perm hall row).mp hrow)) row

-- The opt-out is taken back, then repeated for one line.
def threeChanges : ConsentTable :=
  [⟨optedOut, none⟩, ⟨{ optedOut with id := 8, status := .allowed, createdAt := 200 }, none⟩,
    ⟨{ optedOut with id := 9, scope := .line, lineNumber := "+18005550001", createdAt := 300 }, none⟩]

def globalFirst (b : Bucket) : ℕ := if b.2.1 = .global then 0 else 1

lemma threeChanges_read : ReadsLines twoSpellings threeChanges 1 "+13235550100" := by
  intro row hrow
  have hmem := (mem_ofCustomer.mp hrow).1
  simp only [threeChanges, List.mem_cons, List.not_mem_nil, or_false] at hmem
  rcases hmem with rfl | rfl | rfl <;> rfl

theorem three_changes_agree :
    let records := loadConsentState twoSpellings threeChanges 1 "+13235550100"
    let states := latestStates globalFirst twoSpellings threeChanges 1 "+13235550100"
    (values states).map ConsentRecord.id = [8, 9] ∧
      evaluate (values states) .text "+18005550001" .mass = evaluate records .text "+18005550001" .mass :=
  ⟨by decide, (read_paths_agree globalFirst twoSpellings threeChanges 1 "+13235550100" .text "+18005550001" .mass
    threeChanges_read (by decide)).2.1⟩

end TheCargo.Repositories.ConsentHistory
