import TheCargo.LeadFields.Places

namespace TheCargo.LeadFields

open Foundation

structure Heading where
  key : String
  section_ : Section
  label : String
  itemName : String
  deriving DecidableEq

def FieldSpec.heading (spec : FieldSpec) : Heading := ⟨spec.key, spec.section_, spec.label, spec.itemName⟩

def FieldEntry.heading (f : FieldEntry) : Heading := ⟨f.key, f.section_, f.label, f.itemName⟩

def blankLeadPreview : EmailFields where
  fields := leadFieldCatalog.map (fun spec =>
    ⟨spec.key, spec.section_, spec.label, spec.itemName, none, none, none, .notFound, "no match found in email"⟩)
  vehicles := []
  summary := ⟨0, 0, leadFieldCatalog.length, 0⟩

structure Shown (chars : Characters) (strptime : Strptime) (text : List Char) (f : FieldEntry) : Prop where
  status : f.status = fieldStatus chars strptime f.key f.value
  missing : f.value = none ↔ f.status = .notFound
  source : ∀ v, f.value = some v → strip v = v ∧ '\n' ∉ v.toList ∧
    ∃ s, f.source = some s ∧ v.toList <:+: s.toList ∧ s.toList <:+: text

variable {chars : Characters} {strptime : Strptime} {text : List Char} {kept : List Hit} {h : Hit} {found : Found}
  {key : String} {index next : ℕ} {r : Reading} {spec : FieldSpec} {f : FieldEntry}

lemma strip_eq (v : List Char) : strip (String.ofList v) = String.ofList (stripBy isSpace v) := by
  rw [strip, String.toList_ofList, stripBy]

lemma clean_isInfix (s : List Char) : clean s <:+: s :=
  ((stripBy_isInfix _ _).trans (stripBy_isInfix _ _)).trans (stripBy_isInfix _ _)

lemma slice_isInfix (text : List Char) (i j : ℕ) : slice text i j <:+: text :=
  (List.take_prefix _ _).isInfix.trans (List.drop_suffix _ _).isInfix

lemma slice_suffix {i i' : ℕ} (hle : i ≤ i') (j : ℕ) : slice text i' j <:+ slice text i j := by
  have hdrop : slice text i' j = (slice text i j).drop (i' - i) := by
    rw [slice, slice, List.drop_take, List.drop_drop, Nat.add_sub_cancel' hle]
    congr 1
    omega
  rw [hdrop]
  exact List.drop_suffix _ _

lemma newline_not_mem_take {s : List Char} {n : ℕ} (hn : n ≤ s.idxOf '\n') : '\n' ∉ s.take n := by
  intro hmem
  obtain ⟨k, hk, hget⟩ := List.mem_iff_getElem.mp hmem
  rw [List.length_take] at hk
  have hlt : k < s.findIdx (fun c => c == '\n') := lt_of_lt_of_le (by omega) hn
  have hnot := List.not_of_lt_findIdx hlt
  rw [List.getElem_take] at hget
  simp [hget] at hnot

lemma newline_not_mem_slice (text : List Char) (start next : ℕ) :
    '\n' ∉ slice text start (valueEnd text start next) := by
  rw [valueEnd, lineEnd]
  by_cases hline : '\n' ∈ text.drop start
  · rw [if_pos hline]
    exact newline_not_mem_take (by dsimp only; omega)
  · rw [if_neg hline]
    exact fun hmem => hline (List.mem_of_mem_take hmem)

lemma readKept_from {hs : List Hit} (hr : (readKept text hs found).at_ key index = some r) :
    found.at_ key index = some r ∨ ∃ h ∈ hs, ∃ next, h.key = key ∧ h.index = index ∧ r = reading text h next ∧
      readValue text h next ≠ [] := by
  induction hs generalizing found with
  | nil => exact .inl hr
  | cons h rest ih =>
    have hlater {found' : Found} (hin : (readKept text rest found').at_ key index = some r) :
        found'.at_ key index = some r ∨ ∃ g ∈ h :: rest, ∃ next, g.key = key ∧ g.index = index ∧
          r = reading text g next ∧ readValue text g next ≠ [] := by
      rcases ih hin with hin | ⟨g, hg, hread⟩
      · exact .inl hin
      · exact .inr ⟨g, List.mem_cons_of_mem h hg, hread⟩
    rw [readKept] at hr
    split at hr
    · exact hlater hr
    · rename_i hvalue
      rcases hlater hr with hset | hlater
      · rw [at_setDefault] at hset
        split at hset
        · next heq =>
          obtain ⟨rfl, rfl⟩ := heq
          cases hat : found.at_ h.key h.index with
          | some r' =>
            rw [hat] at hset
            exact .inl hset
          | none =>
            rw [hat] at hset
            exact .inr ⟨h, List.mem_cons_self, nextStart text rest, rfl, rfl, (Option.some.inj hset).symm, hvalue⟩
        · exact .inl hset
      · exact .inr hlater

lemma found_from (hr : (readKept text kept Dict.empty).at_ key index = some r) :
    ∃ h ∈ kept, ∃ next, h.key = key ∧ h.index = index ∧ r = reading text h next ∧ readValue text h next ≠ [] := by
  rcases readKept_from hr with hempty | hfrom
  · exact absurd hempty (by simp [Found.at_, Dict.get?, Dict.empty, lookup])
  · exact hfrom

@[simp] lemma emit_heading (spec : FieldSpec) (index : ℕ) :
    (emit chars strptime found spec index).heading = spec.heading := by
  rw [emit]
  split <;> rfl

lemma emit_none (hnone : found.at_ spec.key index = none) : emit chars strptime found spec index =
    ⟨spec.key, spec.section_, spec.label, spec.itemName, none, none, none, .notFound, "no match found in email"⟩ := by
  rw [Found.at_] at hnone
  rw [emit, hnone]

lemma emit_some (hr : found.at_ spec.key index = some r) :
    (emit chars strptime found spec index).value = some r.value ∧
      (emit chars strptime found spec index).source = some r.source ∧
      (emit chars strptime found spec index).status = fieldStatus chars strptime spec.key (some r.value) := by
  rw [Found.at_] at hr
  simp only [emit, hr, and_self]

lemma fieldStatus_blank (key : String) : fieldStatus chars strptime key none = .notFound := rfl

lemma fieldStatus_ne_notFound {v : String} (hv : strip v ≠ "") :
    fieldStatus chars strptime key (some v) ≠ .notFound := by
  simp only [fieldStatus, Option.getD_some, if_neg hv]
  split <;> decide

lemma reading_shown (hstart : h.start ≤ h.stop) (hvalue : readValue text h next ≠ []) :
    strip (reading text h next).value = (reading text h next).value ∧ (reading text h next).value ≠ "" ∧
      '\n' ∉ (reading text h next).value.toList ∧
      (reading text h next).value.toList <:+: (reading text h next).source.toList ∧
      (reading text h next).source.toList <:+: text := by
  have hpart : readValue text h next <:+: slice text h.stop (valueEnd text h.stop next) := clean_isInfix _
  have hline : lineStart text h.start ≤ h.stop := by
    rw [lineStart, List.length_take]
    omega
  simp only [reading, String.toList_ofList]
  refine ⟨?_, fun he => hvalue (String.ofList_inj.mp (he.trans String.ofList_nil.symm)), ?_, ?_, ?_⟩
  · rw [strip_eq, readValue, clean, stripBy_idem]
  · exact fun hmem => newline_not_mem_slice text h.stop next (hpart.subset hmem)
  · refine isInfix_stripBy (hpart.trans (slice_suffix hline _).isInfix) hvalue ?_ ?_
    · exact fun c hc => stripBy_head hc
    · exact fun c hc => stripBy_last hc
  · exact (stripBy_isInfix _ _).trans (slice_isInfix _ _ _)

lemma emit_shown (hstarts : ∀ h ∈ kept, h.start ≤ h.stop) (spec : FieldSpec) (index : ℕ) :
    Shown chars strptime text (emit chars strptime (readKept text kept Dict.empty) spec index) := by
  have hkey : (emit chars strptime (readKept text kept Dict.empty) spec index).key = spec.key :=
    congrArg Heading.key (emit_heading spec index)
  cases hr : (readKept text kept Dict.empty).at_ spec.key index with
  | none =>
    rw [emit_none hr]
    exact ⟨(fieldStatus_blank spec.key).symm, iff_of_true rfl rfl, nofun⟩
  | some r =>
    obtain ⟨hvalue, hsource, hstatus⟩ := @emit_some chars strptime _ _ _ _ hr
    obtain ⟨h, hh, next, -, -, rfl, hread⟩ := found_from hr
    obtain ⟨hstrip, hne, hline, hin, htext⟩ := reading_shown (hstarts h hh) hread
    refine ⟨?_, ?_, ?_⟩
    · rw [hstatus, hvalue, hkey]
    · rw [hvalue, hstatus]
      exact iff_of_false (Option.some_ne_none _) (fieldStatus_ne_notFound (hstrip.symm ▸ hne))
    · intro v hv
      obtain rfl := Option.some.inj (hvalue.symm.trans hv)
      exact ⟨hstrip, hline, _, hsource, hin, htext⟩

lemma mem_vehicleSlots (hh : h ∈ kept) (hkey : h.key ∈ vehicleSpecs.map FieldSpec.key) :
    h.index ∈ vehicleSlots kept := by
  rw [vehicleSlots, List.mem_insertionSort, List.mem_dedup]
  exact List.mem_map.mpr ⟨h, List.mem_filter.mpr ⟨hh, decide_eq_true hkey⟩, rfl⟩

lemma vehicleSlots_sorted (kept : List Hit) : (vehicleSlots kept).Pairwise (· < ·) := by
  have hle : (vehicleSlots kept).Pairwise (· ≤ ·) := List.pairwise_insertionSort (· ≤ ·) _
  have hne : (vehicleSlots kept).Nodup := (List.perm_insertionSort (· ≤ ·) _).nodup_iff.mpr (List.nodup_dedup _)
  exact (hle.and hne).imp (fun h => lt_of_le_of_ne h.1 h.2)

lemma firstIndex_le {r' : Reading} (hr : found.at_ key index = some r') : firstIndex found key ≤ index := by
  rw [Found.at_] at hr
  exact List.min?_getD_le_of_mem (List.mem_map.mpr ⟨(index, r'), Dict.mem_items.mpr hr, rfl⟩)

lemma field_of_vehicle (hspec : spec ∈ vehicleSpecs)
    (hf : (emit chars strptime (readKept text kept Dict.empty) spec
      (firstIndex (readKept text kept Dict.empty) spec.key)).value ≠ none) :
    ∃ before vehicle after, (fieldsOf chars strptime text kept).vehicles = before ++ vehicle :: after ∧
      emit chars strptime (readKept text kept Dict.empty) spec
        (firstIndex (readKept text kept Dict.empty) spec.key) ∈ vehicle ∧
      ∀ other ∈ before, ∀ g ∈ other, g.key = spec.key → g.value = none := by
  cases hr : (readKept text kept Dict.empty).at_ spec.key (firstIndex (readKept text kept Dict.empty) spec.key) with
  | none =>
    rw [emit_none hr] at hf
    exact absurd rfl hf
  | some r =>
    obtain ⟨h, hh, next, hkey, hindex, -⟩ := found_from hr
    have hslot := mem_vehicleSlots hh (hkey ▸ List.mem_map_of_mem hspec)
    rw [hindex] at hslot
    have hvehicles : (fieldsOf chars strptime text kept).vehicles = (vehicleSlots kept).map (fun index =>
        vehicleSpecs.map (fun spec => emit chars strptime (readKept text kept Dict.empty) spec index)) := rfl
    obtain ⟨before, after, hslots⟩ := List.append_of_mem hslot
    have hsorted := vehicleSlots_sorted kept
    rw [hslots] at hsorted
    rw [hvehicles, hslots, List.map_append, List.map_cons]
    refine ⟨_, _, _, rfl, List.mem_map.mpr ⟨spec, hspec, rfl⟩, ?_⟩
    intro other hother g hg hgkey
    obtain ⟨j, hj, rfl⟩ := List.mem_map.mp hother
    obtain ⟨spec', -, rfl⟩ := List.mem_map.mp hg
    have hkey' : spec'.key = spec.key := (congrArg Heading.key (emit_heading spec' j)).symm.trans hgkey
    have hlt := (List.pairwise_append.mp hsorted).2.2 j hj _ List.mem_cons_self
    cases hr' : (readKept text kept Dict.empty).at_ spec'.key j with
    | none => rw [emit_none hr']
    | some r' =>
      rw [hkey'] at hr'
      exact absurd (firstIndex_le hr') (Nat.not_le.mpr hlt)

lemma count_statuses (fields : List FieldEntry) :
    countStatus fields .matched + countStatus fields .review + countStatus fields .notFound = fields.length := by
  induction fields with
  | nil => rfl
  | cons f fields ih =>
    simp only [countStatus, List.countP_cons, List.length_cons] at ih ⊢
    cases hstatus : f.status <;> simp <;> omega

lemma allHits_nil (indexByLabel : Dict (String × String) ℤ) (labels : List (String × List String)) :
    allHits chars indexByLabel [] labels = some [] := by
  have hnone {norm : List Char} {start stop : ℕ} {number : List Char} :
      (start, stop, number) ∉ findAll (labelMatch chars norm) 0 0 [] := List.not_mem_nil
  obtain ⟨hits, hhits⟩ : ∃ hits, allHits chars indexByLabel [] labels = some hits :=
    allHits_total (fun e he label hlabel start stop number hin => absurd hin hnone)
  have hnil : hits = [] := by
    refine List.eq_nil_iff_forall_not_mem.mpr (fun h hh => ?_)
    obtain ⟨e, he, _, label, hlabel, _, _, number, hin, _⟩ := allHits_eq_some hhits hh
    exact hnone hin
  rw [hhits, hnil]

lemma keptLabels_nil (parsingValues : List ParsingValue) : keptLabels chars none parsingValues = some [] := by
  rw [keptLabels, scanLabels, show chars.lower ((none : Option String).getD "").toList = [] from rfl, allHits_nil]
  rfl

lemma parse_nothing (chars : Characters) (strptime : Strptime) (parsingValues : List ParsingValue) :
    parseEmailFields chars strptime none parsingValues = some blankLeadPreview := by
  have hfields : (fieldsOf chars strptime [] []).fields = blankLeadPreview.fields := by
    rw [fieldsOf, blankLeadPreview]
    refine List.map_congr_left (fun spec _ => emit_none ?_)
    simp [readKept, Found.at_, Dict.get?, Dict.empty, lookup]
  have hall : fieldsOf chars strptime [] [] = ⟨(fieldsOf chars strptime [] []).fields, [],
      countStatus (fieldsOf chars strptime [] []).fields .matched,
      countStatus (fieldsOf chars strptime [] []).fields .review,
      countStatus (fieldsOf chars strptime [] []).fields .notFound, 0⟩ := rfl
  have hcounts : countStatus blankLeadPreview.fields .matched = 0 ∧ countStatus blankLeadPreview.fields .review = 0 ∧
      countStatus blankLeadPreview.fields .notFound = leadFieldCatalog.length := by decide +kernel
  rw [parseEmailFields, keptLabels_nil, Option.map_some, show ((none : Option String).getD "").toList = [] from rfl,
    hall, hfields, hcounts.1, hcounts.2.1, hcounts.2.2]
  rfl

theorem preview_is_sound {chars : Characters} {strptime : Strptime} {text : Option String}
    {parsingValues : List ParsingValue} {r : EmailFields}
    (h : parseEmailFields chars strptime text parsingValues = some r) :
    r.fields.map FieldEntry.heading = leadFieldCatalog.map FieldSpec.heading ∧
      (∀ vehicle ∈ r.vehicles, vehicle.map FieldEntry.heading = vehicleSpecs.map FieldSpec.heading) ∧
      (∀ f ∈ r.fields ++ r.vehicles.flatten, Shown chars strptime (text.getD "").toList f) ∧
      (∀ f ∈ r.fields, f.section_ = .vehicle → f.value ≠ none →
        ∃ before vehicle after, r.vehicles = before ++ vehicle :: after ∧ f ∈ vehicle ∧
          ∀ other ∈ before, ∀ g ∈ other, g.key = f.key → g.value = none) ∧
      r.summary.matched + r.summary.review + r.summary.notFound = leadFieldCatalog.length ∧
      (text = none → r = blankLeadPreview) := by
  obtain ⟨kept, hkept, rfl⟩ := Option.map_eq_some_iff.mp h
  have hstarts : ∀ h ∈ kept, h.start ≤ h.stop := fun h hh => (kept_at hkept hh).start_lt_stop.le
  refine ⟨?_, ?_, ?_, ?_, ?_, ?_⟩
  · rw [fieldsOf, List.map_map]
    exact List.map_congr_left (fun spec _ => emit_heading spec _)
  · intro vehicle hvehicle
    obtain ⟨index, -, rfl⟩ := List.mem_map.mp hvehicle
    rw [List.map_map]
    exact List.map_congr_left (fun spec _ => emit_heading spec index)
  · intro f hf
    rcases List.mem_append.mp hf with hf | hf
    · obtain ⟨spec, -, rfl⟩ := List.mem_map.mp hf
      exact emit_shown hstarts spec _
    · obtain ⟨vehicle, hvehicle, hf⟩ := List.mem_flatten.mp hf
      obtain ⟨index, -, rfl⟩ := List.mem_map.mp hvehicle
      obtain ⟨spec, -, rfl⟩ := List.mem_map.mp hf
      exact emit_shown hstarts spec index
  · intro f hf hsection hvalue
    obtain ⟨spec, hspec, rfl⟩ := List.mem_map.mp hf
    generalize hindex : firstIndex (readKept (text.getD "").toList kept Dict.empty) spec.key = index
      at hsection hvalue ⊢
    have hheading : (emit chars strptime (readKept (text.getD "").toList kept Dict.empty) spec index).heading =
        spec.heading := emit_heading spec index
    have hvehicle : spec ∈ vehicleSpecs :=
      List.mem_filter.mpr ⟨hspec, decide_eq_true ((congrArg Heading.section_ hheading).symm.trans hsection)⟩
    rw [← hindex] at hvalue ⊢
    obtain ⟨before, vehicle, after, hvehicles, hmem, hnone⟩ := field_of_vehicle hvehicle hvalue
    refine ⟨before, vehicle, after, hvehicles, hmem, fun other hother g hg hgkey => ?_⟩
    refine hnone other hother g hg (hgkey.trans ?_)
    rw [hindex]
    exact congrArg Heading.key hheading
  · rw [fieldsOf]
    exact (count_statuses _).trans (List.length_map _)
  · rintro rfl
    exact Option.some.inj (h.symm.trans (parse_nothing chars strptime parsingValues))

def oneVehicle : Option String := some "make: Ford"

theorem one_vehicle_sound :
    ∃ r, parseEmailFields Characters.dotted (fun _ _ => none) oneVehicle [] = some r ∧ r.vehicles.length = 1 ∧
      r.fields.map FieldEntry.heading = leadFieldCatalog.map FieldSpec.heading ∧
      ∀ f ∈ r.fields ++ r.vehicles.flatten,
        Shown Characters.dotted (fun _ _ => none) (oneVehicle.getD "").toList f := by
  have hcount : (parseEmailFields Characters.dotted (fun _ _ => none) oneVehicle []).map
      (fun r => r.vehicles.length) = some 1 := by decide +kernel
  obtain ⟨r, hr, hvehicles⟩ := Option.map_eq_some_iff.mp hcount
  have hsound := preview_is_sound hr
  exact ⟨r, hr, hvehicles, hsound.1, hsound.2.2.1⟩

end TheCargo.LeadFields
