import TheCargo.LeadFields.Places
import TheCargo.LeadFields.Written

namespace TheCargo.LeadFields

open Foundation

variable {chars : Characters} {strptime : Strptime} {lines before later : List Line} {l : Line} {h : Hit}
  {hits : List Hit} {key : String} {number : List Char} {start stop : ℕ}

section Found

lemma find_written {norm : List Char} (hnorm : PlainLabel norm)
    (hfind : (start, stop, number) ∈ findAll (labelMatch chars norm) 0 0 (chars.lower (written lines))) :
    ∃ before l later w, lines = before ++ l :: later ∧ l.label.toList = w ++ norm ∧ start = place before + w.length ∧
      stop = start + norm.length + 1 ∧ ∀ key,
        hitIndex chars Dict.empty (chars.lower (written lines)) key norm start number = some 0 := by
  obtain ⟨a, b, n, hsplit, hstart, hmatch, hstop⟩ := findAll_sound hfind
  rw [lower_written] at hsplit
  obtain ⟨before, l, later, w, hlines, hlabel, rfl, rfl, rfl⟩ := labelMatch_written hnorm hsplit hmatch
  have hstart' : start = (above ':' '\n' (before.map Line.lowRow) ++ w).length := by rw [hstart, Nat.zero_add]
  have hwords : ∀ c ∈ w, c ≠ '\n' ∧ chars.isDecimal c = false := by
    intro c hc
    have hin : c ∈ l.label.toList := hlabel ▸ List.mem_append_left _ hc
    exact ⟨(l.plain.unbroken c hin).2, l.plain.not_isDecimal hin⟩
  refine ⟨before, l, later, w, hlines, hlabel, ?_, by rw [hstop, Nat.add_assoc], ?_⟩
  · rw [hstart', List.length_append, length_above_lowRow]
  · intro key
    rw [lower_written, hsplit, hstart']
    exact hitIndex_written hwords

lemma find_own (hlines : lines = before ++ l :: later) :
    (place before, place before + l.label.toList.length + 1, []) ∈
      findAll (labelMatch chars l.label.toList) 0 0 (chars.lower (written lines)) := by
  have hlow : sheet ':' '\n' (lines.map Line.lowRow) = above ':' '\n' (before.map Line.lowRow) ++
      (rowText ':' l.lowRow ++ below ':' '\n' (later.map Line.lowRow)) := by
    rw [hlines, List.map_append, List.map_cons, sheet_append_cons]
  have hne : rowText ':' l.lowRow ++ below ':' '\n' (later.map Line.lowRow) ≠ [] := by
    rw [rowText]
    simp
  -- a match that begins earlier ends at the colon of an earlier line
  have hfree : ∀ u v, above ':' '\n' (before.map Line.lowRow) = u ++ v → v ≠ [] → ∀ y k,
      labelMatch chars l.label.toList (v ++ (rowText ':' l.lowRow ++ below ':' '\n' (later.map Line.lowRow))) =
        some (y, k) → k ≤ v.length := by
    intro u v huv hv y k hmatch
    rw [huv, List.append_assoc] at hlow
    obtain ⟨before', l', later', w, hlines', hlabel, rfl, -, rfl⟩ := labelMatch_written l.plain hlow hmatch
    have hv' := List.length_pos_iff.mpr hv
    have hlength := congrArg List.length huv
    rw [List.length_append, List.length_append, length_above_lowRow, length_above_lowRow] at hlength
    rw [hlines] at hlines'
    rcases same_or_apart hlines' with ⟨rfl, -⟩ | ⟨m, rfl⟩ | ⟨m, rfl⟩
    · omega
    · have hlabel' := congrArg List.length hlabel
      rw [List.length_append] at hlabel'
      rw [place_append_cons] at hlength
      omega
    · rw [place_append_cons] at hlength
      omega
  have hown : labelMatch chars l.label.toList (rowText ':' l.lowRow ++ below ':' '\n' (later.map Line.lowRow)) =
      some ([], l.label.toList.length + 1) := labelMatch_own l _
  have hfound : (0 + (above ':' '\n' (before.map Line.lowRow)).length, _, []) ∈ findAll _ 0 0 _ :=
    findAll_complete hown hne (Nat.zero_le _) hfree
  rw [lower_written, hlow]
  rwa [Nat.zero_add, length_above_lowRow, ← Nat.add_assoc] at hfound

end Found

section Kept

abbrev plainLabels : List (String × List String) := labelsByKey ⟨Dict.empty, Dict.empty⟩

lemma allHits_written (chars : Characters) (lines : List Line) :
    ∃ hits, allHits chars Dict.empty (chars.lower (written lines)) plainLabels = some hits := by
  apply allHits_total
  intro e he label hlabel start stop number hfind
  obtain ⟨hkey, hlabels⟩ := mem_labelsByKey.mp he
  have hplain := plainLabel_of_mem hkey (hlabels ▸ hlabel)
  rw [hplain.normLabel_eq] at hfind ⊢
  obtain ⟨-, -, -, -, -, -, -, -, hindex⟩ := find_written hplain hfind
  exact ⟨0, hindex e.1⟩

lemma hit_written
    (hhits : allHits chars Dict.empty (chars.lower (written lines)) plainLabels = some hits) (hh : h ∈ hits) :
    ∃ before l later, lines = before ++ l :: later ∧ h.start < (l.hit (place before)).stop ∧
      (h = l.hit (place before) ∨ place before < h.start) := by
  have hproper := (allHits_at hhits hh).start_lt_stop
  obtain ⟨e, he, hkey, label, hlabel, hnorm, -, number, hfind, hindex⟩ := allHits_eq_some hhits hh
  obtain ⟨hmem, hlabels⟩ := mem_labelsByKey.mp he
  have hlabel' : label ∈ defaultLabels e.1 := hlabels ▸ hlabel
  have hplain := plainLabel_of_mem hmem hlabel'
  rw [hplain.normLabel_eq] at hnorm
  rw [← hnorm] at hfind
  obtain ⟨before, l, later, w, rfl, hline, hstart, hstop, hzero⟩ := find_written hplain hfind
  have hlength := congrArg List.length hline
  rw [List.length_append] at hlength
  have hend : (l.hit (place before)).stop = h.stop := by
    change place before + l.label.toList.length + 1 = h.stop
    omega
  refine ⟨before, l, later, rfl, by omega, ?_⟩
  cases w with
  | cons c w =>
    rw [List.length_cons] at hstart
    exact .inr (by omega)
  | nil =>
    left
    have hsame : l.label = label := String.toList_inj.mp hline
    have hzero' : h.index = 0 := by
      rw [← hnorm, hzero h.key] at hindex
      exact (Option.some.inj hindex).symm
    have hkey' : h.key = l.key := by
      rw [← hkey]
      exact key_of_label hmem l.key_mem hlabel' (hsame ▸ l.label_mem)
    cases h
    rw [Line.hit, Hit.mk.injEq]
    exact ⟨hstart, hend.symm, hkey', hzero', by rw [hsame]; exact hnorm.symm⟩

lemma own_mem_hits (hhits : allHits chars Dict.empty (chars.lower (written lines)) plainLabels = some hits)
    (hlines : lines = before ++ l :: later) : l.hit (place before) ∈ hits := by
  have hfind : (place before, place before + l.label.toList.length + 1, []) ∈
      findAll (labelMatch chars l.label.toList) 0 0 (chars.lower (written lines)) := find_own hlines
  obtain ⟨-, -, -, -, -, -, -, -, hzero⟩ := find_written l.plain hfind
  have hentry : (l.key, defaultLabels l.key) ∈ plainLabels := mem_labelsByKey.mpr ⟨l.key_mem, rfl⟩
  rw [← l.plain.normLabel_eq] at hfind
  obtain ⟨index, hindex, hmem⟩ := mem_allHits hhits hentry l.label_mem
    (by rw [l.plain.normLabel_eq]; exact l.plain.ne) hfind
  rw [l.plain.normLabel_eq] at hindex hmem
  rw [hzero l.key] at hindex
  obtain rfl := Option.some.inj hindex
  exact hmem

def ownHits : List Line → List Line → List Hit
  | _, [] => []
  | before, l :: ls => l.hit (place before) :: ownHits (before ++ [l]) ls

lemma ownHits_append (before ls : List Line) (l : Line) (later : List Line) :
    ownHits before (ls ++ l :: later) =
      ownHits before ls ++ l.hit (place (before ++ ls)) :: ownHits (before ++ ls ++ [l]) later := by
  induction ls generalizing before with
  | nil => rw [List.nil_append, List.append_nil, ownHits, ownHits, List.nil_append]
  | cons k ls ih =>
    rw [List.cons_append, ownHits, ih, ownHits, List.cons_append, List.append_assoc before [k] ls,
      List.singleton_append]

lemma mem_ownHits : h ∈ ownHits before lines ↔
    ∃ ls l later, lines = ls ++ l :: later ∧ h = l.hit (place (before ++ ls)) := by
  constructor
  · intro hh
    induction lines generalizing before with
    | nil => exact absurd hh List.not_mem_nil
    | cons k lines ih =>
      rcases List.mem_cons.mp hh with rfl | hh
      · exact ⟨[], k, lines, rfl, by rw [List.append_nil]⟩
      · obtain ⟨ls, l, later, rfl, rfl⟩ := ih hh
        exact ⟨k :: ls, l, later, rfl, by rw [List.append_assoc, List.singleton_append]⟩
  · rintro ⟨ls, l, later, rfl, rfl⟩
    rw [ownHits_append]
    exact List.mem_append_right _ List.mem_cons_self

lemma hit_stop_le (before : List Line) (l : Line) (m : List Line) :
    (l.hit (place before)).stop ≤ place (before ++ [l] ++ m) := by
  change place before + l.label.toList.length + 1 ≤ _
  rw [List.append_assoc, List.singleton_append, place_append_cons]
  omega

lemma ownHits_pairwise (before lines : List Line) :
    (ownHits before lines).Pairwise (fun g h => g.order < h.order ∧ g.stop ≤ h.start) := by
  induction lines generalizing before with
  | nil => exact List.Pairwise.nil
  | cons l lines ih =>
    refine List.pairwise_cons.mpr ⟨?_, ih (before ++ [l])⟩
    intro h hh
    obtain ⟨ls, k, later, -, rfl⟩ := mem_ownHits.mp hh
    have hle := hit_stop_le before l ls
    have hlt : (l.hit (place before)).start < (l.hit (place before)).stop := by
      change place before < place before + l.label.toList.length + 1
      omega
    exact ⟨Prod.Lex.toLex_lt_toLex.mpr (.inl (Nat.lt_of_lt_of_le hlt hle)), hle⟩

lemma scanLabels_written (chars : Characters) (lines : List Line) :
    scanLabels chars (written lines) plainLabels Dict.empty = some (ownHits [] lines) := by
  obtain ⟨hits, hhits⟩ := allHits_written chars lines
  rw [scanLabels, hhits, Option.map_some]
  refine congrArg some (keep_eq_owners (sortedBy_pairwise hits) (ownHits_pairwise [] lines) ?_
    (fun o ho => Nat.zero_le _) ?_ ?_)
  · intro o ho
    obtain ⟨ls, l, later, rfl, rfl⟩ := mem_ownHits.mp ho
    exact (List.mem_insertionSort _).mpr (own_mem_hits hhits rfl)
  · intro o ho
    obtain ⟨ls, l, later, -, rfl⟩ := mem_ownHits.mp ho
    change place ls < place ls + l.label.toList.length + 1
    omega
  · intro h hh
    obtain ⟨ls, l, later, heq, hlt, hown⟩ := hit_written hhits ((List.mem_insertionSort _).mp hh)
    refine .inr ⟨l.hit (place ls), mem_ownHits.mpr ⟨ls, l, later, heq, rfl⟩, hlt, ?_⟩
    exact hown.imp id (fun hlater => Prod.Lex.toLex_lt_toLex.mpr (.inl hlater))

end Kept

section Values

lemma drop_written (before : List Line) (l : Line) (later : List Line) :
    (written (before ++ l :: later)).drop (l.hit (place before)).stop =
      ' ' :: l.value.toList ++ below ':' '\n' (later.map Line.row) := by
  have htext : written (before ++ l :: later) = (above ':' '\n' (before.map Line.row) ++ l.label.toList ++ [':']) ++
      (' ' :: l.value.toList ++ below ':' '\n' (later.map Line.row)) := by
    rw [written, List.map_append, List.map_cons, sheet_append_cons, rowText, Line.row]
    simp only [List.append_assoc, List.cons_append, List.nil_append]
  have hstop : (l.hit (place before)).stop =
      (above ':' '\n' (before.map Line.row) ++ l.label.toList ++ [':']).length := by
    rw [List.length_append, List.length_append]
    rfl
  rw [htext, hstop, List.drop_left]

lemma nextStart_written (before : List Line) (l : Line) (later : List Line) :
    (later = [] ∧ nextStart (written (before ++ l :: later)) (ownHits (before ++ [l]) later) =
        (l.hit (place before)).stop + (l.value.toList.length + 1)) ∨
      ∃ s, below ':' '\n' (later.map Line.row) = '\n' :: s ∧
        nextStart (written (before ++ l :: later)) (ownHits (before ++ [l]) later) =
          (l.hit (place before)).stop + (l.value.toList.length + 2) := by
  cases later with
  | nil =>
    have hdrop := congrArg List.length (drop_written before l [])
    rw [List.length_drop, List.map_nil, below, List.flatMap_nil, List.append_nil, List.length_cons] at hdrop
    refine .inl ⟨rfl, ?_⟩
    rw [ownHits, nextStart]
    omega
  | cons k later =>
    refine .inr ⟨_, rfl, ?_⟩
    change place (before ++ [l]) = place before + l.label.toList.length + 1 + (l.value.toList.length + 2)
    rw [place_append_cons]
    change _ + 0 = _
    omega

lemma segment_written (before : List Line) (l : Line) (later : List Line) :
    segment (written (before ++ l :: later)) (l.hit (place before)) (ownHits (before ++ [l]) later) =
      ' ' :: l.value.toList := by
  have hline : '\n' ∉ ' ' :: l.value.toList := by
    intro hin
    rcases List.mem_cons.mp hin with heq | hin
    · exact absurd heq (by decide)
    · exact (l.value_unbroken _ hin).2 rfl
  have hlength : (' ' :: l.value.toList).length = l.value.toList.length + 1 := List.length_cons
  rcases nextStart_written before l later with ⟨rfl, hnext⟩ | ⟨s, hbelow, hnext⟩
  · rw [segment_eq (by rw [hnext]; omega), hnext, drop_written, List.map_nil, below, List.flatMap_nil, List.append_nil,
      List.idxOf_eq_length hline, hlength, Nat.add_sub_cancel_left, Nat.min_self, ← hlength, List.take_length]
  · have hbreak : (' ' :: l.value.toList ++ '\n' :: s).idxOf '\n' = l.value.toList.length + 1 := by
      rw [List.idxOf_append_of_notMem hline, List.idxOf_cons_self, Nat.add_zero, hlength]
    rw [segment_eq (by rw [hnext]; omega), hnext, drop_written, hbelow, hbreak, Nat.add_sub_cancel_left,
      Nat.min_eq_right (by omega), ← hlength, List.take_left]

lemma readValue_written (before : List Line) (l : Line) (later : List Line) :
    readValue (written (before ++ l :: later)) (l.hit (place before))
      (nextStart (written (before ++ l :: later)) (ownHits (before ++ [l]) later)) = l.value.toList := by
  change clean (segment _ _ _) = _
  have hmargins : Margins (' ' :: l.value.toList) [' '] [] [] l.value.toList [] [] [] := by
    refine ⟨by simp, ?_, by simp, l.value_bare⟩
    intro x hx
    have hx' : x = ' ' := by simpa using hx
    rw [hx']
    decide
  rw [segment_written, hmargins.clean_eq]

end Values

section Entries

variable {found : Found} {spec : FieldSpec} {index : ℕ} {r : Reading}

lemma emit_of_some (hr : found.at_ spec.key index = some r) :
    (emit chars strptime found spec index).value = some r.value ∧
      (emit chars strptime found spec index).status = fieldStatus chars strptime spec.key (some r.value) := by
  rw [Found.at_] at hr
  rw [emit, hr]
  exact ⟨rfl, rfl⟩

lemma emit_of_none (hr : found.at_ spec.key index = none) :
    (emit chars strptime found spec index).value = none ∧
      (emit chars strptime found spec index).status = .notFound := by
  rw [Found.at_] at hr
  rw [emit, hr]
  exact ⟨rfl, rfl⟩

lemma emit_key (found : Found) (spec : FieldSpec) (index : ℕ) :
    (emit chars strptime found spec index).key = spec.key := by
  rw [emit]
  split <;> rfl

lemma firstIndex_eq_zero (hr : found.at_ key 0 = some r) : firstIndex found key = 0 := by
  have hmem : 0 ∈ ((found.get? key).getD Dict.empty).items.map Prod.fst :=
    List.mem_map_of_mem (Dict.mem_items.mpr hr)
  rw [firstIndex, List.min?_eq_some_iff.mpr ⟨hmem, fun _ _ => Nat.zero_le _⟩, Option.getD_some]

lemma countStatus_sum (fields : List FieldEntry) :
    countStatus fields .matched + countStatus fields .review + countStatus fields .notFound = fields.length := by
  induction fields with
  | nil => rfl
  | cons f fields ih =>
    simp only [countStatus, List.countP_cons, List.length_cons] at ih ⊢
    cases f.status <;> simp <;> omega

lemma at_written (hkeys : (lines.map Line.key).Nodup) (hlines : lines = before ++ l :: later) :
    ∃ r, (readKept (written lines) (ownHits [] lines) Dict.empty).at_ l.key 0 = some r ∧ r.value = l.value := by
  subst hlines
  have hvalue := readValue_written before l later
  have hsplit : ownHits [] (before ++ l :: later) =
      ownHits [] before ++ l.hit (place before) :: ownHits (before ++ [l]) later := ownHits_append [] before l later
  have hearlier : ∀ g ∈ ownHits [] before, g.key ≠ (l.hit (place before)).key := by
    intro g hg
    obtain ⟨ls, k, rest, rfl, rfl⟩ := mem_ownHits.mp hg
    intro heq
    rw [List.map_append, List.map_append, List.nodup_append] at hkeys
    exact hkeys.2.2 k.key (by simp) l.key (by simp) heq
  have hne : readValue (written (before ++ l :: later)) (l.hit (place before))
      (nextStart (written (before ++ l :: later)) (ownHits (before ++ [l]) later)) ≠ [] := by
    rw [hvalue]
    exact l.value_ne
  refine ⟨_, hsplit ▸ at_readKept_first hearlier rfl hne, ?_⟩
  rw [reading, hvalue, String.ofList_toList]

lemma at_written_other (hkey : ∀ l ∈ lines, l.key ≠ key) :
    (readKept (written lines) (ownHits [] lines) Dict.empty).at_ key index = none := by
  rw [at_readKept_of_key_ne]
  · rfl
  · intro h hh
    obtain ⟨ls, l, later, rfl, rfl⟩ := mem_ownHits.mp hh
    exact hkey l (by simp)

end Entries

def ReadsBack (chars : Characters) (strptime : Strptime) (lines : List Line) : Prop :=
  ∃ r, parseEmailFields chars strptime (some (String.ofList (written lines))) [] = some r ∧
    r.fields.map FieldEntry.key = leadFieldCatalog.map FieldSpec.key ∧
    (∀ f ∈ r.fields, ∀ l ∈ lines, f.key = l.key →
      f.value = some l.value ∧ f.status = fieldStatus chars strptime l.key (some l.value)) ∧
    (∀ f ∈ r.fields, (∀ l ∈ lines, l.key ≠ f.key) → f.value = none ∧ f.status = .notFound) ∧
    r.summary.matched + r.summary.review + r.summary.notFound = leadFieldCatalog.length

theorem parseEmailFields_written (chars : Characters) (strptime : Strptime) (lines : List Line)
    (h : (lines.map Line.key).Nodup) : ReadsBack chars strptime lines := by
  have hkept : keptLabels chars (some (String.ofList (written lines))) [] = some (ownHits [] lines) := by
    rw [keptLabels, Option.getD_some, String.toList_ofList]
    exact scanLabels_written chars lines
  refine ⟨fieldsOf chars strptime (written lines) (ownHits [] lines), ?_, ?_, ?_, ?_, ?_⟩
  · rw [parseEmailFields, hkept, Option.map_some, Option.getD_some, String.toList_ofList]
  · rw [fieldsOf, List.map_map]
    exact List.map_congr_left (fun spec _ => emit_key _ spec _)
  · intro f hf l hl hkey
    obtain ⟨spec, -, rfl⟩ := List.mem_map.mp hf
    rw [emit_key] at hkey
    obtain ⟨before, later, hlines⟩ := List.append_of_mem hl
    obtain ⟨r, hr, hvalue⟩ := at_written h hlines
    rw [← hkey] at hr
    rw [firstIndex_eq_zero hr, ← hkey, ← hvalue]
    exact emit_of_some hr
  · intro f hf hnone
    obtain ⟨spec, -, rfl⟩ := List.mem_map.mp hf
    rw [emit_key] at hnone
    exact emit_of_none (at_written_other hnone)
  · rw [fieldsOf, countStatus_sum, List.length_map]

def nameLine : Line where
  key := "first_name"
  label := "name"
  value := "John"
  key_mem := by decide +kernel
  label_mem := by decide +kernel
  value_ne := by decide
  value_ascii := forall_of_all (by decide +kernel)
  value_unbroken := forall_of_all (by decide +kernel)
  value_bare := bare_of_any (by decide) (by decide)

def trailerLine : Line where
  key := "trailer_type"
  label := "trailer type"
  value := "open, type"
  key_mem := by decide +kernel
  label_mem := by decide +kernel
  value_ne := by decide
  value_ascii := forall_of_all (by decide +kernel)
  value_unbroken := forall_of_all (by decide +kernel)
  value_bare := bare_of_any (by decide) (by decide)

theorem namedLead_readsBack : ReadsBack Characters.dotted (fun _ _ => none) [trailerLine, nameLine] :=
  parseEmailFields_written _ _ _ (by decide +kernel)

end TheCargo.LeadFields
