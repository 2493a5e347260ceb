import TheCargo.Foundation.Sheet
import TheCargo.LeadFields.Hits
import TheCargo.LeadFields.Trim

namespace TheCargo.LeadFields

open Foundation

structure Line where
  key : String
  label : String
  value : String
  key_mem : key ∈ leadFieldCatalog.map FieldSpec.key
  label_mem : label ∈ defaultLabels key
  value_ne : value.toList ≠ []
  value_ascii : ∀ c ∈ value.toList, c.toNat < 128
  value_unbroken : ∀ c ∈ value.toList, c ≠ ':' ∧ c ≠ '\n'
  value_bare : Bare value.toList

def Line.row (l : Line) : List Char × List Char := (l.label.toList, ' ' :: l.value.toList)

def written (lines : List Line) : List Char := sheet ':' '\n' (lines.map Line.row)

section Labels

def isPlainLabel (label : List Char) : Bool :=
  label ≠ [] && label.all (fun c => c.toNat < 128 && c.toLower = c && c ≠ ':' && c ≠ '\n' && !c.isDigit) &&
    !label.head?.any isSpace && !label.getLast?.any isSpace

structure PlainLabel (label : List Char) : Prop where
  ne : label ≠ []
  ascii : ∀ c ∈ label, c.toNat < 128
  lower : ∀ c ∈ label, c.toLower = c
  unbroken : ∀ c ∈ label, c ≠ ':' ∧ c ≠ '\n'
  wordy : ∀ c ∈ label, c.isDigit = false
  head : ∀ c, label.head? = some c → isSpace c = false
  last : ∀ c, label.getLast? = some c → isSpace c = false

lemma plainLabel_of_isPlainLabel {label : List Char} (h : isPlainLabel label = true) : PlainLabel label := by
  simp only [isPlainLabel, Bool.and_eq_true, decide_eq_true_eq, List.all_eq_true, Bool.not_eq_true'] at h
  obtain ⟨⟨⟨hne, hall⟩, hhead⟩, hlast⟩ := h
  refine ⟨hne, fun c hc => (hall c hc).1.1.1.1, fun c hc => (hall c hc).1.1.1.2,
    fun c hc => ⟨(hall c hc).1.1.2, (hall c hc).1.2⟩, fun c hc => (hall c hc).2, ?_, ?_⟩
  · intro c hc
    rwa [hc] at hhead
  · intro c hc
    rwa [hc] at hlast

lemma plainLabel_of_mem {key label : String} (hkey : key ∈ leadFieldCatalog.map FieldSpec.key)
    (hlabel : label ∈ defaultLabels key) : PlainLabel label.toList := by
  have hall : (leadFieldCatalog.map FieldSpec.key).all (fun key =>
      (defaultLabels key).all (fun label => isPlainLabel label.toList)) = true := by decide +kernel
  exact plainLabel_of_isPlainLabel (List.all_eq_true.mp (List.all_eq_true.mp hall key hkey) label hlabel)

lemma key_of_label {key key' label : String} (hkey : key ∈ leadFieldCatalog.map FieldSpec.key)
    (hkey' : key' ∈ leadFieldCatalog.map FieldSpec.key) (hlabel : label ∈ defaultLabels key)
    (hlabel' : label ∈ defaultLabels key') : key = key' := by
  have hall : (leadFieldCatalog.map FieldSpec.key).all (fun key =>
      (leadFieldCatalog.map FieldSpec.key).all (fun key' =>
        key = key' || (defaultLabels key).all (fun label => label ∉ defaultLabels key'))) = true := by decide +kernel
  have hpair := List.all_eq_true.mp (List.all_eq_true.mp hall key hkey) key' hkey'
  rw [Bool.or_eq_true, decide_eq_true_eq] at hpair
  refine hpair.resolve_right (fun hnone => ?_)
  exact absurd hlabel' (of_decide_eq_true (List.all_eq_true.mp hnone label hlabel))

lemma Line.plain (l : Line) : PlainLabel l.label.toList := plainLabel_of_mem l.key_mem l.label_mem

variable {chars : Characters} {norm : List Char}

lemma PlainLabel.not_isDecimal (h : PlainLabel norm) {c : Char} (hc : c ∈ norm) : chars.isDecimal c = false := by
  rw [Characters.isDecimal, chars.decimal_ascii c (h.ascii c hc), if_neg (by simp [h.wordy c hc])]
  rfl

lemma PlainLabel.map_toLower (h : PlainLabel norm) : norm.map Char.toLower = norm :=
  (List.map_congr_left h.lower).trans norm.map_id

lemma PlainLabel.normLabel_eq {label : String} (h : PlainLabel label.toList) :
    normLabel chars label = label.toList := by
  have hcolon : rstripColon label.toList = label.toList := by
    have hlast : ∀ c, label.toList.reverse.head? = some c → decide (c = ':') = false := by
      intro c hc
      exact decide_eq_false (h.unbroken c (List.mem_reverse.mp (List.mem_of_head? hc))).1
    rw [rstripColon, dropWhile_self hlast, List.reverse_reverse]
  rw [normLabel, stripBy_self h.head h.last, hcolon, stripBy_self h.head h.last, Characters.lower,
    Characters.lowerIn_ascii h.ascii, h.map_toLower]

end Labels

section Matches

variable {chars : Characters} {lines before later : List Line} {l : Line} {norm number a b w : List Char} {n : ℕ}

def Line.lowRow (l : Line) : List Char × List Char := l.row.map (List.map Char.toLower) (List.map Char.toLower)

lemma Line.lowRow_fst (l : Line) : l.lowRow.1 = l.label.toList := l.plain.map_toLower

lemma lower_written (lines : List Line) : chars.lower (written lines) = sheet ':' '\n' (lines.map Line.lowRow) := by
  have hascii : ∀ c ∈ written lines, c.toNat < 128 := by
    intro c hc
    rcases mem_sheet hc with rfl | rfl | ⟨row, hrow, hin⟩
    · decide
    · decide
    · obtain ⟨l, -, rfl⟩ := List.mem_map.mp hrow
      rcases hin with hin | hin
      · exact l.plain.ascii c hin
      · rcases List.mem_cons.mp hin with rfl | hin
        · decide
        · exact l.value_ascii c hin
  rw [Characters.lower, Characters.lowerIn_ascii hascii, written, sheet_map, List.map_map]
  rfl

lemma Line.colon_notMem (l : Line) : ':' ∉ l.lowRow.1 ∧ ':' ∉ l.lowRow.2 := by
  constructor
  · rw [l.lowRow_fst]
    exact fun h => (l.plain.unbroken ':' h).1 rfl
  · intro h
    obtain ⟨c, hc, hlower⟩ := List.mem_map.mp h
    have hself := Characters.eq_of_toLower_caseless (.inr (.inr hlower))
    rw [hlower] at hself
    subst hself
    rcases List.mem_cons.mp hc with heq | hc
    · exact absurd heq (by decide)
    · exact (l.value_unbroken ':' hc).1 rfl

lemma labelMatch_written (hnorm : PlainLabel norm) (hlow : sheet ':' '\n' (lines.map Line.lowRow) = a ++ b)
    (hm : labelMatch chars norm b = some (number, n)) :
    ∃ before l later w, lines = before ++ l :: later ∧ l.label.toList = w ++ norm ∧
      a = above ':' '\n' (before.map Line.lowRow) ++ w ∧ number = [] ∧ n = norm.length + 1 := by
  obtain ⟨t, after, rfl, rfl, ht, hnumber⟩ := labelMatch_eq_some hm
  have hcolons : ∀ row ∈ lines.map Line.lowRow, ':' ∉ row.1 ∧ ':' ∉ row.2 := by
    intro row hrow
    obtain ⟨l, -, rfl⟩ := List.mem_map.mp hrow
    exact l.colon_notMem
  rw [← List.append_assoc] at hlow
  obtain ⟨rows, row, rows', hrows, hplace⟩ := above_of_mark (by decide) hcolons hlow
  obtain ⟨before, rest, rfl, rfl, hrest⟩ := List.map_eq_append_iff.mp hrows
  obtain ⟨l, later, rfl, rfl, -⟩ := List.map_eq_cons_iff.mp hrest
  rw [l.lowRow_fst] at hplace
  have htail : t = [] := by
    rcases List.eq_nil_or_concat' t with rfl | ⟨t, c, rfl⟩
    · rfl
    · have hlast := congrArg List.getLast? hplace
      rw [List.getLast?_append_of_ne_nil _ l.plain.ne, ← List.append_assoc, ← List.append_assoc,
        List.getLast?_concat] at hlast
      have hmem := List.mem_of_getLast? hlast.symm
      rcases ht.caseless c (by simp) with hc | hc
      · exact absurd hc (by simp [l.plain.last c hlast.symm])
      · exact absurd hc (by simp [l.plain.not_isDecimal hmem])
  subst htail
  rw [List.append_nil] at hplace
  obtain ⟨w, rfl, hlabel⟩ := within_row hplace (fun h => (hnorm.unbroken _ h).2 rfl)
  refine ⟨before, l, later, w, rfl, hlabel, rfl, ?_, rfl⟩
  exact List.eq_nil_iff_forall_not_mem.mpr (fun c hc => absurd (hnumber c hc) List.not_mem_nil)

lemma labelMatch_own (l : Line) (s : List Char) :
    labelMatch chars l.label.toList (rowText ':' l.lowRow ++ s) = some ([], l.label.toList.length + 1) := by
  have hcolon : chars.isDecimal ':' = false := by
    rw [Characters.isDecimal, chars.decimal_ascii ':' (by decide)]
    rfl
  have htail : labelTail chars (':' :: (l.lowRow.2 ++ s)) = some ([], 1) := by
    rw [labelTail, List.dropWhile_cons_of_neg (by decide), List.dropWhile_cons_of_neg (by simp [hcolon]),
      List.dropWhile_cons_of_neg (by decide), List.takeWhile_cons_of_neg (by simp [hcolon])]
    simp
  rw [rowText, l.lowRow_fst, List.append_assoc, List.cons_append, labelMatch, if_pos (List.prefix_append _ _),
    List.drop_left, htail]
  rfl

end Matches

section Places

variable {chars : Characters} {lines before later : List Line} {l : Line} {h : Hit} {hits : List Hit}

def place (lines : List Line) : ℕ := (above ':' '\n' (lines.map Line.row)).length

lemma place_append_cons (before : List Line) (l : Line) (m : List Line) :
    place (before ++ l :: m) = place before + l.label.toList.length + l.value.toList.length + 3 + place m := by
  simp only [place, List.map_append, List.map_cons, above_append, above_cons, List.length_append, List.length_cons,
    rowText, Line.row]
  omega

lemma length_above_lowRow (lines : List Line) : (above ':' '\n' (lines.map Line.lowRow)).length = place lines := by
  induction lines with
  | nil => rfl
  | cons l lines ih =>
    have hplace := place_append_cons [] l lines
    rw [List.nil_append] at hplace
    rw [hplace, List.map_cons, above_cons, List.length_append, List.length_cons, ih, rowText, l.lowRow_fst, Line.lowRow,
      Line.row, Prod.map_snd, List.length_append, List.length_cons, List.length_map, List.length_cons]
    change _ = 0 + _ + _ + _ + _
    omega

def Line.hit (l : Line) (pos : ℕ) : Hit := ⟨pos, pos + l.label.toList.length + 1, l.key, 0, l.label.toList⟩

lemma mem_labelsByKey {e : String × List String} : e ∈ labelsByKey ⟨Dict.empty, Dict.empty⟩ ↔
    e.1 ∈ leadFieldCatalog.map FieldSpec.key ∧ e.2 = defaultLabels e.1 := by
  rw [labelsByKey, List.mem_map]
  constructor
  · rintro ⟨spec, hspec, rfl⟩
    exact ⟨List.mem_map_of_mem hspec, rfl⟩
  · rintro ⟨hkey, hlabels⟩
    obtain ⟨spec, hspec, heq⟩ := List.mem_map.mp hkey
    refine ⟨spec, hspec, Prod.ext heq ?_⟩
    rw [hlabels, ← heq]
    rfl

lemma lineBefore_above {rows : List (List Char × List Char)} {w : List Char} (hw : '\n' ∉ w) :
    lineBefore (above ':' '\n' rows ++ w) = w := by
  have hall : ∀ c ∈ w.reverse, decide (c ≠ '\n') = true := by
    intro c hc
    rw [decide_eq_true_eq]
    rintro rfl
    exact hw (List.mem_reverse.mp hc)
  have habove : (above ':' '\n' rows).reverse.takeWhile (fun c => decide (c ≠ '\n')) = [] := by
    rcases List.eq_nil_or_concat' rows with rfl | ⟨rows, row, rfl⟩
    · rfl
    · rw [above_append, above_cons, List.reverse_append, List.reverse_append]
      rfl
  rw [lineBefore, List.reverse_append, List.takeWhile_append_of_pos hall, habove, List.append_nil, List.reverse_reverse]

lemma hitIndex_written {key : String} {norm w b : List Char} {rows : List (List Char × List Char)}
    (hw : ∀ c ∈ w, c ≠ '\n' ∧ chars.isDecimal c = false) :
    hitIndex chars Dict.empty (above ':' '\n' rows ++ w ++ b) key norm (above ':' '\n' rows ++ w).length [] =
      some 0 := by
  rw [hitIndex, if_neg (fun hne => hne rfl), List.take_left, lineBefore_above (fun hin => (hw _ hin).1 rfl),
    search_vehiclePrefix (fun c hc => (hw c hc).2)]
  rfl

end Places

end TheCargo.LeadFields
