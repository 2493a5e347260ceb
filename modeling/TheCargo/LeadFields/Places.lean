import TheCargo.LeadFields.Hits
import TheCargo.LeadFields.Trim

namespace TheCargo.LeadFields

open Foundation

variable {chars : Characters} {strptime : Strptime} {text : List Char} {kept : List Hit} {h : Hit} {found : Found}
  {key : String} {index : ℕ} {r : Reading}

section Found

def Found.at_ (found : Found) (key : String) (index : ℕ) : Option Reading :=
  ((found.get? key).getD Dict.empty).get? index

lemma at_setDefault (found : Found) (key key' : String) (index index' : ℕ) (r : Reading) :
    (setDefault found key index r).at_ key' index' =
      if key = key' ∧ index = index' then some ((found.at_ key index).getD r) else found.at_ key' index' := by
  rw [Found.at_, setDefault, Dict.get?_set]
  by_cases hkey : key = key'
  · subst hkey
    rw [if_pos rfl, Option.getD_some, Found.at_]
    cases hat : ((found.get? key).getD Dict.empty).get? index with
    | some r' =>
      by_cases hindex : index = index'
      · subst hindex
        simp [hat]
      · simp [hindex, Found.at_]
    | none =>
      by_cases hindex : index = index'
      · subst hindex
        simp
      · simp [hindex, Found.at_]
  · rw [if_neg hkey, if_neg (fun h => hkey h.1)]
    rfl

lemma readKept_at {hs : List Hit} (hr : (readKept text hs found).at_ key index = some r) :
    found.at_ key index = some r ∨
      ∃ before h rest, hs = before ++ h :: rest ∧ r = reading text h (nextStart text rest) := by
  induction hs generalizing found with
  | nil => exact .inl hr
  | cons h rest ih =>
    have hlater {found' : Found} (hin : (readKept text rest found').at_ key index = some r) :
        found'.at_ key index = some r ∨
          ∃ before g rest', h :: rest = before ++ g :: rest' ∧ r = reading text g (nextStart text rest') := by
      rcases ih hin with hin | ⟨before, g, rest', rfl, hreading⟩
      · exact .inl hin
      · exact .inr ⟨h :: before, g, rest', rfl, hreading⟩
    rw [readKept] at hr
    split at hr
    · exact hlater hr
    · rcases hlater hr with hset | hlater
      · rw [at_setDefault] at hset
        split at hset
        · next heq =>
          obtain ⟨rfl, rfl⟩ := heq
          cases hat : found.at_ h.key h.index with
          | some r' =>
            rw [hat] at hset
            exact .inl hset
          | none =>
            rw [hat] at hset
            exact .inr ⟨[], h, rest, rfl, (Option.some.inj hset).symm⟩
        · exact .inl hset
      · exact .inr hlater

lemma at_readKept_of_some {hs : List Hit} (hr : found.at_ key index = some r) :
    (readKept text hs found).at_ key index = some r := by
  induction hs generalizing found with
  | nil => exact hr
  | cons h rest ih =>
    rw [readKept]
    split
    · exact ih hr
    · apply ih
      rw [at_setDefault]
      split
      · next heq =>
        obtain ⟨rfl, rfl⟩ := heq
        rw [hr, Option.getD_some]
      · exact hr

lemma at_readKept_of_key_ne {hs : List Hit} (hkeys : ∀ h ∈ hs, h.key ≠ key) :
    (readKept text hs found).at_ key index = found.at_ key index := by
  induction hs generalizing found with
  | nil => rfl
  | cons h rest ih =>
    obtain ⟨hkey, hrest⟩ := List.forall_mem_cons.mp hkeys
    rw [readKept]
    split
    · exact ih hrest
    · rw [ih hrest, at_setDefault, if_neg (fun heq => hkey heq.1)]

lemma at_readKept_first {before rest : List Hit} (hkeys : ∀ g ∈ before, g.key ≠ h.key)
    (hnone : found.at_ h.key h.index = none) (hvalue : readValue text h (nextStart text rest) ≠ []) :
    (readKept text (before ++ h :: rest) found).at_ h.key h.index = some (reading text h (nextStart text rest)) := by
  induction before generalizing found with
  | nil =>
    rw [List.nil_append, readKept, if_neg hvalue]
    apply at_readKept_of_some
    rw [at_setDefault, if_pos ⟨rfl, rfl⟩, hnone, Option.getD_none]
  | cons g before ih =>
    obtain ⟨hkey, hbefore⟩ := List.forall_mem_cons.mp hkeys
    rw [List.cons_append, readKept]
    split
    · exact ih hbefore hnone
    · apply ih hbefore
      rw [at_setDefault, if_neg (fun heq => hkey heq.1)]
      exact hnone

lemma emit_value {spec : FieldSpec} {v l : String} (hv : (emit chars strptime found spec index).value = some v)
    (hl : (emit chars strptime found spec index).matchedLabel = some l) :
    ∃ r, found.at_ spec.key index = some r ∧ r.value = v ∧ r.matchedLabel = l := by
  rw [emit] at hv hl
  rw [Found.at_]
  cases hr : ((found.get? spec.key).getD Dict.empty).get? index with
  | none =>
    rw [hr] at hv
    exact absurd hv (by simp)
  | some r =>
    rw [hr] at hv hl
    exact ⟨r, rfl, Option.some.inj hv, Option.some.inj hl⟩

lemma entry_reading {f : FieldEntry} (hf : f ∈ (fieldsOf chars strptime text kept).fields ++
      (fieldsOf chars strptime text kept).vehicles.flatten) {v l : String} (hv : f.value = some v)
    (hl : f.matchedLabel = some l) :
    ∃ before h rest, kept = before ++ h :: rest ∧ v = String.ofList (readValue text h (nextStart text rest)) ∧
      l = String.ofList h.norm := by
  have hemit : ∃ spec index, f = emit chars strptime (readKept text kept Dict.empty) spec index := by
    rcases List.mem_append.mp hf with hf | hf
    · obtain ⟨spec, -, rfl⟩ := List.mem_map.mp hf
      exact ⟨spec, _, rfl⟩
    · obtain ⟨fields, hfields, hf⟩ := List.mem_flatten.mp hf
      obtain ⟨index, -, rfl⟩ := List.mem_map.mp hfields
      obtain ⟨spec, -, rfl⟩ := List.mem_map.mp hf
      exact ⟨spec, index, rfl⟩
  obtain ⟨spec, index, rfl⟩ := hemit
  obtain ⟨r, hr, rfl, rfl⟩ := emit_value hv hl
  rcases readKept_at hr with hempty | ⟨before, h, rest, rfl, rfl⟩
  · exact absurd hempty (by simp [Found.at_, Dict.get?, Dict.empty, lookup])
  · exact ⟨before, h, rest, rfl, rfl, rfl⟩

end Found

def upTo (starts : List ℕ) : ℕ → List Char → List Char
  | _, [] => []
  | q, c :: s => if c = '\n' ∨ q ∈ starts then [] else c :: upTo starts (q + 1) s

def FollowsLabel (chars : Characters) (text : List Char) (kept : List Hit) (v l : String) : Prop :=
  ∃ a p t rest, text = a ++ p ++ t ++ ':' :: rest ∧ chars.lowerIn a p (t ++ ':' :: rest) = l.toList ∧ Tail chars t ∧
    v.toList = stripBy isTrim
      (upTo (kept.map (fun h => chars.origin [] text h.start)) (a.length + p.length + t.length + 1) rest)

def segment (text : List Char) (h : Hit) (rest : List Hit) : List Char :=
  slice text h.stop (valueEnd text h.stop (nextStart text rest))

structure Faithful (chars : Characters) (text : List Char) (kept : List Hit) : Prop where
  steady : ∀ h ∈ kept, h.stop ≤ chars.steady [] text
  tidy : ∀ before h rest, kept = before ++ h :: rest → Tidy (segment text h rest)

lemma place_of_at (hat : h.At chars (chars.lower text)) (hsteady : h.stop ≤ chars.steady [] text) :
    ∃ a p t rest, text = a ++ p ++ t ++ ':' :: rest ∧ chars.lowerIn a p (t ++ ':' :: rest) = h.norm ∧ Tail chars t ∧
      a.length + p.length + t.length + 1 = h.stop := by
  obtain ⟨u, w, b, hlower, hu, hstop, htail⟩ := hat
  rw [Characters.lower, List.append_assoc, List.append_assoc] at hlower
  obtain ⟨a, s, rfl, ha, -, hs, hleft⟩ := Characters.split_lower hlower (by omega)
  rw [List.nil_append] at hs hleft
  obtain ⟨p, s, rfl, hp, hnorm, hs, hleft'⟩ := Characters.split_lower hs (by omega)
  have hcolon : w ++ ':' :: b = (w ++ [':']) ++ b := by rw [List.append_assoc, List.singleton_append]
  rw [hcolon] at hs
  obtain ⟨tc, rest, rfl, htc, hw, -, hleft''⟩ := Characters.split_lower hs
    (by rw [List.length_append, List.length_singleton]; omega)
  rw [List.length_append, List.length_singleton] at htc
  have hsame : tc = w ++ [':'] := by
    refine Characters.eq_of_lowerIn_caseless hw (by rw [htc, List.length_append, List.length_singleton]) (by omega) ?_
    intro d hd
    rcases List.mem_append.mp hd with hd | hd
    · exact (htail.caseless d hd).imp id .inl
    · exact .inr (.inr (List.mem_singleton.mp hd))
  subst hsame
  refine ⟨a, p, w, rest, by simp only [List.append_assoc, List.singleton_append], ?_, htail, by omega⟩
  rwa [List.append_assoc, List.singleton_append] at hnorm

lemma upTo_eq {starts : List ℕ} {q next : ℕ} {s : List Char} (hq : q ≤ next) (hstarts : ∀ k ∈ starts, k < q ∨ next ≤ k)
    (hnext : next ∈ starts ∨ q + s.length ≤ next) : upTo starts q s = s.take (min (next - q) (s.idxOf '\n')) := by
  induction s generalizing q with
  | nil => rw [upTo, List.take_nil]
  | cons c s ih =>
    rw [upTo, List.idxOf_cons]
    by_cases hc : c = '\n'
    · rw [if_pos (.inl hc), hc, beq_self_eq_true, cond_true, Nat.min_zero, List.take_zero]
    · rw [beq_eq_false_iff_ne.mpr hc, cond_false]
      rcases Nat.eq_or_lt_of_le hq with rfl | hlt
      · have hin : q ∈ starts := hnext.resolve_right (by rw [List.length_cons]; omega)
        rw [if_pos (.inr hin), Nat.sub_self, Nat.zero_min, List.take_zero]
      · have hnot : q ∉ starts := by
          intro hin
          rcases hstarts q hin with hk | hk <;> omega
        have hstarts' : ∀ k ∈ starts, k < q + 1 ∨ next ≤ k := by
          intro k hk
          rcases hstarts k hk with hlt | hle
          · exact .inl (by omega)
          · exact .inr hle
        have hnext' : next ∈ starts ∨ q + 1 + s.length ≤ next := by
          rw [List.length_cons] at hnext
          exact hnext.imp id (by omega)
        have hmin : min (next - q) (s.idxOf '\n' + 1) = min (next - (q + 1)) (s.idxOf '\n') + 1 := by omega
        rw [if_neg (by simp [hc, hnot]), ih hlt hstarts' hnext', hmin, List.take_succ_cons]

lemma segment_eq {rest : List Hit} (hle : h.stop ≤ nextStart text rest) : segment text h rest =
    (text.drop h.stop).take (min (nextStart text rest - h.stop) ((text.drop h.stop).idxOf '\n')) := by
  rw [segment, slice, valueEnd, lineEnd]
  split
  · next hnone =>
    split at hnone
    · exact absurd hnone (by simp)
    · next hmem =>
      rw [List.idxOf_eq_length hmem, List.take_eq_take_min]
  · next e he =>
    split at he
    · obtain rfl := Option.some.inj he
      congr 1
      omega
    · exact absurd he (by simp)

lemma nextStart_le {rest : List Hit} (hrest : rest.Pairwise (fun g h => g.stop ≤ h.start))
    (hproper : ∀ g ∈ rest, g.start ≤ g.stop) : ∀ g ∈ rest, nextStart text rest ≤ g.start := by
  cases rest with
  | nil => exact fun g hg => absurd hg List.not_mem_nil
  | cons r rs =>
    intro g hg
    rcases List.mem_cons.mp hg with rfl | hg
    · exact Nat.le_refl _
    · exact Nat.le_trans (hproper r List.mem_cons_self) ((List.pairwise_cons.mp hrest).1 g hg)

lemma starts_apart {before rest : List Hit} (hapart : (before ++ h :: rest).Pairwise (fun g h => g.stop ≤ h.start))
    (hproper : ∀ g ∈ before ++ h :: rest, g.start < g.stop) :
    ∀ k ∈ (before ++ h :: rest).map Hit.start, k < h.stop ∨ nextStart text rest ≤ k := by
  obtain ⟨-, hlater, hacross⟩ := List.pairwise_append.mp hapart
  have hh := hproper h (by simp)
  intro k hk
  obtain ⟨g, hg, rfl⟩ := List.mem_map.mp hk
  rcases List.mem_append.mp hg with hin | hin
  · have hle := hacross g hin h List.mem_cons_self
    have hlt := hproper g hg
    exact .inl (by omega)
  · rcases List.mem_cons.mp hin with rfl | hin
    · exact .inl hh
    · exact .inr (nextStart_le (List.pairwise_cons.mp hlater).2
        (fun d hd => (hproper d (by simp [hd])).le) g hin)

lemma followsLabel_of_kept {before rest : List Hit} (hat : ∀ g ∈ before ++ h :: rest, g.At chars (chars.lower text))
    (hapart : (before ++ h :: rest).Pairwise (fun g h => g.stop ≤ h.start))
    (hfaithful : Faithful chars text (before ++ h :: rest)) :
    FollowsLabel chars text (before ++ h :: rest) (String.ofList (readValue text h (nextStart text rest)))
      (String.ofList h.norm) := by
  have hin : h ∈ before ++ h :: rest := by simp
  obtain ⟨a, p, t, after, htext, hnorm, htail, hstop⟩ := place_of_at (hat h hin) (hfaithful.steady h hin)
  have hproper : ∀ g ∈ before ++ h :: rest, g.start < g.stop := fun g hg => (hat g hg).start_lt_stop
  have hstarts : (before ++ h :: rest).map (fun g => chars.origin [] text g.start) =
      (before ++ h :: rest).map Hit.start := by
    apply List.map_congr_left
    intro g hg
    have hlt := hproper g hg
    have hle := hfaithful.steady g hg
    exact Characters.origin_of_le_steady (by omega)
  have hlength : text.length = h.stop + after.length := by
    rw [htext]
    simp only [List.length_append, List.length_cons]
    omega
  have hdrop : text.drop h.stop = after := by
    have hsplit : text = (a ++ p ++ t ++ [':']) ++ after := by
      rw [htext, List.append_assoc _ [':'], List.singleton_append]
    have hleft : (a ++ p ++ t ++ [':']).length = h.stop := by
      simp only [List.length_append, List.length_singleton]
      omega
    rw [hsplit, ← hleft, List.drop_left]
  obtain ⟨-, hlater, -⟩ := List.pairwise_append.mp hapart
  have hnext : h.stop ≤ nextStart text rest ∧
      (nextStart text rest ∈ (before ++ h :: rest).map Hit.start ∨ h.stop + after.length ≤ nextStart text rest) := by
    cases rest with
    | nil => exact ⟨by rw [nextStart]; omega, .inr hlength.ge⟩
    | cons r rs =>
      exact ⟨(List.pairwise_cons.mp hlater).1 r List.mem_cons_self, .inl (List.mem_map.mpr ⟨r, by simp, rfl⟩)⟩
  refine ⟨a, p, t, after, htext, by rw [hnorm, String.toList_ofList], htail, ?_⟩
  rw [hstarts, hstop, upTo_eq hnext.1 (starts_apart hapart hproper) hnext.2, String.toList_ofList, ← hdrop,
    ← segment_eq hnext.1, ← tidy_iff.mp (hfaithful.tidy before h rest rfl)]
  rfl

def ReadsFaithfully (chars : Characters) (text : Option String) (parsingValues : List ParsingValue) : Prop :=
  ∀ kept, keptLabels chars text parsingValues = some kept → Faithful chars (text.getD "").toList kept

def EntriesFollowLabels (chars : Characters) (strptime : Strptime) (text : Option String)
    (parsingValues : List ParsingValue) : Prop :=
  ∀ kept r, keptLabels chars text parsingValues = some kept →
    parseEmailFields chars strptime text parsingValues = some r → ∀ f ∈ r.fields ++ r.vehicles.flatten, ∀ v l,
      f.value = some v → f.matchedLabel = some l → FollowsLabel chars (text.getD "").toList kept v l

theorem parseEmailFields_followsLabels (chars : Characters) (strptime : Strptime) (text : Option String)
    (parsingValues : List ParsingValue) (h : ReadsFaithfully chars text parsingValues) :
    EntriesFollowLabels chars strptime text parsingValues := by
  intro kept r hkept hr f hf v l hv hl
  rw [parseEmailFields, hkept, Option.map_some] at hr
  obtain rfl := Option.some.inj hr
  obtain ⟨before, g, rest, rfl, rfl, rfl⟩ := entry_reading hf hv hl
  exact followsLabel_of_kept (fun h hh => kept_at hkept hh) (kept_apart hkept) (h _ hkept)

def twoLines : String := "name: John\nemail: j@x.com"

theorem plainText_followsLabels : EntriesFollowLabels Characters.dotted (fun _ _ => none) (some twoLines) [] := by
  have hkept : keptLabels Characters.dotted (some twoLines) [] =
      some [⟨0, 5, "first_name", 0, "name".toList⟩, ⟨11, 17, "email", 0, "email".toList⟩] := by decide +kernel
  apply parseEmailFields_followsLabels
  intro kept h
  rw [hkept] at h
  obtain rfl := Option.some.inj h
  refine ⟨?_, ?_⟩
  · decide +kernel
  · intro before g rest heq
    match before with
    | [] =>
      obtain ⟨rfl, rfl⟩ := List.cons.inj heq
      exact tidy_iff.mpr (by decide +kernel)
    | [b] =>
      obtain ⟨rfl, rfl⟩ := List.cons.inj (List.cons.inj heq).2
      exact tidy_iff.mpr (by decide +kernel)
    | _ :: _ :: _ => exact absurd (congrArg List.length heq) (by simp)

theorem dottedText_shifted :
    ¬ EntriesFollowLabels Characters.dotted (fun _ _ => none) (some "İname:John") [] := by
  have hkept : keptLabels Characters.dotted (some "İname:John") [] =
      some [⟨2, 7, "first_name", 0, "name".toList⟩] := by decide +kernel
  intro h
  obtain ⟨a, p, t, rest, htext, -, -, hvalue⟩ := h _ _ hkept (by rw [parseEmailFields, hkept, Option.map_some])
    ⟨"first_name", .shipper, "FIRST NAME", "customer_first_name", some "ohn", some "İname:John", some "name", .matched,
      "matched from \"İname:John\""⟩ (by decide +kernel) "ohn" "name" rfl rfl
  have htext' : "İname".toList ++ ':' :: "John".toList = (a ++ p ++ t) ++ ':' :: rest := htext
  have hcount := congrArg (List.count ':') htext'
  rw [List.count_append, List.count_cons_self, List.count_append, List.count_cons_self] at hcount
  have hone : "İname".toList.count ':' = 0 ∧ "John".toList.count ':' = 0 := by decide
  obtain ⟨hleft, rfl⟩ := Pattern.append_cons_inj htext' (List.count_eq_zero.mp hone.1)
    (List.count_eq_zero.mp (by omega))
  have hlength := congrArg List.length hleft
  rw [List.length_append, List.length_append] at hlength
  rw [← hlength] at hvalue
  exact absurd hvalue (by decide +kernel)

end TheCargo.LeadFields
