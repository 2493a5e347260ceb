import TheCargo.Templating.Rules

namespace TheCargo.Templating

open Foundation Foundation.Pattern

variable {c : Char} {u v w r s o key tail : List Char} {before : Option Char} {x : String} {H : Rule Char}

def Settled (x : String) : Prop :=
  '{' ∉ x.toList ∧ ∀ before u r v s, DoubleRule before u r v → u ++ r = reference x ++ s → v = u

def mapped (key : String) : String := (legacyMapping.get? key).getD key

lemma replaceDouble_word (h : IsWord key) : replaceDouble key u = reference (mapped (String.ofList key)) := by
  rw [replaceDouble, h.path.strip]
  rfl

lemma settled_of (hw : x.toList = w) (hne : w ≠ []) (hopen : '{' ∉ w) (hclose : '}' ∉ w)
    (hfirst : ∀ c, w.head? = some c → isSpace c = false) (hlast : ∀ c, w.getLast? = some c → isSpace c = false)
    (hword : IsWord w → mapped x = x) : Settled x := by
  obtain rfl := hw
  refine ⟨hopen, ?_⟩
  intro before u r v s hu he
  have htext : u ++ r = '{' :: '{' :: ([' '] ++ (x.toList ++ ([' '] ++ '}' :: '}' :: s))) := by
    rw [he]
    simp [reference]
  obtain ⟨hk, rfl, rfl⟩ := double_text hu htext blank_space blank_space hne hclose hfirst hlast
  rw [replaceDouble_word hk, String.ofList_toList, hword hk]
  simp [reference]

lemma settled_mapped {e : String × String} (h : e ∈ legacyMapping.items) : Settled e.2 := by
  have hall : ∀ e ∈ legacyMapping.items, e.2.toList ≠ [] ∧ '{' ∉ e.2.toList ∧ '}' ∉ e.2.toList ∧
      e.2.toList.head?.any isSpace = false ∧ e.2.toList.getLast?.any isSpace = false ∧ '.' ∈ e.2.toList := by decide
  obtain ⟨hne, hopen, hclose, hfirst, hlast, hdot⟩ := hall e h
  refine settled_of rfl hne hopen hclose (fun c hc => ?_) (fun c hc => ?_) ?_
  · rw [hc] at hfirst
    exact hfirst
  · rw [hc] at hlast
    exact hlast
  · exact fun hw => absurd (hw.word _ hdot) (by decide)

lemma settled_key (hk : IsPath key) (h : legacyMapping.get? (String.ofList key) = none) :
    Settled (String.ofList key) := by
  have hspace : ∀ c ∈ key, isSpace c = false := fun c hc => solid_not_space (hk.solid c hc)
  have hbrace : ∀ k, k = '{' ∨ k = '}' → k ∉ key := fun k h => not_mem_of_solid (brace_not_solid h) hk.solid
  refine settled_of String.toList_ofList hk.ne_nil (hbrace '{' (Or.inl rfl)) (hbrace '}' (Or.inr rfl))
    (fun c hc => hspace c (List.mem_of_head? hc)) (fun c hc => hspace c (List.mem_of_getLast? hc)) ?_
  intro _
  rw [mapped, h]
  rfl

lemma settled_filtered {filt : String} (hk : IsPath key) (hne : filt ≠ "")
    (hopen : '{' ∉ filt.toList) (hclose : '}' ∉ filt.toList)
    (hlast : ∀ c, filt.toList.getLast? = some c → isSpace c = false) :
    Settled (String.ofList key ++ (" " ++ filt)) := by
  have htext : (String.ofList key ++ (" " ++ filt)).toList = key ++ ' ' :: filt.toList := by simp
  have hfilt : filt.toList ≠ [] := fun h => hne (String.toList_eq_nil_iff.mp h)
  have hnot : ∀ b, isSolid b = false → b ≠ ' ' → b ∉ filt.toList → b ∉ key ++ ' ' :: filt.toList := by
    intro b hb hspace hmem
    rw [List.mem_append, List.mem_cons, not_or, not_or]
    exact ⟨not_mem_of_solid hb hk.solid, hspace, hmem⟩
  refine settled_of htext (List.append_ne_nil_of_left_ne_nil hk.ne_nil _) (hnot '{' (by decide) (by decide) hopen)
    (hnot '}' (by decide) (by decide) hclose) (hk.head _) ?_ ?_
  · rw [List.getLast?_append_of_ne_nil _ (List.cons_ne_nil _ _), List.getLast?_cons_of_ne_nil hfilt]
    exact hlast
  · intro hw
    have hspace := hw.solid ' ' (List.mem_append_right _ List.mem_cons_self)
    exact absurd hspace (by decide)

lemma replaceSingle_cases (hk : IsPath key) (ht : IsTail tail) :
    replaceSingle (key, some tail) u = u ∨ ∃ x, Settled x ∧ replaceSingle (key, some tail) u = reference x := by
  have hfilt : ∀ b, b ∈ (strip (String.ofList tail)).toList → b ∈ tail := by
    intro b hb
    have hmem := strip_subset hb
    rwa [String.toList_ofList] at hmem
  simp only [replaceSingle, hk.strip, Option.getD_some]
  split
  · rename_i liquidPath h
    exact Or.inr ⟨liquidPath, settled_mapped (Dict.mem_items.mpr h), rfl⟩
  · rename_i h
    split
    · refine Or.inr ⟨_, ?_, rfl⟩
      split
      · rename_i hne
        exact settled_filtered hk hne (fun hm => ht.not_mem (Or.inl rfl) (hfilt _ hm))
          (fun hm => ht.not_mem (Or.inr rfl) (hfilt _ hm)) (fun c hc => strip_getLast hc)
      · rw [String.append_empty]
        exact settled_key hk h
    · exact Or.inl rfl

lemma settled_word (hk : IsWord key) : Settled (mapped (String.ofList key)) := by
  rw [mapped]
  cases h : legacyMapping.get? (String.ofList key) with
  | none => exact settled_key hk.path h
  | some liquidPath => exact settled_mapped (Dict.mem_items.mpr h)

lemma single_target (h : SingleRule before u r v) : v = u ∨ ∃ x, Settled x ∧ v = reference x := by
  obtain ⟨_, _, l, key, tail, _, hk, ht, _, rfl⟩ := h
  exact replaceSingle_cases hk ht

lemma double_target (h : DoubleRule before u r v) : ∃ x, Settled x ∧ v = reference x := by
  obtain ⟨l, key, l', _, hk, _, _, rfl⟩ := h
  exact ⟨_, settled_word hk, replaceDouble_word hk⟩

lemma single_source (h : SingleRule before u r v) : ∃ p, u = '{' :: p ∧ '{' ∉ p ∧ p ≠ [] := by
  obtain ⟨_, _, l, key, tail, hl, hk, ht, rfl, _⟩ := h
  refine ⟨_, rfl, ?_, ?_⟩
  · have hinner := not_mem_inner (Or.inl rfl) hl hk ht
    rw [← List.append_assoc, ← List.append_assoc, List.mem_append, not_or, List.append_assoc]
    exact ⟨hinner, by decide⟩
  · exact List.append_ne_nil_of_right_ne_nil _ (List.append_ne_nil_of_left_ne_nil hk.ne_nil _)

lemma double_source (h : DoubleRule before u r v) : ∃ p, u = '{' :: '{' :: p ∧ '{' ∉ p ∧ p ≠ [] := by
  obtain ⟨l, key, l', hl, hk, hl', rfl, _⟩ := h
  refine ⟨l ++ (key ++ (l' ++ ['}', '}'])), rfl, ?_, ?_⟩
  · simp only [List.mem_append, not_or]
    exact ⟨not_mem_of_blank (by decide) hl, not_mem_of_solid (by decide) hk.solid,
      not_mem_of_blank (by decide) hl', by decide⟩
  · exact List.append_ne_nil_of_right_ne_nil _ (List.append_ne_nil_of_left_ne_nil hk.path.ne_nil _)

lemma opens_single : SingleRule.Opens '{' where
  source := by
    intro before u r v h
    obtain ⟨p, rfl, _⟩ := single_source h
    rfl
  target := by
    intro before u r v h
    rcases single_target h with rfl | ⟨x, _, rfl⟩
    · obtain ⟨p, rfl, _⟩ := single_source h
      rfl
    · rfl

def Still (s : List Char) : Prop := ∀ before u r v, u ++ r <:+ s → DoubleRule before u r v → v = u

lemma still_cons (hs : Still s) (h : ∀ before u r v, u ++ r = c :: s → DoubleRule before u r v → v = u) :
    Still (c :: s) := by
  intro before u r v hsuf hu
  rcases List.suffix_cons_iff.mp hsuf with he | hsuf
  · exact h before u r v he hu
  · exact hs before u r v hsuf hu

lemma still_append {p : List Char} (hp : '{' ∉ p) (hs : Still s) : Still (p ++ s) := by
  induction p with
  | nil => exact hs
  | cons c p ih =>
    rw [List.mem_cons, not_or] at hp
    refine still_cons (ih hp.2) ?_
    intro before u r v he hu
    obtain ⟨q, rfl, _⟩ := double_source hu
    exact absurd (List.cons.inj he).1 hp.1

lemma still_brace {p : List Char} (hp : '{' ∉ p) (hne : p ≠ []) (hs : Still s) : Still ('{' :: (p ++ s)) := by
  refine still_cons (still_append hp hs) ?_
  intro before u r v he hu
  obtain ⟨q, rfl, _⟩ := double_source hu
  obtain ⟨c, p, rfl⟩ := List.exists_cons_of_ne_nil hne
  obtain rfl := (List.cons.inj (List.cons.inj he).2).1
  exact absurd List.mem_cons_self hp

lemma reference_append (x : String) (s : List Char) :
    reference x ++ s = '{' :: '{' :: (' ' :: (x.toList ++ [' ', '}', '}']) ++ s) := by simp [reference]

lemma reference_plain (hx : '{' ∉ x.toList) : '{' ∉ ' ' :: (x.toList ++ [' ', '}', '}']) := by
  rw [List.mem_cons, List.mem_append, not_or, not_or]
  exact ⟨by decide, hx, by decide⟩

lemma still_reference (hx : Settled x) (hs : Still s) : Still (reference x ++ s) := by
  rw [reference_append]
  refine still_cons (still_brace (reference_plain hx.1) (List.cons_ne_nil _ _) hs) ?_
  intro before u r v he hu
  exact hx.2 before u r v s hu (he.trans (reference_append x s).symm)

-- What the first rule takes in the outcome of a scan past a missed place stood there before the scan.
lemma double_back (hk : H.Opens '{') (hblock : ∀ u r v, H (some '{') u r v → ∃ q, v = '{' :: '{' :: q)
    (next : Scan H (some c) s o) (hu : DoubleRule before u r v) (he : u ++ r = c :: o) : ∃ t, c :: s = u ++ t := by
  obtain ⟨p, rfl, hp, hne⟩ := double_source hu
  obtain ⟨rfl, ho⟩ := List.cons.inj he
  cases next with
  | nil => exact absurd ho (List.cons_ne_nil _ _)
  | miss _ next =>
    obtain ⟨rfl, hrest⟩ := List.cons.inj ho
    obtain ⟨t, rfl, _⟩ := next.of_eq_append hk hp hrest.symm
    exact ⟨t, rfl⟩
  | hit hv next =>
    obtain ⟨q, rfl⟩ := hblock _ _ _ hv
    obtain ⟨d, p, rfl⟩ := List.exists_cons_of_ne_nil hne
    obtain ⟨rfl, _⟩ := List.cons.inj (List.cons.inj ho).2
    exact absurd List.mem_cons_self hp

lemma still_scan (hk : H.Opens '{') (hblock : ∀ u r v, H (some '{') u r v → ∃ q, v = '{' :: '{' :: q)
    (hv : ∀ before u r v o, H before u r v → Still o → Still (v ++ o)) (h : Scan H before s o)
    (hmiss : ∀ before c t, c :: t <:+ s → (∀ u r v, c :: t = u ++ r → ¬ H before u r v) →
      ∀ u r v, c :: t = u ++ r → DoubleRule before u r v → v = u) : Still o := by
  induction h with
  | nil before =>
    intro before u r v hsuf hu
    obtain ⟨p, rfl, _⟩ := double_source hu
    exact absurd (List.suffix_nil.mp hsuf) (List.cons_ne_nil _ _)
  | miss hs next ih =>
    refine still_cons (ih (fun b c t ht => hmiss b c t (ht.trans (List.suffix_cons _ _)))) ?_
    intro b u r v he hu
    obtain ⟨t, ht⟩ := double_back hk hblock next hu he
    exact hmiss _ _ _ (List.suffix_refl _) hs u t v ht hu
  | hit hu next ih =>
    exact hv _ _ _ _ _ hu (ih (fun b c t ht => hmiss b c t (ht.trans (List.suffix_append _ _))))

lemma scan_double (s : List Char) : Scan DoubleRule none s (rewriteDouble s) :=
  scan_sub follows_double proper_double none s

lemma scan_single (s : List Char) : Scan SingleRule none s (rewriteSingle s) :=
  scan_sub follows_single proper_single none s

lemma still_double (s : List Char) : Still (rewriteDouble s) := by
  refine still_scan opens_double ?_ ?_ (scan_double s) ?_
  · intro u r v h
    obtain ⟨x, _, rfl⟩ := double_target h
    exact ⟨_, rfl⟩
  · intro b u r v o h ho
    obtain ⟨x, hx, rfl⟩ := double_target h
    exact still_reference hx ho
  · exact fun b c t _ hs u r v he hu => absurd hu (hs u r v he)

lemma still_single (hs : Still s) : Still (rewriteSingle s) := by
  refine still_scan opens_single ?_ ?_ (scan_single s) ?_
  · exact fun u r v h => absurd rfl h.1
  · intro b u r v o h ho
    rcases single_target h with rfl | ⟨x, hx, rfl⟩
    · obtain ⟨p, rfl, hp, hne⟩ := single_source h
      exact still_brace hp hne ho
    · exact still_reference hx ho
  · exact fun b c t ht _ u r v he hu => hs b u r v (he ▸ ht) hu

lemma rewriteDouble_still (hs : Still s) : rewriteDouble s = s := (scan_double s).same hs

lemma single_congr {r' : List Char} (h : SingleRule before u r v) (hr : r'.head? = r.head?) :
    SingleRule before u r' v := by
  obtain ⟨hb, ha, hu⟩ := h
  exact ⟨hb, hr ▸ ha, hu⟩

lemma single_last (h : SingleRule before u r v) : u.getLast? = some '}' := by
  obtain ⟨_, _, l, key, tail, _, _, _, rfl, _⟩ := h
  have hsplit : '{' :: (l ++ (key ++ (tail ++ ['}']))) = ('{' :: (l ++ (key ++ tail))) ++ ['}'] := by simp
  rw [hsplit, List.getLast?_concat]

lemma single_pass {p : List Char} (hp : '{' ∉ p) (hne : p ≠ []) (h : Scan SingleRule p.getLast? s o) :
    Scan SingleRule before ('{' :: '{' :: (p ++ s)) ('{' :: '{' :: (p ++ o)) := by
  have hrest : Scan SingleRule (some '{') (p ++ s) (p ++ o) := by
    apply Scan.pass opens_single hp
    rwa [getLast_or hne]
  refine Scan.miss ?_ (Scan.miss ?_ hrest)
  · intro u r v he hu
    obtain ⟨q, rfl, hq, hqne⟩ := single_source hu
    obtain ⟨d, q, rfl⟩ := List.exists_cons_of_ne_nil hqne
    obtain ⟨rfl, _⟩ := List.cons.inj (List.cons.inj he).2
    exact hq List.mem_cons_self
  · exact fun u r v _ hu => hu.1 rfl

lemma single_reference (hx : '{' ∉ x.toList) (h : Scan SingleRule (some '}') s o) :
    Scan SingleRule before (reference x ++ s) (reference x ++ o) := by
  have hlast : (' ' :: (x.toList ++ [' ', '}', '}'])).getLast? = some '}' := by
    simp [List.getLast?_cons]
  rw [reference_append, reference_append]
  exact single_pass (reference_plain hx) (List.cons_ne_nil _ _) (hlast ▸ h)

lemma single_again (h : Scan SingleRule before s o) : Scan SingleRule before o o := by
  induction h with
  | nil before => exact Scan.nil before
  | miss hs next ih =>
    refine Scan.miss ?_ ih
    intro u r v he hu
    obtain ⟨p, rfl, hp, _⟩ := single_source hu
    obtain ⟨rfl, ho⟩ := List.cons.inj he
    obtain ⟨t, rfl, ht⟩ := next.of_eq_append opens_single hp ho
    exact hs _ t v rfl (single_congr hu (ht.head_eq opens_single).symm)
  | hit hu next ih =>
    rcases single_target hu with rfl | ⟨x, hx, rfl⟩
    · exact Scan.hit (single_congr hu (next.head_eq opens_single)) ih
    · rw [single_last hu] at ih
      exact single_reference hx.1 ih

lemma rewriteSingle_twice (s : List Char) : rewriteSingle (rewriteSingle s) = rewriteSingle s :=
  (scan_single (rewriteSingle s)).unique proper_single (single_again (scan_single s))

lemma legacyToLiquid_toList (template : String) :
    (legacyToLiquid template).toList = rewriteSingle (rewriteDouble template.toList) := by
  rw [legacyToLiquid]
  split
  · rename_i h
    rw [h]
    rfl
  · exact String.toList_ofList

theorem legacy_rewriting_is_idempotent (template : String) :
    legacyToLiquid (legacyToLiquid template) = legacyToLiquid template := by
  apply String.toList_injective
  have hstill := still_single (still_double template.toList)
  rw [legacyToLiquid_toList, legacyToLiquid_toList, rewriteDouble_still hstill, rewriteSingle_twice]

end TheCargo.Templating
