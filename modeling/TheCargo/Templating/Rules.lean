import TheCargo.Templating.Legacy

namespace TheCargo.Templating

open Foundation Foundation.Pattern
open scoped Computability

def DoubleRule : Rule Char := fun _ u _ v =>
  ∃ l key l', Blank l ∧ IsWord key ∧ Blank l' ∧ u = ['{', '{'] ++ (l ++ (key ++ (l' ++ ['}', '}']))) ∧
    v = replaceDouble key u

def SingleRule : Rule Char := fun before u r v =>
  before ≠ some '{' ∧ r.head? ≠ some '}' ∧
    ∃ l key tail, Blank l ∧ IsPath key ∧ IsTail tail ∧ u = '{' :: (l ++ (key ++ (tail ++ ['}']))) ∧
      v = replaceSingle (key, some tail) u

def isSolid (c : Char) : Bool := isWord c || c = '.' || c = '[' || c = ']'

variable {c : Char} {u v w r l key tail : List Char} {before : Option Char}

lemma solid_toNat (h : isSolid c = true) :
    97 ≤ c.toNat ∧ c.toNat ≤ 122 ∨ 65 ≤ c.toNat ∧ c.toNat ≤ 90 ∨ 48 ≤ c.toNat ∧ c.toNat ≤ 57 ∨
      c.toNat = 95 ∨ c.toNat = 46 ∨ c.toNat = 91 ∨ c.toNat = 93 := by
  simp only [isSolid, isWord, isLetter, isDigit, Bool.or_eq_true, Bool.and_eq_true, decide_eq_true_eq, Char.le_def,
    UInt32.le_iff_toNat_le] at h
  rcases h with (((((⟨h, h'⟩ | ⟨h, h'⟩) | rfl) | ⟨h, h'⟩) | rfl) | rfl) | rfl
  · exact Or.inl ⟨h, h'⟩
  · exact Or.inr (Or.inl ⟨h, h'⟩)
  · decide
  · exact Or.inr (Or.inr (Or.inl ⟨h, h'⟩))
  · decide
  · decide
  · decide

lemma solid_not_space (h : isSolid c = true) : isSpace c = false := by
  have hn := solid_toNat h
  rw [Bool.eq_false_iff]
  intro hs
  simp only [isSpace, Bool.or_eq_true, Bool.and_eq_true, decide_eq_true_eq, beq_iff_eq] at hs
  omega

lemma digit_solid (h : isDigit c = true) : isSolid c = true := by simp [isSolid, isWord, h]

lemma word_solid (h : isWord c = true) : isSolid c = true := by simp [isSolid, h]

lemma IsWord.word (h : IsWord w) : ∀ c ∈ w, isWord c = true := by
  obtain ⟨c, u, rfl, hc, hu⟩ := h
  have hw : isWord c = true := by simp [isWord, hc]
  exact List.forall_mem_cons.mpr ⟨hw, hu⟩

lemma IsWord.solid (h : IsWord w) : ∀ c ∈ w, isSolid c = true := fun c hc => word_solid (h.word c hc)

lemma Step.solid (h : w ∈ Step) : ∀ c ∈ w, isSolid c = true := by
  rcases h with ⟨u, rfl, hu⟩ | ⟨ds, _, rfl, hds⟩
  · exact List.forall_mem_cons.mpr ⟨by decide, hu.solid⟩
  · refine List.forall_mem_cons.mpr ⟨by decide, ?_⟩
    rw [List.forall_mem_append]
    exact ⟨fun d hd => digit_solid (hds d hd), List.forall_mem_singleton.mpr (by decide)⟩

lemma IsPath.solid (h : IsPath w) : ∀ c ∈ w, isSolid c = true := by
  obtain ⟨u, v, rfl, hu, hv⟩ := h
  obtain ⟨ws, rfl, hws⟩ := Language.mem_kstar.mp hv
  rw [List.forall_mem_append]
  refine ⟨hu.solid, ?_⟩
  intro c hc
  obtain ⟨x, hx, hcx⟩ := List.mem_flatten.mp hc
  exact Step.solid (hws x hx) c hcx

lemma IsPath.ne_nil (h : IsPath w) : w ≠ [] := by
  obtain ⟨_, v, rfl, ⟨c, u, rfl, _, _⟩, _⟩ := h
  exact List.cons_ne_nil _ _

lemma IsWord.path (h : IsWord w) : IsPath w := ⟨w, [], (List.append_nil w).symm, h, Language.nil_mem_kstar _⟩

lemma IsPath.strip (h : IsPath w) : strip (String.ofList w) = String.ofList w :=
  strip_solid (fun c hc => solid_not_space (h.solid c hc))

lemma not_mem_of_solid {k : Char} (hk : isSolid k = false) (h : ∀ c ∈ w, isSolid c = true) : k ∉ w :=
  fun hm => Bool.noConfusion (hk.symm.trans (h k hm))

lemma not_mem_of_blank {k : Char} (hk : isSpace k = false) (h : Blank w) : k ∉ w :=
  fun hm => Bool.noConfusion (hk.symm.trans (h k hm))

lemma brace_not_space {k : Char} (hk : k = '{' ∨ k = '}') : isSpace k = false := by
  rcases hk with rfl | rfl <;> decide

lemma brace_not_solid {k : Char} (hk : k = '{' ∨ k = '}') : isSolid k = false := by
  rcases hk with rfl | rfl <;> decide

lemma IsTail.not_mem {k : Char} (hk : k = '{' ∨ k = '}') (h : IsTail w) : k ∉ w := by
  rcases h with h | ⟨l, v, rfl, hl, hopen, hclose⟩
  · exact not_mem_of_blank (brace_not_space hk) h
  · rw [List.mem_append, List.mem_cons, not_or, not_or]
    refine ⟨not_mem_of_blank (brace_not_space hk) hl, ?_, ?_⟩
    · rintro rfl
      exact absurd hk (by decide)
    · rcases hk with rfl | rfl
      · exact hopen
      · exact hclose

lemma blank_append_head (hl : Blank l) (hw : ∀ c, w.head? = some c → isSolid c = false) :
    ∀ c, (l ++ w).head? = some c → isSolid c = false := by
  intro c hc
  cases l with
  | nil => exact hw c hc
  | cons d l =>
    obtain rfl := Option.some.inj hc
    rw [Bool.eq_false_iff]
    intro hd
    exact Bool.noConfusion ((solid_not_space hd).symm.trans (hl d List.mem_cons_self))

lemma IsTail.head (h : IsTail w) : ∀ c, w.head? = some c → isSolid c = false := by
  rcases h with h | ⟨l, v, rfl, hl, _, _⟩
  · have hw : ∀ c, (w ++ []).head? = some c → isSolid c = false := blank_append_head h (by simp)
    rwa [List.append_nil] at hw
  · exact blank_append_head hl (fun c hc => Option.some.inj hc ▸ by decide)

lemma IsPath.head (hk : IsPath key) (w : List Char) : ∀ c, (key ++ w).head? = some c → isSpace c = false := by
  rw [List.head?_append_of_ne_nil _ hk.ne_nil]
  exact fun c hc => solid_not_space (hk.solid c (List.mem_of_head? hc))

lemma path_inj {l' key' tail' : List Char} (h : l ++ (key ++ tail) = l' ++ (key' ++ tail')) (hl : Blank l)
    (hl' : Blank l') (hk : IsPath key) (hk' : IsPath key') (ht : ∀ c, tail.head? = some c → isSolid c = false)
    (ht' : ∀ c, tail'.head? = some c → isSolid c = false) : l = l' ∧ key = key' ∧ tail = tail' := by
  obtain ⟨rfl, hkt⟩ := append_inj_of_run h hl (hk.head tail) hl' (hk'.head tail')
  obtain ⟨rfl, rfl⟩ := append_inj_of_run hkt hk.solid ht hk'.solid ht'
  exact ⟨rfl, rfl, rfl⟩

lemma follows_double : Follows doubleBraceLegacy replaceDouble DoubleRule where
  sound := by
    intro before s key u r h
    obtain ⟨hs, l, l', hl, hk, hl', hu⟩ := (reads_double _ _ _ _ _).mp h
    exact ⟨hs, l, key, l', hl, hk, hl', hu, rfl⟩
  complete := by
    rintro before u r v ⟨l, key, l', hl, hk, hl', hu, rfl⟩
    have hmem := (reads_double before (u ++ r) key u r).mpr ⟨rfl, l, l', hl, hk, hl', hu⟩
    exact List.ne_nil_of_mem hmem

lemma proper_double : DoubleRule.Proper where
  consumes := by
    rintro _ _ _ _ ⟨l, key, l', _, _, _, rfl, _⟩
    exact List.cons_ne_nil _ _
  unique := by
    rintro _ _ r _ _ r' _ ⟨l, key, t, hl, hk, ht, rfl, rfl⟩ ⟨l', key', t', hl', hk', ht', rfl, rfl⟩ h
    simp only [List.append_assoc] at h
    have hclose : ∀ x c, (['}', '}'] ++ x).head? = some c → isSpace c = false :=
      fun x c hc => Option.some.inj hc ▸ by decide
    have hbrace : ∀ x c, (['}', '}'] ++ x).head? = some c → isSolid c = false :=
      fun x c hc => Option.some.inj hc ▸ by decide
    obtain ⟨rfl, rfl, htail⟩ := path_inj (List.append_cancel_left h) hl hl' hk.path hk'.path
      (blank_append_head ht (hbrace r)) (blank_append_head ht' (hbrace r'))
    obtain ⟨rfl, -⟩ := append_inj_of_run htail ht (hclose r) ht' (hclose r')
    exact ⟨rfl, rfl⟩

lemma double_text {l' s : List Char} (hu : DoubleRule before u r v)
    (he : u ++ r = '{' :: '{' :: (l ++ (w ++ (l' ++ '}' :: '}' :: s)))) (hl : Blank l) (hl' : Blank l') (hne : w ≠ [])
    (hclose : '}' ∉ w) (hfirst : ∀ c, w.head? = some c → isSpace c = false)
    (hlast : ∀ c, w.getLast? = some c → isSpace c = false) :
    IsWord w ∧ u = '{' :: '{' :: (l ++ (w ++ (l' ++ ['}', '}']))) ∧ v = replaceDouble w u := by
  obtain ⟨b, key, b', hb, hk, hb', rfl, rfl⟩ := hu
  simp only [List.append_assoc, List.cons_append, List.nil_append, List.cons.injEq, true_and] at he
  have hw : ∀ c, (w ++ (l' ++ '}' :: '}' :: s)).head? = some c → isSpace c = false := by
    rw [List.head?_append_of_ne_nil _ hne]
    exact hfirst
  obtain ⟨rfl, hrest⟩ := append_inj_of_run he hb (hk.path.head _) hl hw
  rw [← List.append_assoc, ← List.append_assoc] at hrest
  have hkey : '}' ∉ key ++ b' := by
    rw [List.mem_append, not_or]
    exact ⟨not_mem_of_solid (by decide) hk.solid, not_mem_of_blank (by decide) hb'⟩
  have hwl : '}' ∉ w ++ l' := by
    rw [List.mem_append, not_or]
    exact ⟨hclose, not_mem_of_blank (by decide) hl'⟩
  obtain ⟨hinner, -⟩ := append_cons_inj hrest hkey hwl
  have hback : b'.reverse ++ key.reverse = l'.reverse ++ w.reverse := by
    rw [← List.reverse_append, hinner, List.reverse_append]
  have hklast : ∀ c, key.reverse.head? = some c → isSpace c = false :=
    fun c hc => solid_not_space (hk.solid c (List.mem_reverse.mp (List.mem_of_head? hc)))
  have hwlast : ∀ c, w.reverse.head? = some c → isSpace c = false := fun c hc => hlast c (List.head?_reverse ▸ hc)
  have hrev : ∀ t : List Char, Blank t → ∀ c ∈ t.reverse, isSpace c = true :=
    fun t ht c hc => ht c (List.mem_reverse.mp hc)
  obtain ⟨hbl, hkw⟩ := append_inj_of_run hback (hrev b' hb') hklast (hrev l' hl') hwlast
  obtain rfl := List.reverse_injective hbl
  obtain rfl := List.reverse_injective hkw
  exact ⟨hk, rfl, rfl⟩

lemma opens_double : DoubleRule.Opens '{' where
  source := by
    rintro _ _ _ _ ⟨l, key, l', _, _, _, rfl, _⟩
    rfl
  target := by
    rintro _ _ _ _ ⟨l, key, l', _, _, _, _, rfl⟩
    rfl

lemma replaceSingle_tail (filt : Option (List Char)) {l' : List Char} (hl' : Blank l') :
    replaceSingle (key, filt) u = replaceSingle (key, some (filt.getD [] ++ l')) u := by
  rw [replaceSingle, replaceSingle, Option.getD_some, strip_append_blank hl']

lemma any_eq_false {o : Option Char} {d : Char} : o.any (· = d) = false ↔ o ≠ some d := by
  cases o with
  | none => simp
  | some c => simp

lemma mem_singleBraceLegacy {groups : List Char × Option (List Char)} {s : List Char} :
    (groups, u, r) ∈ singleBraceLegacy before s ↔
      before ≠ some '{' ∧ r.head? ≠ some '}' ∧ (groups, u, r) ∈ braced before s := by
  constructor
  · intro h
    obtain ⟨_, _, _, _, hbehind, hrest, rfl⟩ := mem_bind.mp h
    obtain ⟨hb, rfl, rfl⟩ := mem_notBehind.mp hbehind
    obtain ⟨groups, u, t, _, hbraced, hend, rfl⟩ := mem_bind.mp hrest
    obtain ⟨_, _, _, _, hahead, hpure, rfl⟩ := mem_bind.mp hend
    obtain ⟨ha, rfl, rfl⟩ := mem_notAhead.mp hahead
    obtain ⟨rfl, rfl, rfl⟩ := mem_pure.mp hpure
    rw [List.nil_append, List.append_nil, List.append_nil]
    exact ⟨any_eq_false.mp hb, any_eq_false.mp ha, hbraced⟩
  · rintro ⟨hb, ha, hbraced⟩
    have hend : (groups, [], r) ∈ (do notAhead (· = '}'); pure groups : Pattern Char _) (u.getLast?.or before) r :=
      mem_bind.mpr ⟨(), [], r, [], mem_notAhead.mpr ⟨any_eq_false.mpr ha, rfl, rfl⟩, mem_pure.mpr ⟨rfl, rfl, rfl⟩, rfl⟩
    have hrest : (groups, u, r) ∈
        (do let groups ← braced; notAhead (· = '}'); pure groups : Pattern Char _) before s :=
      mem_bind.mpr ⟨groups, u, r, [], hbraced, hend, (List.append_nil u).symm⟩
    exact mem_bind.mpr ⟨(), [], s, u, mem_notBehind.mpr ⟨any_eq_false.mpr hb, rfl, rfl⟩, hrest, rfl⟩

lemma isTail_append {filt : Option (List Char)} (ht : ∀ t ∈ filt, IsFilter t) (hl : Blank l) :
    IsTail (filt.getD [] ++ l) := by
  cases filt with
  | none => exact Or.inl hl
  | some t =>
    obtain ⟨b, v, rfl, hb, hopen, hclose⟩ := ht t rfl
    refine Or.inr ⟨b, v ++ l, List.append_assoc _ _ _, hb, ?_, ?_⟩
    · rw [List.mem_append, not_or]
      exact ⟨hopen, not_mem_of_blank (by decide) hl⟩
    · rw [List.mem_append, not_or]
      exact ⟨hclose, not_mem_of_blank (by decide) hl⟩

lemma follows_single : Follows singleBraceLegacy replaceSingle SingleRule where
  sound := by
    rintro before s ⟨key, filt⟩ u r h
    obtain ⟨hb, ha, hbraced⟩ := mem_singleBraceLegacy.mp h
    obtain ⟨hs, l, l', hl, hk, ht, hl', hu⟩ := (reads_braced _ _ _ _ _).mp hbraced
    refine ⟨hs, hb, ha, l, key, filt.getD [] ++ l', hl, hk, isTail_append ht hl', ?_, replaceSingle_tail filt hl'⟩
    rw [hu, List.append_assoc]
  complete := by
    rintro before u r v ⟨hb, ha, l, key, tail, hl, hk, ht, hu, rfl⟩
    have hread : ∃ groups, (groups, u, r) ∈ braced before (u ++ r) := by
      rcases ht with ht | ht
      · exact ⟨(key, none), (reads_braced _ _ _ _ _).mpr ⟨rfl, l, tail, hl, hk, by simp, ht, hu⟩⟩
      · refine ⟨(key, some tail), (reads_braced _ _ _ _ _).mpr ⟨rfl, l, [], hl, hk, ?_, List.forall_mem_nil _, hu⟩⟩
        exact fun t h => Option.some.inj h ▸ ht
    obtain ⟨groups, hg⟩ := hread
    exact List.ne_nil_of_mem (mem_singleBraceLegacy.mpr ⟨hb, ha, hg⟩)

lemma not_mem_inner {k : Char} (hk : k = '{' ∨ k = '}') (hl : Blank l) (hp : IsPath key) (ht : IsTail tail) :
    k ∉ l ++ (key ++ tail) := by
  rw [List.mem_append, List.mem_append, not_or, not_or]
  exact ⟨not_mem_of_blank (brace_not_space hk) hl, not_mem_of_solid (brace_not_solid hk) hp.solid, ht.not_mem hk⟩

lemma proper_single : SingleRule.Proper where
  consumes := by
    rintro _ _ _ _ ⟨_, _, l, key, tail, _, _, _, rfl, _⟩
    exact List.cons_ne_nil _ _
  unique := by
    rintro _ _ r _ _ r' _ ⟨_, _, l, key, t, hl, hk, ht, rfl, rfl⟩ ⟨_, _, l', key', t', hl', hk', ht', rfl, rfl⟩ h
    have hin : (l ++ (key ++ t)) ++ '}' :: r = (l' ++ (key' ++ t')) ++ '}' :: r' := by
      simp only [List.cons_append, List.append_assoc, List.nil_append, List.cons.injEq, true_and] at h ⊢
      exact h
    obtain ⟨hinner, -⟩ := append_cons_inj hin (not_mem_inner (Or.inr rfl) hl hk ht)
      (not_mem_inner (Or.inr rfl) hl' hk' ht')
    obtain ⟨rfl, rfl, rfl⟩ := path_inj hinner hl hl' hk hk' ht.head ht'.head
    exact ⟨rfl, rfl⟩

end TheCargo.Templating
