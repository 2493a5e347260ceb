import TheCargo.Foundation.Fallible
import TheCargo.LeadFields.Parse

namespace TheCargo.LeadFields

open Foundation

variable {chars : Characters} {norm s number : List Char} {n : ℕ}

def Tail (chars : Characters) (t : List Char) : Prop :=
  ∃ blank number blank', t = blank ++ number ++ blank' ∧ (∀ c ∈ blank, isSpace c = true) ∧
    (∀ c ∈ number, chars.isDecimal c = true) ∧ ∀ c ∈ blank', isSpace c = true

lemma Tail.caseless {t : List Char} (h : Tail chars t) : ∀ c ∈ t, isSpace c = true ∨ chars.isDecimal c = true := by
  obtain ⟨blank, number, blank', rfl, hblank, hnumber, hblank'⟩ := h
  intro c hc
  rcases List.mem_append.mp hc with hc | hc
  · rcases List.mem_append.mp hc with hc | hc
    · exact .inl (hblank c hc)
    · exact .inr (hnumber c hc)
  · exact .inl (hblank' c hc)

lemma labelTail_eq_some (h : labelTail chars s = some (number, n)) :
    ∃ t after, s = t ++ ':' :: after ∧ n = t.length + 1 ∧ Tail chars t ∧ ∀ c ∈ number, c ∈ t := by
  rw [labelTail] at h
  let rest := s.dropWhile isSpace
  let rest' := rest.dropWhile chars.isDecimal
  have hs : s = s.takeWhile isSpace ++ rest := List.takeWhile_append_dropWhile.symm
  have hrest : rest = rest.takeWhile chars.isDecimal ++ rest' := List.takeWhile_append_dropWhile.symm
  have hrest' : rest' = rest'.takeWhile isSpace ++ rest'.dropWhile isSpace := List.takeWhile_append_dropWhile.symm
  split at h
  · next after hafter =>
    obtain ⟨rfl, rfl⟩ := Prod.mk.inj (Option.some.inj h)
    have heq : s =
        (s.takeWhile isSpace ++ rest.takeWhile chars.isDecimal ++ rest'.takeWhile isSpace) ++ ':' :: after := by
      have hafter' : rest'.dropWhile isSpace = ':' :: after := hafter
      rw [List.append_assoc, List.append_assoc, ← hafter', ← hrest', ← hrest, ← hs]
    refine ⟨_, after, heq, ?_, ⟨_, _, _, rfl, ?_, ?_, ?_⟩, ?_⟩
    · have hlength := congrArg List.length heq
      rw [List.length_append, List.length_cons] at hlength
      omega
    · exact fun c hc => List.mem_takeWhile_imp hc
    · exact fun c hc => List.mem_takeWhile_imp hc
    · exact fun c hc => List.mem_takeWhile_imp hc
    · exact fun c hc => List.mem_append_left _ (List.mem_append_right _ hc)
  · exact absurd h (by simp)

lemma labelMatch_eq_some (h : labelMatch chars norm s = some (number, n)) :
    ∃ t after, s = norm ++ t ++ ':' :: after ∧ n = norm.length + t.length + 1 ∧ Tail chars t ∧ ∀ c ∈ number, c ∈ t := by
  rw [labelMatch] at h
  split at h
  · next hprefix =>
    obtain ⟨rest, rfl⟩ := hprefix
    obtain ⟨⟨number', n'⟩, htail, heq⟩ := Option.map_eq_some_iff.mp h
    obtain ⟨rfl, rfl⟩ := Prod.mk.inj heq
    rw [List.drop_left] at htail
    obtain ⟨t, after, rfl, rfl, ht, hnumber⟩ := labelTail_eq_some htail
    exact ⟨t, after, by rw [List.append_assoc], by omega, ht, hnumber⟩
  · exact absurd h (by simp)

def Hit.At (chars : Characters) (lowered : List Char) (h : Hit) : Prop :=
  ∃ a t b, lowered = a ++ h.norm ++ t ++ ':' :: b ∧ a.length = h.start ∧
    h.stop = a.length + h.norm.length + t.length + 1 ∧ Tail chars t

lemma Hit.At.start_lt_stop {lowered : List Char} {h : Hit} (hat : h.At chars lowered) : h.start < h.stop := by
  obtain ⟨a, t, b, -, ha, hstop, -⟩ := hat
  omega

variable {indexByLabel : Dict (String × String) ℤ} {lowered : List Char} {key : String}
  {labels : List (String × List String)} {hits : List Hit} {h : Hit}

lemma labelHits_eq_some (hhits : labelHits chars indexByLabel lowered key norm = some hits) (hh : h ∈ hits) :
    h.key = key ∧ h.norm = norm ∧ norm ≠ [] ∧
      ∃ number, (h.start, h.stop, number) ∈ findAll (labelMatch chars norm) 0 0 lowered ∧
        hitIndex chars indexByLabel lowered key norm h.start number = some h.index := by
  rw [labelHits] at hhits
  split at hhits
  · obtain rfl := Option.some.inj hhits
    exact absurd hh List.not_mem_nil
  · next hne =>
    obtain ⟨⟨start, stop, number⟩, hmem, hmap⟩ := forall₂_mem (mapM_some_iff.mp hhits).flip hh
    obtain ⟨index, hindex, rfl⟩ := Option.map_eq_some_iff.mp hmap
    exact ⟨rfl, rfl, hne, number, hmem, hindex⟩

lemma allHits_eq_some (hhits : allHits chars indexByLabel lowered labels = some hits) (hh : h ∈ hits) :
    ∃ e ∈ labels, e.1 = h.key ∧ ∃ label ∈ e.2, normLabel chars label = h.norm ∧ h.norm ≠ [] ∧
      ∃ number, (h.start, h.stop, number) ∈ findAll (labelMatch chars h.norm) 0 0 lowered ∧
        hitIndex chars indexByLabel lowered h.key h.norm h.start number = some h.index := by
  obtain ⟨lists, hlists, rfl⟩ := Option.map_eq_some_iff.mp hhits
  obtain ⟨list, hlist, hin⟩ := List.mem_flatten.mp hh
  obtain ⟨⟨key, norm⟩, hmem, hsome⟩ := forall₂_mem (mapM_some_iff.mp hlists).flip hlist
  obtain ⟨e, he, hlabel⟩ := List.mem_flatMap.mp hmem
  obtain ⟨label, hl, heq⟩ := List.mem_map.mp hlabel
  obtain ⟨rfl, rfl⟩ := Prod.mk.inj heq
  obtain ⟨hkey, hnorm, hne, number, hfind, hindex⟩ := labelHits_eq_some hsome hin
  refine ⟨e, he, hkey.symm, label, hl, hnorm.symm, hnorm ▸ hne, number, hnorm ▸ hfind, ?_⟩
  rw [hkey, hnorm]
  exact hindex

lemma mem_allHits (hhits : allHits chars indexByLabel lowered labels = some hits) {e : String × List String}
    (he : e ∈ labels) {label : String} (hlabel : label ∈ e.2) (hne : normLabel chars label ≠ []) {start stop : ℕ}
    (hfind : (start, stop, number) ∈ findAll (labelMatch chars (normLabel chars label)) 0 0 lowered) :
    ∃ index, hitIndex chars indexByLabel lowered e.1 (normLabel chars label) start number = some index ∧
      ⟨start, stop, e.1, index, normLabel chars label⟩ ∈ hits := by
  obtain ⟨lists, hlists, rfl⟩ := Option.map_eq_some_iff.mp hhits
  obtain ⟨list, hlist, hsome⟩ := forall₂_mem (mapM_some_iff.mp hlists)
    (List.mem_flatMap.mpr ⟨e, he, List.mem_map.mpr ⟨label, hlabel, rfl⟩⟩)
  dsimp only at hsome
  rw [labelHits, if_neg hne] at hsome
  obtain ⟨h, hh, hmap⟩ := forall₂_mem (mapM_some_iff.mp hsome) hfind
  obtain ⟨index, hindex, rfl⟩ := Option.map_eq_some_iff.mp hmap
  exact ⟨index, hindex, List.mem_flatten.mpr ⟨list, hlist, hh⟩⟩

lemma allHits_total (h : ∀ e ∈ labels, ∀ label ∈ e.2, ∀ start stop number,
      (start, stop, number) ∈ findAll (labelMatch chars (normLabel chars label)) 0 0 lowered →
        ∃ index, hitIndex chars indexByLabel lowered e.1 (normLabel chars label) start number = some index) :
    ∃ hits, allHits chars indexByLabel lowered labels = some hits := by
  have hlists : ∀ e ∈ labels.flatMap (fun e => e.2.map (fun label => (e.1, normLabel chars label))),
      ∃ list, labelHits chars indexByLabel lowered e.1 e.2 = some list := by
    intro e he
    obtain ⟨⟨key, ls⟩, hin, hmem⟩ := List.mem_flatMap.mp he
    obtain ⟨label, hlabel, rfl⟩ := List.mem_map.mp hmem
    rw [labelHits]
    split
    · exact ⟨[], rfl⟩
    · have hall : ∀ f ∈ findAll (labelMatch chars (normLabel chars label)) 0 0 lowered, ∃ hit : Hit,
          (hitIndex chars indexByLabel lowered key (normLabel chars label) f.1 f.2.2).map
            (fun index => (⟨f.1, f.2.1, key, index, normLabel chars label⟩ : Hit)) = some hit := by
        intro f hf
        obtain ⟨index, hindex⟩ := h _ hin label hlabel f.1 f.2.1 f.2.2 hf
        rw [hindex]
        exact ⟨_, rfl⟩
      obtain ⟨list, hlist⟩ := exists_forall₂ hall
      exact ⟨list, mapM_some_iff.mpr hlist⟩
  obtain ⟨lists, hsome⟩ := exists_forall₂ hlists
  rw [allHits, mapM_some_iff.mpr hsome]
  exact ⟨lists.flatten, rfl⟩

lemma allHits_at (hhits : allHits chars indexByLabel lowered labels = some hits) (hh : h ∈ hits) :
    h.At chars lowered := by
  obtain ⟨-, -, -, -, -, -, -, number, hfind, -⟩ := allHits_eq_some hhits hh
  obtain ⟨a, b, n, rfl, hstart, hmatch, hstop⟩ := findAll_sound hfind
  obtain ⟨t, after, rfl, rfl, ht, -⟩ := labelMatch_eq_some hmatch
  exact ⟨a, t, after, by simp only [List.append_assoc], by omega, by omega, ht⟩

section Prefix

lemma search_eq_some {β : Type} {m : Pattern Char β} {before : Option Char} {x : β} (h : search m before s = some x) :
    ∃ b v u r, v <:+ s ∧ (x, u, r) ∈ m b v := by
  induction s generalizing before with
  | nil =>
    obtain ⟨⟨y, u, r⟩, he, rfl⟩ := Option.map_eq_some_iff.mp h
    exact ⟨before, [], u, r, List.suffix_rfl, List.mem_of_head? he⟩
  | cons c s ih =>
    rw [search] at h
    split at h
    · next e es he =>
      obtain rfl := Option.some.inj h
      exact ⟨before, c :: s, e.2.1, e.2.2, List.suffix_rfl, he ▸ List.mem_cons_self⟩
    · obtain ⟨b, v, u, r, hv, hmem⟩ := ih h
      exact ⟨b, v, u, r, hv.trans (List.suffix_cons c s), hmem⟩

lemma exists_decimal_of_vehiclePrefix {before : Option Char} {u r : List Char}
    (h : (number, u, r) ∈ vehiclePrefix chars before s) : ∃ c ∈ s, chars.isDecimal c = true := by
  rw [vehiclePrefix] at h
  obtain ⟨_, _, s₁, v, hbehind, h, -⟩ := Pattern.mem_bind.mp h
  obtain ⟨_, _, s₂, v, hword, h, -⟩ := Pattern.mem_bind.mp h
  obtain ⟨_, _, s₃, v, hblank, h, -⟩ := Pattern.mem_bind.mp h
  obtain ⟨_, _, s₄, v, hsharp, h, -⟩ := Pattern.mem_bind.mp h
  obtain ⟨_, _, s₅, v, hblank', h, -⟩ := Pattern.mem_bind.mp h
  obtain ⟨digits, _, s₆, v, hnumber, -, -⟩ := Pattern.mem_bind.mp h
  have hdigits := ((Pattern.reads_one chars.isDecimal).seq (Pattern.reads_many chars.isDecimal)).group
  obtain ⟨-, -, rfl⟩ := Pattern.mem_notBehind.mp hbehind
  obtain ⟨rfl, -⟩ := ((Pattern.reads_exactly _).alt (Pattern.reads_exactly _) _ _ _ _ _).mp hword
  obtain ⟨rfl, -⟩ := (Pattern.reads_many _ _ _ _ _ _).mp hblank
  obtain ⟨rfl, -⟩ := ((Pattern.reads_exactly _).opt _ _ _ _ _).mp hsharp
  obtain ⟨rfl, -⟩ := (Pattern.reads_many _ _ _ _ _ _).mp hblank'
  obtain ⟨rfl, -, _, hone⟩ := (hdigits _ _ _ _ _).mp hnumber
  obtain ⟨_, ⟨c, rfl, hc⟩, w, -, rfl⟩ := Language.mem_mul.mp hone
  exact ⟨c, by simp, hc⟩

lemma search_vehiclePrefix (h : ∀ c ∈ s, chars.isDecimal c = false) (before : Option Char) :
    search (vehiclePrefix chars) before s = none := by
  rw [Option.eq_none_iff_forall_ne_some]
  intro number hnumber
  obtain ⟨b, v, u, r, hv, hmem⟩ := search_eq_some hnumber
  obtain ⟨c, hc, hdecimal⟩ := exists_decimal_of_vehiclePrefix hmem
  exact absurd hdecimal (by simp [h c (hv.subset hc)])

end Prefix

section Kept

variable {text : List Char} {kept : List Hit}

lemma scanLabels_eq_some (hkept : scanLabels chars text labels indexByLabel = some kept) :
    ∃ hits, allHits chars indexByLabel (chars.lower text) labels = some hits ∧
      kept = keep Hit.start Hit.stop 0 (sortedBy Hit.order hits) := by
  obtain ⟨hits, hhits, rfl⟩ := Option.map_eq_some_iff.mp hkept
  exact ⟨hits, hhits, rfl⟩

lemma kept_at (hkept : scanLabels chars text labels indexByLabel = some kept) (hh : h ∈ kept) :
    h.At chars (chars.lower text) := by
  obtain ⟨hits, hhits, rfl⟩ := scanLabels_eq_some hkept
  exact allHits_at hhits ((List.mem_insertionSort _).mp ((keep_sublist _ _).subset hh))

lemma kept_apart (hkept : scanLabels chars text labels indexByLabel = some kept) :
    kept.Pairwise (fun g h => g.stop ≤ h.start) := by
  obtain ⟨hits, hhits, rfl⟩ := scanLabels_eq_some hkept
  exact keep_apart (fun h hh => (allHits_at hhits ((List.mem_insertionSort _).mp hh)).start_lt_stop.le)

end Kept

end TheCargo.LeadFields
