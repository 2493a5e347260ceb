import TheCargo.LeadFields.Parse

namespace TheCargo.LeadFields

open Foundation

def isComma (c : Char) : Bool := c = ',' || c = ';'

def isTrim (c : Char) : Bool := isSpace c || c = ',' || c = ';'

variable {s a b c core d e f : List Char} {x : Char}

lemma isTrim_iff : isTrim x = true ↔ isSpace x = true ∨ isComma x = true := by
  simp only [isTrim, isComma, Bool.or_eq_true, or_assoc]

lemma isComma_of_isSpace (h : isSpace x = true) : isComma x = false := by
  rw [← Bool.not_eq_true, isComma, Bool.or_eq_true, decide_eq_true_eq, decide_eq_true_eq]
  rintro (rfl | rfl)
  · exact absurd h (by decide)
  · exact absurd h (by decide)

lemma isSpace_of_isComma (h : isComma x = true) : isSpace x = false := by
  rw [← Bool.not_eq_true]
  intro hspace
  exact absurd h (by simp [isComma_of_isSpace hspace])

lemma plain_of_not_isTrim (h : isTrim x = false) : isSpace x = false ∧ isComma x = false := by
  rw [← Bool.not_eq_true, isTrim_iff, not_or, Bool.not_eq_true, Bool.not_eq_true] at h
  exact h

def Bare (s : List Char) : Prop :=
  (∀ x, s.head? = some x → isTrim x = false) ∧ ∀ x, s.getLast? = some x → isTrim x = false

lemma bare_of_any (hhead : s.head?.any isTrim = false) (hlast : s.getLast?.any isTrim = false) : Bare s := by
  constructor
  · intro x hx
    rwa [hx] at hhead
  · intro x hx
    rwa [hx] at hlast

structure Margins (s a b c core d e f : List Char) : Prop where
  eq : s = a ++ (b ++ (c ++ core ++ d) ++ e) ++ f
  blank : ∀ x, x ∈ a ∨ x ∈ c ∨ x ∈ d ∨ x ∈ f → isSpace x = true
  commas : ∀ x, x ∈ b ∨ x ∈ e → isComma x = true
  bare : Bare core

def Tidy (s : List Char) : Prop := ∃ a b c core d e f, Margins s a b c core d e f

lemma Margins.swap (h : Margins s a b c core d e f) :
    Margins s.reverse f.reverse e.reverse d.reverse core.reverse c.reverse b.reverse a.reverse := by
  refine ⟨?_, ?_, ?_, ?_, ?_⟩
  · rw [h.eq]
    simp only [List.reverse_append, List.append_assoc]
  · intro x hx
    simp only [List.mem_reverse] at hx
    exact h.blank x (by tauto)
  · intro x hx
    simp only [List.mem_reverse] at hx
    exact h.commas x (by tauto)
  · intro x hx
    exact h.bare.2 x (List.head?_reverse ▸ hx)
  · intro x hx
    exact h.bare.1 x (List.getLast?_reverse ▸ hx)

lemma Margins.left (h : Margins s a b c core d e f) :
    ∃ a' c' d', Margins s a' b c' core d' e f ∧ (b = [] → c' = [] ∧ (core = [] → d' = [])) ∧ (c = [] → c' = []) ∧
      (d = [] → d' = []) := by
  by_cases hb : b = []
  · subst hb
    by_cases hcore : core = []
    · subst hcore
      refine ⟨a ++ c ++ d, [], [], ⟨?_, ?_, h.commas, h.bare⟩, fun _ => ⟨rfl, fun _ => rfl⟩, fun _ => rfl, fun _ => rfl⟩
      · rw [h.eq]
        simp
      · intro x hx
        simp only [List.mem_append, List.not_mem_nil, false_or] at hx
        exact h.blank x (by tauto)
    · refine ⟨a ++ c, [], d, ⟨?_, ?_, h.commas, h.bare⟩, fun _ => ⟨rfl, fun hnil => absurd hnil hcore⟩,
        fun _ => rfl, id⟩
      · rw [h.eq]
        simp
      · intro x hx
        simp only [List.mem_append, List.not_mem_nil, false_or] at hx
        exact h.blank x (by tauto)
  · exact ⟨a, c, d, h, fun hnil => absurd hnil hb, id, id⟩

lemma Margins.head_of_left (h : Margins s a b c core d e f) (hb : b = [] → c = [] ∧ (core = [] → d = [])) :
    (∀ x, (b ++ (c ++ core ++ d) ++ e).head? = some x → isSpace x = false) ∧
      ∀ x, (c ++ core ++ d).head? = some x → isComma x = false := by
  constructor
  · intro x hx
    cases b with
    | cons y b =>
      obtain rfl := Option.some.inj hx
      exact isSpace_of_isComma (h.commas y (.inl List.mem_cons_self))
    | nil =>
      obtain ⟨rfl, hd⟩ := hb rfl
      cases core with
      | cons y core =>
        obtain rfl := Option.some.inj hx
        exact (plain_of_not_isTrim (h.bare.1 y rfl)).1
      | nil =>
        obtain rfl := hd rfl
        exact isSpace_of_isComma (h.commas x (.inr (List.mem_of_head? hx)))
  · intro x hx
    cases c with
    | cons y c =>
      obtain rfl := Option.some.inj hx
      exact isComma_of_isSpace (h.blank y (.inr (.inl List.mem_cons_self)))
    | nil =>
      cases core with
      | cons y core =>
        obtain rfl := Option.some.inj hx
        exact (plain_of_not_isTrim (h.bare.1 y rfl)).2
      | nil => exact isComma_of_isSpace (h.blank x (.inr (.inr (.inl (List.mem_of_head? hx)))))

lemma Margins.clean_eq (h : Margins s a b c core d e f) : clean s = core := by
  obtain ⟨a, c, d, h, hb, -, -⟩ := h.left
  obtain ⟨f, d', c', hright, he, hd, hc⟩ := h.swap.left
  have hboth : Margins s a b c'.reverse core d'.reverse e f.reverse := by
    simpa only [List.reverse_reverse] using hright.swap
  have hb' : b = [] → c'.reverse = [] ∧ (core = [] → d'.reverse = []) := by
    intro hnil
    obtain ⟨rfl, hd'⟩ := hb hnil
    exact ⟨List.reverse_eq_nil_iff.mpr (hc rfl), fun hcore => List.reverse_eq_nil_iff.mpr (hd (by rw [hd' hcore]; rfl))⟩
  obtain ⟨hhead, hhead'⟩ := hboth.head_of_left hb'
  obtain ⟨hlast, hlast'⟩ := hright.head_of_left he
  have hrev : (c'.reverse ++ core ++ d'.reverse).reverse = d' ++ core.reverse ++ c' := by
    simp only [List.reverse_append, List.reverse_reverse, List.append_assoc]
  have hinner : stripBy isSpace s = b ++ (c'.reverse ++ core ++ d'.reverse) ++ e := by
    rw [hboth.eq]
    refine stripBy_between (fun x hx => hboth.blank x (.inl hx)) (fun x hx => hboth.blank x (.inr (.inr (.inr hx))))
      hhead ?_
    intro x hx
    refine hlast x ?_
    rw [← List.head?_reverse, List.reverse_append, List.reverse_append, hrev] at hx
    rwa [List.append_assoc]
  have hcore : stripBy isComma (stripBy isSpace s) = c'.reverse ++ core ++ d'.reverse := by
    rw [hinner]
    refine stripBy_between (fun x hx => hboth.commas x (.inl hx)) (fun x hx => hboth.commas x (.inr hx)) hhead' ?_
    intro x hx
    rw [← List.head?_reverse, hrev] at hx
    exact hlast' x hx
  change stripBy isSpace (stripBy isComma (stripBy isSpace s)) = core
  rw [hcore]
  exact stripBy_between (fun x hx => hboth.blank x (.inr (.inl hx))) (fun x hx => hboth.blank x (.inr (.inr (.inl hx))))
    (fun x hx => (plain_of_not_isTrim (h.bare.1 x hx)).1) (fun x hx => (plain_of_not_isTrim (h.bare.2 x hx)).1)

lemma Margins.stripBy_isTrim (h : Margins s a b c core d e f) : stripBy isTrim s = core := by
  have heq : s = (a ++ b ++ c) ++ core ++ (d ++ e ++ f) := by
    rw [h.eq]
    simp only [List.append_assoc]
  rw [heq]
  refine stripBy_between ?_ ?_ h.bare.1 h.bare.2
  · intro x hx
    rw [List.mem_append, List.mem_append] at hx
    rcases hx with (hx | hx) | hx
    · exact isTrim_iff.mpr (.inl (h.blank x (.inl hx)))
    · exact isTrim_iff.mpr (.inr (h.commas x (.inl hx)))
    · exact isTrim_iff.mpr (.inl (h.blank x (.inr (.inl hx))))
  · intro x hx
    rw [List.mem_append, List.mem_append] at hx
    rcases hx with (hx | hx) | hx
    · exact isTrim_iff.mpr (.inl (h.blank x (.inr (.inr (.inl hx)))))
    · exact isTrim_iff.mpr (.inr (h.commas x (.inr hx)))
    · exact isTrim_iff.mpr (.inl (h.blank x (.inr (.inr (.inr hx)))))

lemma tidy_iff : Tidy s ↔ clean s = stripBy isTrim s := by
  constructor
  · rintro ⟨a, b, c, core, d, e, f, h⟩
    rw [h.clean_eq, h.stripBy_isTrim]
  · intro h
    obtain ⟨a, f, ha, hf, hs⟩ := stripBy_parts isSpace s
    obtain ⟨b, e, hb, he, hs'⟩ := stripBy_parts isComma (stripBy isSpace s)
    obtain ⟨c, d, hc, hd, hs''⟩ := stripBy_parts isSpace (stripBy isComma (stripBy isSpace s))
    refine ⟨a, b, c, clean s, d, e, f, ?_, ?_, ?_, ?_⟩
    · have hcore : stripBy isComma (stripBy isSpace s) = c ++ clean s ++ d := by
        rw [List.append_assoc]
        exact hs''
      rw [hcore, ← List.append_assoc] at hs'
      rwa [hs', ← List.append_assoc] at hs
    · rintro x (hx | hx | hx | hx)
      · exact ha x hx
      · exact hc x hx
      · exact hd x hx
      · exact hf x hx
    · rintro x (hx | hx)
      · exact hb x hx
      · exact he x hx
    · rw [h]
      exact ⟨fun _ => stripBy_head, fun _ => stripBy_last⟩

end TheCargo.LeadFields
