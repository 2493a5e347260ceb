import TheCargo.Db.StatementRouter
import TheCargo.Db.WritingConstructs
import TheCargo.Foundation.Ascii
import TheCargo.Foundation.Fallible

namespace TheCargo.Db.Routing

open Foundation Postgres

def OneRun (w : List Char) : Prop := ∃ g r g', w = g ++ r ++ g' ∧ g ≠ [] ∧ Blank g ∧
  (r ≠ [] ∧ ∀ c ∈ r, Foundation.isSpace c = false) ∧ g' ≠ [] ∧ Blank g'

def Plain : Construct → List Lexeme → Prop
  | .updateSet, span => ∃ update inner set, span = update :: inner ++ [set] ∧ OneRun (textOf inner)
  | .selectInto, _ => False
  | _, span => ∀ t ∈ span, t.kind ≠ .comment

def HasPlain (sql : List Char) : Prop := ∃ c pre span post, Occurs sql c pre span post ∧ Plain c span

/-- A phrase of the expression stands where no writing construct does: in a literal, a comment or a quoted name, or
in a statement of another kind. -/
def PhraseElsewhere (unicode : Unicode) (sql : List Char) : Prop :=
  ∃ p ∈ phrases, ∃ pre w post, sql = pre ++ w ++ post ∧ Spaced unicode p w ∧
    Regex.AtBoundary unicode.isWord pre.getLast? (w.head?.or post.head?) ∧
    Regex.AtBoundary unicode.isWord (w.getLast?.or pre.getLast?) post.head? ∧
    ¬ ∃ c before span after, Occurs sql c before span after ∧ textOf before = pre ∧ textOf span = w

variable {unicode : Unicode}

lemma blank_of_space {c : Char} (h : Postgres.isSpace c = true) : Foundation.isSpace c = true := by
  simp only [Postgres.isSpace, Bool.or_eq_true, decide_eq_true_eq] at h
  rcases h with ((((rfl | rfl) | rfl) | rfl) | rfl) | rfl <;> decide

lemma isWord_of_ascii {c : Char} (h : c.toNat < 128) (hc : c.isAlphanum = true) : unicode.isWord c = true := by
  rw [Unicode.isWord, unicode.isAlnum_ascii c h, hc, Bool.true_or]

lemma isLetter_of_isWord {c : Char} (h : unicode.isWord c = true) : isLetter c = true := by
  by_cases hc : c.toNat < 128
  · rw [Unicode.isWord, unicode.isAlnum_ascii c hc, Bool.or_eq_true, beq_iff_eq] at h
    rcases h with ha | rfl
    · rcases isAlphanum_iff.mp ha with ha | hd
      · simp [isLetter, isWordStart, ha]
      · simp [isLetter, hd]
    · decide
  · have hge : 128 ≤ c.toNat := Nat.le_of_not_lt hc
    simp [isLetter, isWordStart, hge]

def IsLower (s : String) : Prop := s.toList ≠ [] ∧ s.toList.all Char.isLower = true

instance (s : String) : Decidable (IsLower s) := inferInstanceAs (Decidable (_ ∧ _))

section Keywords

variable {s : String} {t : Lexeme}

lemma isKeyword_iff : t.isKeyword s = true ↔ t.kind = .word ∧ t.text.map Char.toLower = s.toList := by
  simp only [Lexeme.isKeyword, Bool.and_eq_true, decide_eq_true_eq]

lemma isLower_of_isKeyword (hs : IsLower s) (h : t.isKeyword s = true) : ∀ c ∈ t.text, c.toLower.isLower = true := by
  intro c hc
  have hm : c.toLower ∈ s.toList := (isKeyword_iff.mp h).2 ▸ List.mem_map_of_mem hc
  exact List.all_eq_true.mp hs.2 _ hm

lemma fold_of_isLower {c : Char} (h : c.toLower.isLower = true) : unicode.fold c = c.toLower :=
  unicode.fold_ascii c (toNat_of_isAlpha (isAlpha_of_isLower_toLower h))

lemma fold_lower {c : Char} (h : c.isLower = true) : unicode.fold c = c := by
  have hc := toLower_of_isLower h
  rw [fold_of_isLower (hc.symm ▸ h), hc]

lemma spells_of_isKeyword (hs : IsLower s) (h : t.isKeyword s = true) : Spells unicode s t.text := by
  have hl := isLower_of_isKeyword hs h
  rw [Spells, ← (isKeyword_iff.mp h).2, List.map_map]
  apply List.map_congr_left
  intro c hc
  rw [Function.comp_apply, fold_of_isLower (hl c hc), fold_lower (hl c hc)]

lemma isWord_of_isKeyword (hs : IsLower s) (h : t.isKeyword s = true) {c : Char} (hc : c ∈ t.text) :
    unicode.isWord c = true := by
  have ha := isAlpha_of_isLower_toLower (isLower_of_isKeyword hs h c hc)
  apply isWord_of_ascii (toNat_of_isAlpha ha)
  exact isAlphanum_iff.mpr (Or.inl ha)

lemma text_ne_nil (hs : IsLower s) (h : t.isKeyword s = true) : t.text ≠ [] := by
  intro ht
  have hm := (isKeyword_iff.mp h).2
  rw [ht, List.map_nil] at hm
  exact hs.1 hm.symm

lemma isToken_of_isKeyword (h : t.isKeyword s = true) : t.isToken = true := by
  simp [Lexeme.isToken, (isKeyword_iff.mp h).1]

end Keywords

lemma isWord_of_isLetter {o : Option Char} (h : o.all (!isLetter ·) = true) : o.any unicode.isWord = false := by
  cases o with
  | none => rfl
  | some c =>
    rw [Option.any_some, Bool.eq_false_iff]
    intro hc
    simp [isLetter_of_isWord hc] at h

lemma all_not_isLetter {o : Option Char} (h : o.all (!isWordChar ·) = true) : o.all (!isLetter ·) = true := by
  cases o with
  | none => rfl
  | some c =>
    simp only [Option.all_some, Bool.not_eq_true'] at h ⊢
    exact isLetter_of_not_isWordChar h

section Boundaries

variable {sql : List Char} {pre rest : List Lexeme} {t : Lexeme} {s : String}

lemma boundary_before (hl : lex sql = pre ++ t :: rest) (hs : IsLower s) (ht : t.isKeyword s = true)
    (ts : List Lexeme) (o : Option Char) :
    Regex.AtBoundary unicode.isWord (textOf pre).getLast? ((textOf (t :: ts)).head?.or o) := by
  have hw := lex_word hl (isKeyword_iff.mp ht).1
  obtain ⟨c, cs, hc⟩ := List.exists_cons_of_ne_nil (text_ne_nil hs ht)
  have hcw : unicode.isWord c = true := isWord_of_isKeyword hs ht (hc ▸ List.mem_cons_self)
  rw [Regex.AtBoundary, isWord_of_isLetter hw.1, textOf, List.flatMap_cons, hc]
  simp [hcw]

lemma boundary_after (hl : lex sql = pre ++ t :: rest) (hs : IsLower s) (ht : t.isKeyword s = true)
    (ts : List Lexeme) (o : Option Char) :
    Regex.AtBoundary unicode.isWord ((textOf (ts ++ [t])).getLast?.or o) (textOf rest).head? := by
  have hw := lex_word hl (isKeyword_iff.mp ht).1
  obtain ⟨c, hc⟩ := Option.ne_none_iff_exists'.mp (mt List.getLast?_eq_none_iff.mp (text_ne_nil hs ht))
  have hcw : unicode.isWord c = true := isWord_of_isKeyword hs ht (List.mem_of_getLast? hc)
  rw [Regex.AtBoundary, isWord_of_isLetter (all_not_isLetter hw.2), textOf, List.flatMap_append,
    List.getLast?_append]
  simp [hc, hcw]

end Boundaries

section Gaps

variable {sql : List Char} {pre gap rest post : List Lexeme} {t u : Lexeme} {us : List Lexeme}

lemma blank_textOf (hmem : ∀ g ∈ gap, g ∈ lex sql) (h : ∀ g ∈ gap, g.kind = .space) (hgap : gap ≠ []) :
    textOf gap ≠ [] ∧ Blank (textOf gap) := by
  constructor
  · obtain ⟨g, gs, rfl⟩ := List.exists_cons_of_ne_nil hgap
    have hg := (lex_space (hmem g List.mem_cons_self) (h g List.mem_cons_self)).1
    simp [textOf, hg]
  · intro c hc
    obtain ⟨g, hg, hcg⟩ := List.mem_flatMap.mp hc
    exact blank_of_space ((lex_space (hmem g hg) (h g hg)).2 c hcg)

lemma next_word (hl : lex sql = pre ++ t :: (rest ++ post)) (hc : ∀ g ∈ rest, g.kind ≠ .comment) (ht : t.kind = .word)
    (hf : rest.filter Lexeme.isToken = u :: us) (hu : u.kind = .word) :
    ∃ gap after, rest = gap ++ u :: after ∧ gap ≠ [] ∧ (∀ g ∈ gap, g.kind = .space) ∧
      after.filter Lexeme.isToken = us := by
  obtain ⟨gap, after, rfl, hgap, -, hafter⟩ := List.filter_eq_cons_iff.mp hf
  have hspace : ∀ g ∈ gap, g.kind = .space := by
    intro g hg
    have hcg := hc g (by simp [hg])
    have htg := hgap g hg
    simp only [Lexeme.isToken, Bool.and_eq_true, decide_eq_true_eq, not_and, ne_eq] at htg
    by_contra hsp
    exact htg hsp hcg
  refine ⟨gap, after, rfl, ?_, hspace, hafter⟩
  rintro rfl
  have hw := (lex_word hl ht).2
  have hmem : u ∈ lex sql := by
    rw [hl]
    simp
  obtain ⟨c, ds, htext, hlet⟩ := lex_letter hmem hu
  have hhead : (textOf ([] ++ u :: after ++ post)).head? = some c := by
    rw [textOf, List.nil_append, List.cons_append, List.flatMap_cons, htext]
    rfl
  rw [hhead] at hw
  have hno := all_not_isLetter hw
  simp [hlet] at hno

end Gaps

section Keywords

variable {sql : List Char} {c : Construct} {pre span post : List Lexeme} {ss : List String}

lemma spaced_of_keywords (hl : lex sql = pre ++ span ++ post) (hwords : AreKeywords ss (span.filter Lexeme.isToken))
    (hss : ss ≠ []) (hlower : ∀ s ∈ ss, IsLower s) (hstart : span.head?.any Lexeme.isToken = true)
    (hend : span.getLast?.any Lexeme.isToken = true) (hc : ∀ t ∈ span, t.kind ≠ .comment) :
    Spaced unicode (ss.map Piece.keyword) (textOf span) := by
  induction ss generalizing pre span with
  | nil => exact absurd rfl hss
  | cons s ss ih =>
    obtain ⟨t, ws, ht, hws, hfilter⟩ := List.forall₂_cons_left_iff.mp hwords
    have hspells : Spells unicode s t.text := spells_of_isKeyword (hlower s List.mem_cons_self) ht
    cases ss with
    | nil =>
      obtain rfl := List.forall₂_nil_left_iff.mp hws
      obtain rfl := span_singleton hstart hend hfilter
      rw [textOf, List.flatMap_singleton]
      exact hspells
    | cons s' ss =>
      obtain ⟨u, us, hu, -, rfl⟩ := List.forall₂_cons_left_iff.mp hws
      obtain ⟨rest, rfl, hrest⟩ := span_cons hstart hfilter
      have hl' : lex sql = pre ++ t :: (rest ++ post) := by rw [hl]; simp
      obtain ⟨gap, after, rfl, hgap, hspace, hafter⟩ := next_word hl' (fun g hg => hc g (List.mem_cons_of_mem _ hg))
        (isKeyword_iff.mp ht).1 hrest (isKeyword_iff.mp hu).1
      have hmem : ∀ g ∈ gap, g ∈ lex sql := by
        intro g hg
        rw [hl]
        simp [hg]
      obtain ⟨hne, hblank⟩ := blank_textOf hmem hspace hgap
      have htoken := isToken_of_isKeyword hu
      have hrest : lex sql = pre ++ t :: gap ++ u :: after ++ post := by rw [hl]; simp
      have hspaced := ih hrest
        (by rw [List.filter_cons_of_pos htoken, hafter]; exact hws) (List.cons_ne_nil _ _)
        (fun r hr => hlower r (List.mem_cons_of_mem _ hr)) (by simpa using htoken)
        (by
          rw [← List.cons_append, List.getLast?_append, List.getLast?_cons] at hend
          rw [List.getLast?_cons]
          exact hend)
        (fun g hg => hc g (by simp only [List.mem_cons, List.mem_append] at hg ⊢; tauto))
      refine ⟨t.text, textOf gap, textOf (u :: after), ?_, hspells, hne, hblank, hspaced⟩
      simp only [textOf, List.flatMap_cons, List.flatMap_append, List.append_assoc]

lemma no_comment_sign {w : List Char} {d : Char} (hw : Spaced unicode (ss.map Piece.keyword) w)
    (hlower : ∀ s ∈ ss, IsLower s) (hd : d = '-' ∨ d = '/') : d ∉ w := by
  have hfold : unicode.fold d = d := by
    rcases hd with rfl | rfl
    · exact unicode.fold_ascii '-' (by decide)
    · exact unicode.fold_ascii '/' (by decide)
  have hspelt : ∀ s ∈ ss, ∀ u, Spells unicode s u → d ∉ u := by
    intro s hs u hu hmem
    have hm : unicode.fold d ∈ s.toList.map unicode.fold := hu ▸ List.mem_map_of_mem hmem
    obtain ⟨e, he, hed⟩ := List.mem_map.mp hm
    have hel : e.isLower = true := List.all_eq_true.mp (hlower s hs).2 e he
    rw [fold_lower hel, hfold] at hed
    subst hed
    rcases hd with rfl | rfl <;> exact absurd hel (by decide)
  induction ss generalizing w with
  | nil =>
    obtain rfl : w = [] := hw
    exact List.not_mem_nil
  | cons s ss ih =>
    cases ss with
    | nil => exact hspelt s List.mem_cons_self w hw
    | cons s' ss =>
      obtain ⟨u, g, v, rfl, hu, -, hg, hv⟩ := hw
      have htail := ih hv (fun r hr => hlower r (List.mem_cons_of_mem _ hr))
        (fun r hr => hspelt r (List.mem_cons_of_mem _ hr))
      have hgap : d ∉ g := by
        intro hmem
        have hblank := hg d hmem
        rcases hd with rfl | rfl <;> exact absurd hblank (by decide)
      simp only [List.mem_append, not_or]
      exact ⟨⟨hspelt s List.mem_cons_self u hu, hgap⟩, htail⟩

end Keywords

def Piece.initial : Piece → Option Char
  | .keyword s => s.toList.head?
  | .run => none

def Piece.isLower : Piece → Bool
  | .keyword s => decide (IsLower s)
  | .run => true

lemma phrases_isLower : ∀ p ∈ phrases, (p.head?.bind Piece.initial).isSome = true ∧ p.all Piece.isLower = true := by
  decide

lemma phrases_initial (p : List Piece) (hp : p ∈ phrases) : ∃ s ks, p = .keyword s :: ks ∧ IsLower s := by
  obtain ⟨hinitial, hlower⟩ := phrases_isLower p hp
  match p with
  | [] => cases hinitial
  | .run :: _ => cases hinitial
  | .keyword s :: ks =>
    rw [List.all_cons, Bool.and_eq_true] at hlower
    exact ⟨s, ks, rfl, of_decide_eq_true hlower.1⟩

lemma phrases_update : ∀ p ∈ phrases, p.head?.bind Piece.initial = some 'u' →
    p = [.keyword "update", .run, .keyword "set"] := by
  decide

lemma phrases_savepoint : ∀ p ∈ phrases, p.head?.bind Piece.initial = some 's' → p = [.keyword "savepoint"] := by
  decide

def keywordPhrases : List (List String) := [["for", "no", "key", "update"], ["for", "update"], ["for", "key", "share"],
  ["for", "share"], ["insert", "into"], ["delete", "from"], ["merge", "into"], ["create", "temp", "table"],
  ["create", "temporary", "table"], ["create", "unlogged", "table"], ["create", "table"], ["savepoint"],
  ["lock", "table"]]

lemma phrases_keywords : ∀ p ∈ phrases, p.head?.bind Piece.initial ≠ some 'u' →
    ∃ ss ∈ keywordPhrases, p = ss.map Piece.keyword := by
  decide

lemma keywordPhrases_isLower : ∀ ss ∈ keywordPhrases, ∀ s ∈ ss, IsLower s := by decide

lemma initial_of_spaced {p : List Piece} {s : String} {t : Lexeme} {ts : List Lexeme} (hp : p ∈ phrases)
    (h : Spaced unicode p (textOf (t :: ts))) (hs : IsLower s) (ht : t.isKeyword s = true) :
    p.head?.bind Piece.initial = s.toList.head? := by
  obtain ⟨s', ks, rfl, hs'⟩ := phrases_initial p hp
  have hstart : ∃ u v, textOf (t :: ts) = u ++ v ∧ Spells unicode s' u := by
    cases ks with
    | nil => exact ⟨_, [], (List.append_nil _).symm, h⟩
    | cons k ks =>
      obtain ⟨u, g, v, htext, hu, -⟩ := h
      exact ⟨u, g ++ v, by rw [htext, List.append_assoc], hu⟩
  obtain ⟨u, v, htext, hu⟩ := hstart
  obtain ⟨d, ds, hd⟩ := List.exists_cons_of_ne_nil hs'.1
  obtain ⟨c, cs, hc⟩ := List.exists_cons_of_ne_nil (text_ne_nil hs ht)
  rw [Spells, hd, List.map_cons] at hu
  obtain ⟨c', cs', rfl, hfold, -⟩ := List.map_eq_cons_iff.mp hu
  rw [textOf, List.flatMap_cons, hc] at htext
  obtain rfl : c = c' := (List.cons.inj htext).1
  have hdl : d.isLower = true := List.all_eq_true.mp hs'.2 d (hd ▸ List.mem_cons_self)
  rw [fold_lower hdl, fold_of_isLower (isLower_of_isKeyword hs ht c (hc ▸ List.mem_cons_self))] at hfold
  have hlower := (isKeyword_iff.mp ht).2
  rw [hc, List.map_cons] at hlower
  rw [List.head?_cons, Option.bind_some, Piece.initial, hd, ← hlower, List.head?_cons, List.head?_cons, hfold]

lemma length_of_spells {s : String} {w : List Char} (h : Spells unicode s w) : w.length = s.toList.length := by
  have hlength := congrArg List.length h
  rwa [List.length_map, List.length_map] at hlength

lemma length_of_isKeyword {s : String} {t : Lexeme} (h : t.isKeyword s = true) : t.text.length = s.toList.length := by
  rw [← (isKeyword_iff.mp h).2, List.length_map]

section Occurrences

variable {sql : List Char} {c : Construct} {pre span post : List Lexeme}

lemma updateSet_span (h : Occurs sql .updateSet pre span post) : ∃ update inner set, span = update :: inner ++ [set] ∧
    update.isKeyword "update" = true ∧ set.isKeyword "set" = true := by
  obtain ⟨update, middle, set, after, hws, hupdate, hset, -⟩ := h.words
  obtain ⟨rest, rfl, hrest⟩ := span_cons h.starts hws
  have hne : rest ≠ [] := by
    rintro rfl
    simp at hrest
  obtain ⟨l, hl⟩ := Option.ne_none_iff_exists'.mp (mt List.getLast?_eq_none_iff.mp hne)
  have hend : rest.getLast?.any Lexeme.isToken = true := by
    have hends := h.ends
    rwa [List.getLast?_cons, hl, Option.getD_some, ← hl] at hends
  obtain ⟨inner, rfl, -⟩ := span_concat hend hrest
  exact ⟨update, inner, set, rfl, hupdate, hset⟩

lemma oneRun_iff {update set : Lexeme} {inner : List Lexeme} (hupdate : update.isKeyword "update" = true)
    (hset : set.isKeyword "set" = true) : OneRun (textOf inner) ↔
      Spaced unicode [.keyword "update", .run, .keyword "set"] (textOf (update :: inner ++ [set])) := by
  have htext : textOf (update :: inner ++ [set]) = update.text ++ (textOf inner ++ set.text) := by
    simp [textOf]
  rw [htext]
  constructor
  · rintro ⟨g, r, g', hinner, hg, hblank, hr, hg', hblank'⟩
    refine ⟨update.text, g, r ++ g' ++ set.text, by simp [hinner], spells_of_isKeyword (by decide) hupdate, hg, hblank,
      r, g', set.text, rfl, hr, hg', hblank', spells_of_isKeyword (by decide) hset⟩
  · rintro ⟨u, g, v, huv, hu, hg, hblank, r, g', w, rfl, hr, hg', hblank', hw⟩
    rw [List.append_assoc u] at huv
    obtain ⟨-, hrest⟩ := List.append_inj huv ((length_of_isKeyword hupdate).trans (length_of_spells hu).symm)
    rw [← List.append_assoc g, ← List.append_assoc] at hrest
    obtain ⟨hinner, -⟩ := List.append_inj' hrest ((length_of_isKeyword hset).trans (length_of_spells hw).symm)
    exact ⟨g, r, g', by rw [hinner, List.append_assoc], hg, hblank, hr, hg', hblank'⟩

lemma keywords_isLower (c : Construct) : ∀ ss ∈ c.keywords, ss ≠ [] ∧ ∀ s ∈ ss, IsLower s := by
  cases c <;> decide

lemma keywords_initial (c : Construct) (hc : c ≠ .selectInto) : ∀ ss ∈ c.keywords, ∀ s ∈ ss.head?,
    s.toList.head? ≠ some 'u' ∧ ss ∈ keywordPhrases := by
  cases c with
  | selectInto => exact absurd rfl hc
  | _ => decide

lemma keywordPhrases_mem {ss : List String} (h : ss ∈ keywordPhrases) : ss.map Piece.keyword ∈ phrases := by
  revert ss
  decide

lemma keyword_spaced_iff (h : Occurs sql c pre span post) (hc : c ≠ .selectInto) {ss : List String}
    (hss : ss ∈ c.keywords) (hwords : AreKeywords ss (span.filter Lexeme.isToken)) :
    (∀ t ∈ span, t.kind ≠ .comment) ↔ ∃ p ∈ phrases, Spaced unicode p (textOf span) := by
  obtain ⟨hne, hlower⟩ := keywords_isLower c ss hss
  constructor
  · intro hcomment
    obtain ⟨s, ss', rfl⟩ := List.exists_cons_of_ne_nil hne
    exact ⟨_, keywordPhrases_mem (keywords_initial c hc _ hss s rfl).2,
      spaced_of_keywords h.lexed hwords hne hlower h.starts h.ends hcomment⟩
  · rintro ⟨p, hp, hspaced⟩ t ht hkind
    obtain ⟨s, ss', rfl⟩ := List.exists_cons_of_ne_nil hne
    obtain ⟨u, ws, hu, -, hfilter⟩ := List.forall₂_cons_left_iff.mp hwords
    obtain ⟨rest, rfl, -⟩ := span_cons h.starts hfilter
    have hinitial := initial_of_spaced hp hspaced (hlower s List.mem_cons_self) hu
    obtain ⟨ts, hts, rfl⟩ := phrases_keywords p hp (hinitial ▸ (keywords_initial c hc _ hss s rfl).1)
    have hmem : t ∈ lex sql := by
      rw [h.lexed]
      simp only [List.mem_append]
      exact .inl (.inr ht)
    obtain ⟨d, hd, hsign⟩ := lex_comment hmem hkind
    exact no_comment_sign hspaced (keywordPhrases_isLower ts hts) hsign (List.mem_flatMap.mpr ⟨t, ht, hd⟩)

lemma plain_iff (h : Occurs sql c pre span post) :
    Plain c span ↔ ∃ p ∈ phrases, Spaced unicode p (textOf span) := by
  cases c with
  | updateSet =>
    obtain ⟨update, inner, set, rfl, hupdate, hset⟩ := updateSet_span h
    constructor
    · rintro ⟨update', inner', set', heq, hrun⟩
      obtain ⟨-, htail⟩ := List.cons.inj heq
      obtain ⟨rfl, -⟩ := List.append_inj' htail rfl
      exact ⟨_, by decide, (oneRun_iff hupdate hset).mp hrun⟩
    · rintro ⟨p, hp, hspaced⟩
      obtain rfl := phrases_update p hp (initial_of_spaced hp hspaced (by decide) hupdate)
      exact ⟨update, inner, set, rfl, (oneRun_iff hupdate hset).mpr hspaced⟩
  | selectInto =>
    refine iff_of_false id ?_
    rintro ⟨p, hp, hspaced⟩
    obtain ⟨-, ss, hss, hws⟩ := h.words
    obtain rfl := List.mem_singleton.mp hss
    obtain ⟨select, ws, hselect, hws, hfilter⟩ := List.forall₂_cons_left_iff.mp hws
    obtain rfl := List.forall₂_nil_left_iff.mp hws
    obtain rfl := span_singleton h.starts h.ends hfilter
    obtain rfl := phrases_savepoint p hp (initial_of_spaced hp hspaced (by decide) hselect)
    have hlength := length_of_spells hspaced
    rw [textOf, List.flatMap_singleton, length_of_isKeyword hselect] at hlength
    exact absurd hlength (by decide)
  | insertInto =>
    obtain ⟨-, ss, hss, hws⟩ := h.words
    exact keyword_spaced_iff h (by decide) hss hws
  | deleteFrom =>
    obtain ⟨-, ss, hss, hws⟩ := h.words
    exact keyword_spaced_iff h (by decide) hss hws
  | mergeInto =>
    obtain ⟨-, ss, hss, hws⟩ := h.words
    exact keyword_spaced_iff h (by decide) hss hws
  | rowLock =>
    obtain ⟨-, ss, hss, hws⟩ := h.words
    exact keyword_spaced_iff h (by decide) hss hws

lemma keyword_of_token {ss : List String} (hss : ss ∈ c.keywords)
    (hws : AreKeywords ss (span.filter Lexeme.isToken)) {t : Lexeme} (ht : t ∈ span) (htoken : t.isToken = true) :
    ∃ s, IsLower s ∧ t.isKeyword s = true := by
  obtain ⟨s, hs, hkeyword⟩ := forall₂_mem hws.flip (List.mem_filter.mpr ⟨ht, htoken⟩)
  exact ⟨s, (keywords_isLower c ss hss).2 s hs, hkeyword⟩

lemma span_keywords (h : Occurs sql c pre span post) :
    (∃ s t rest, span = t :: rest ∧ IsLower s ∧ t.isKeyword s = true) ∧
      ∃ s t init, span = init ++ [t] ∧ IsLower s ∧ t.isKeyword s = true := by
  have hkeywords : (∃ ss ∈ c.keywords, AreKeywords ss (span.filter Lexeme.isToken)) →
      (∃ s t rest, span = t :: rest ∧ IsLower s ∧ t.isKeyword s = true) ∧
        ∃ s t init, span = init ++ [t] ∧ IsLower s ∧ t.isKeyword s = true := by
    rintro ⟨ss, hss, hws⟩
    have hstart := h.starts
    have hend := h.ends
    constructor
    · cases span with
      | nil => cases hstart
      | cons t rest =>
        obtain ⟨s, hs, ht⟩ := keyword_of_token hss hws List.mem_cons_self (by simpa using hstart)
        exact ⟨s, t, rest, rfl, hs, ht⟩
    · rcases List.eq_nil_or_concat' span with rfl | ⟨init, t, rfl⟩
      · cases hend
      · obtain ⟨s, hs, ht⟩ := keyword_of_token hss hws (t := t) (by simp) (by simpa using hend)
        exact ⟨s, t, init, rfl, hs, ht⟩
  cases c with
  | updateSet =>
    obtain ⟨update, inner, set, rfl, hupdate, hset⟩ := updateSet_span h
    exact ⟨⟨"update", update, inner ++ [set], rfl, by decide, hupdate⟩, "set", set, update :: inner, rfl, by decide,
      hset⟩
  | _ => exact hkeywords h.words.2

lemma text_of_occurs (h : Occurs sql c pre span post) : sql = textOf pre ++ textOf span ++ textOf post := by
  rw [← lex_text sql, h.lexed]
  simp only [textOf, List.flatMap_append]

lemma hasPhrase_of_plain (h : Occurs sql c pre span post) (hplain : Plain c span) : HasPhrase unicode sql := by
  obtain ⟨p, hp, hspaced⟩ := (plain_iff h).mp hplain
  refine ⟨p, hp, textOf pre, textOf span, textOf post, text_of_occurs h, hspaced, ?_, ?_⟩
  · obtain ⟨⟨s, t, rest, rfl, hs, ht⟩, -⟩ := span_keywords h
    have hlexed : lex sql = pre ++ t :: (rest ++ post) := by rw [h.lexed]; simp
    exact boundary_before hlexed hs ht rest _
  · obtain ⟨-, s, t, init, rfl, hs, ht⟩ := span_keywords h
    have hlexed : lex sql = pre ++ init ++ t :: post := by rw [h.lexed]; simp
    exact boundary_after hlexed hs ht init _

end Occurrences

lemma hasPhrase_iff {sql : List Char} : HasPhrase unicode sql ↔ HasPlain sql ∨ PhraseElsewhere unicode sql := by
  constructor
  · rintro ⟨p, hp, pre, w, post, hsql, hw, hbefore, hafter⟩
    by_cases hoccurs : ∃ c before span after, Occurs sql c before span after ∧ textOf before = pre ∧ textOf span = w
    · obtain ⟨c, before, span, after, hocc, -, rfl⟩ := hoccurs
      exact .inl ⟨c, before, span, after, hocc, (plain_iff hocc).mpr ⟨p, hp, hw⟩⟩
    · exact .inr ⟨p, hp, pre, w, post, hsql, hw, hbefore, hafter, hoccurs⟩
  · rintro (⟨c, pre, span, post, hocc, hplain⟩ | ⟨p, hp, pre, w, post, hsql, hw, hbefore, hafter, -⟩)
    · exact hasPhrase_of_plain hocc hplain
    · exact ⟨p, hp, pre, w, post, hsql, hw, hbefore, hafter⟩

def Caught (unicode : Unicode) (router : StatementRouter) (sql : String) : Prop :=
  router.sqlNeedsTransaction unicode sql = true ∧ refuse unicode router sql ≠ .ok ()

instance (unicode : Unicode) (router : StatementRouter) (sql : String) : Decidable (Caught unicode router sql) :=
  inferInstanceAs (Decidable (_ ∧ ¬ _))

lemma caught_iff {router : StatementRouter} {sql : String} : Caught unicode router sql ↔
    ¬ OpensAsRead unicode sql.toList ∨ HasPhrase unicode sql.toList ∨ HasCall unicode router sql.toList := by
  rw [Caught, refuse_iff, and_self, sqlNeedsTransaction_iff]

end TheCargo.Db.Routing
