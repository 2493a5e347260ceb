import TheCargo.Templating.Idempotent

namespace TheCargo.Templating

open Foundation Foundation.Pattern

inductive Tag
  | loop (name : String)
  | endLoop
  | binding (name : String)
  | other
  deriving DecidableEq

inductive Mode
  | text
  | output
  | tag (content : List Char)
  deriving DecidableEq

-- The contents of the tags of a text, and where its end stands.
def lex : Mode → List Char → Mode × List (List Char)
  | mode, [] => (mode, [])
  | .text, '{' :: '%' :: s => lex (.tag []) s
  | .text, '{' :: '{' :: s => lex .output s
  | .text, _ :: s => lex .text s
  | .output, '}' :: '}' :: s => lex .text s
  | .output, _ :: s => lex .output s
  | .tag content, '%' :: '}' :: s => ((lex .text s).1, content.reverse :: (lex .text s).2)
  | .tag content, c :: s => lex (.tag (c :: content)) s

def tagWords (content : List Char) : List String :=
  let dashless := (content.dropWhile (· = '-')).reverse.dropWhile (· = '-')
  ((dashless.reverse.splitOnP isSpace).filter (· ≠ [])).map String.ofList

def readTag (content : List Char) : Tag :=
  match tagWords content with
  | "for" :: name :: "in" :: _ => .loop name
  | "endfor" :: _ => .endLoop
  | "assign" :: target :: _ =>
    if '=' ∈ content then .binding (String.ofList (target.toList.takeWhile (· ≠ '='))) else .other
  | "capture" :: name :: _ => .binding name
  | _ => .other

def tags (s : List Char) : List Tag := (lex .text s).2.map readTag

-- The loops that are open, the innermost first, and the names bound by `assign` and `capture`.
structure Scope where
  loops : List String
  bound : List String

def Scope.enter (scope : Scope) : Tag → Scope
  | .loop name => { scope with loops := name :: scope.loops }
  | .endLoop => { scope with loops := scope.loops.tail }
  | .binding name => { scope with bound := name :: scope.bound }
  | .other => scope

def scopeOf (s : List Char) : Scope := (tags s).foldl Scope.enter ⟨[], []⟩

/-- The tags end at least so many of the loops that are open before them. -/
def closes : ℕ → List Tag → Bool
  | 0, _ => true
  | _ + 1, [] => false
  | n + 1, .loop _ :: ts => closes (n + 2) ts
  | n + 1, .endLoop :: ts => closes n ts
  | n + 1, .binding _ :: ts => closes (n + 1) ts
  | n + 1, .other :: ts => closes (n + 1) ts

structure Reference where
  before : List Char
  left : List Char
  name : List Char
  right : List Char
  after : List Char
  left_blank : Blank left
  right_blank : Blank right
  name_ne_nil : name ≠ []
  name_plain : ∀ c ∈ name, isSpace c = false ∧ c ≠ '{' ∧ c ≠ '}'

namespace Reference

variable (ref : Reference)

def inner : List Char := ref.left ++ (ref.name ++ (ref.right ++ ['}', '}']))

def text : List Char := '{' :: '{' :: ref.inner

def template : String := String.ofList (ref.before ++ (ref.text ++ ref.after))

def Bound : Prop :=
  (lex .text ref.before).1 = .text ∧
    (String.ofList ref.name ∈ (scopeOf ref.before).bound ∨
      ∃ i < (scopeOf ref.before).loops.length,
        (scopeOf ref.before).loops[i]? = some (String.ofList ref.name) ∧ closes (i + 1) (tags ref.after) = true)

instance : Decidable ref.Bound := inferInstanceAs (Decidable (_ ∧ _))

def IsLeft : Prop :=
  ∃ left right, Blank left ∧ Blank right ∧ (legacyToLiquid ref.template).toList =
    (legacyToLiquid (String.ofList ref.before)).toList ++
      (['{', '{'] ++ (left ++ (ref.name ++ (right ++ ['}', '}']))) ++
        (legacyToLiquid (String.ofList ref.after)).toList)

end Reference

lemma key_word {e : String × String} (h : e ∈ legacyMapping.items) : IsWord e.1.toList := by
  have hall : ∀ e ∈ legacyMapping.items, e.1.toList.head?.any isLetter = true ∧ e.1.toList.all isWord = true := by
    decide
  obtain ⟨hhead, hword⟩ := hall e h
  rw [List.all_eq_true] at hword
  cases he : e.1.toList with
  | nil =>
    rw [he] at hhead
    exact absurd hhead (by decide)
  | cons c u =>
    rw [he] at hhead hword
    exact ⟨c, u, rfl, hhead, fun d hd => hword d (List.mem_cons_of_mem c hd)⟩

lemma mapped_dot {e : String × String} (h : e ∈ legacyMapping.items) : '.' ∈ e.2.toList := by
  have hall : ∀ e ∈ legacyMapping.items, '.' ∈ e.2.toList := by decide
  exact hall e h

variable {s o : List Char} {before : Option Char} (ref : Reference)

lemma stops_single (t : List Char) : SingleRule.Stops ('{' :: t) where
  stays := by
    rintro before u r v ⟨hb, ha, hu⟩
    refine ⟨hb, ?_, hu⟩
    cases r with
    | nil => exact fun h => absurd (Option.some.inj h) (by decide)
    | cons c r => exact ha
  ends := by
    intro before s u r v hs he hu
    rcases List.append_eq_append_iff.mp he with ⟨a, rfl, ht⟩ | ⟨r', rfl, rfl⟩
    · cases a with
      | nil => exact ⟨[], by simp, hu.1, by decide, hu.2.2⟩
      | cons b a =>
        obtain ⟨rfl, _⟩ := List.cons.inj ht
        obtain ⟨p, hp, hopen, _⟩ := single_source hu
        obtain ⟨c, s, rfl⟩ := List.exists_cons_of_ne_nil hs
        obtain rfl : s ++ '{' :: a = p := (List.cons.inj hp).2
        exact absurd (List.mem_append_right s List.mem_cons_self) hopen
    · obtain ⟨hb, ha, hu⟩ := hu
      refine ⟨r', rfl, hb, ?_, hu⟩
      intro h
      rw [List.head?_append, h] at ha
      exact ha rfl

lemma stops_double (t : List Char) : DoubleRule.Stops ('{' :: '{' :: t) where
  stays _ _ _ _ h := h
  ends := by
    intro before s u r v hs he hu
    rcases List.append_eq_append_iff.mp he with ⟨a, rfl, ht⟩ | ⟨r', rfl, rfl⟩
    · cases a with
      | nil => exact ⟨[], by simp, hu⟩
      | cons b a =>
        obtain ⟨rfl, hta⟩ := List.cons.inj ht
        obtain ⟨p, hp, hopen, hne⟩ := double_source hu
        obtain ⟨c, s, rfl⟩ := List.exists_cons_of_ne_nil hs
        have hrest : s ++ '{' :: a = '{' :: p := (List.cons.inj hp).2
        cases s with
        | nil =>
          obtain rfl : a = p := (List.cons.inj hrest).2
          obtain ⟨d, a, rfl⟩ := List.exists_cons_of_ne_nil hne
          obtain ⟨rfl, _⟩ := List.cons.inj hta
          exact absurd List.mem_cons_self hopen
        | cons c s =>
          obtain rfl : s ++ '{' :: a = p := (List.cons.inj hrest).2
          exact absurd (List.mem_append_right s List.mem_cons_self) hopen
    · exact ⟨r', rfl, hu⟩

lemma double_anywhere {before' : Option Char} (h : Scan DoubleRule before s o) : Scan DoubleRule before' s o := by
  apply h.before_congr
  intro u r v
  exact Iff.rfl

lemma single_after_brace (h : Scan SingleRule none s o) : Scan SingleRule (some '}') s o := by
  apply h.before_congr
  intro u r v
  exact and_congr_left (fun _ => iff_of_true (by decide) (by decide))

namespace Reference

lemma inner_plain : '{' ∉ ref.inner := by
  simp only [inner, List.mem_append, not_or]
  exact ⟨not_mem_of_blank (by decide) ref.left_blank, fun h => (ref.name_plain _ h).2.1 rfl,
    not_mem_of_blank (by decide) ref.right_blank, by decide⟩

lemma inner_ne_nil : ref.inner ≠ [] :=
  List.append_ne_nil_of_right_ne_nil _ (List.append_ne_nil_of_left_ne_nil ref.name_ne_nil _)

lemma inner_last : ref.inner.getLast? = some '}' := by
  simp [inner, List.getLast?_append]

lemma double_word (hw : IsWord ref.name) (h : Scan DoubleRule none s o) :
    Scan DoubleRule before (ref.text ++ s) (reference (mapped (String.ofList ref.name)) ++ o) := by
  have hu : DoubleRule before ref.text s (replaceDouble ref.name ref.text) :=
    ⟨ref.left, ref.name, ref.right, ref.left_blank, hw, ref.right_blank, rfl, rfl⟩
  rw [replaceDouble_word hw] at hu
  exact Scan.hit hu (double_anywhere h)

lemma word_of_double {u r v : List Char} (hu : DoubleRule before u r v) (he : u ++ r = ref.text ++ s) :
    IsWord ref.name := by
  simp only [text, inner, List.append_assoc, List.cons_append, List.nil_append] at he
  have hspace : ∀ c ∈ ref.name, isSpace c = false := fun c hc => (ref.name_plain c hc).1
  have hword := double_text hu he ref.left_blank ref.right_blank ref.name_ne_nil
    (fun h => (ref.name_plain _ h).2.2 rfl) (fun c hc => hspace c (List.mem_of_head? hc))
    (fun c hc => hspace c (List.mem_of_getLast? hc))
  exact hword.1

lemma double_other (hw : ¬ IsWord ref.name) (h : Scan DoubleRule none s o) :
    Scan DoubleRule before (ref.text ++ s) (ref.text ++ o) := by
  have hrest : Scan DoubleRule (some '{') (ref.inner ++ s) (ref.inner ++ o) :=
    Scan.pass opens_double ref.inner_plain (double_anywhere h)
  refine Scan.miss ?_ (Scan.miss ?_ hrest)
  · exact fun u r v he hu => hw (ref.word_of_double hu he.symm)
  · intro u r v he hu
    obtain ⟨p, rfl, _, _⟩ := double_source hu
    obtain ⟨d, q, hq⟩ := List.exists_cons_of_ne_nil ref.inner_ne_nil
    have hplain := ref.inner_plain
    have hcut : ref.inner ++ s = '{' :: p ++ r := (List.cons.inj he).2
    rw [hq] at hcut hplain
    obtain ⟨rfl, _⟩ := List.cons.inj hcut
    exact hplain List.mem_cons_self

lemma single_other (h : Scan SingleRule none s o) : Scan SingleRule before (ref.text ++ s) (ref.text ++ o) := by
  have hafter : Scan SingleRule ref.inner.getLast? s o := ref.inner_last ▸ single_after_brace h
  exact single_pass ref.inner_plain ref.inner_ne_nil hafter

end Reference

def rewrite (s : List Char) : List Char := rewriteSingle (rewriteDouble s)

namespace Reference

lemma rewrite_around {t : List Char}
    (hd : ∀ {before s o}, Scan DoubleRule none s o → Scan DoubleRule before (ref.text ++ s) (t ++ o))
    (hs : ∀ {before s o}, Scan SingleRule none s o → Scan SingleRule before (t ++ s) (t ++ o))
    (ht : ∃ q, t = '{' :: '{' :: q) :
    rewrite (ref.before ++ (ref.text ++ ref.after)) = rewrite ref.before ++ (t ++ rewrite ref.after) := by
  have hdouble : rewriteDouble (ref.before ++ (ref.text ++ ref.after)) =
      rewriteDouble ref.before ++ (t ++ rewriteDouble ref.after) :=
    (scan_double _).unique proper_double
      ((scan_double ref.before).append proper_double (stops_double _) (hd (scan_double ref.after)))
  obtain ⟨q, rfl⟩ := ht
  have hsingle : rewriteSingle (rewriteDouble ref.before ++ ('{' :: '{' :: q ++ rewriteDouble ref.after)) =
      rewrite ref.before ++ ('{' :: '{' :: q ++ rewrite ref.after) :=
    (scan_single _).unique proper_single
      ((scan_single _).append proper_single (stops_single _) (hs (scan_single (rewriteDouble ref.after))))
  rw [rewrite, hdouble, hsingle]

lemma rewrite_word (hw : IsWord ref.name) : rewrite (ref.before ++ (ref.text ++ ref.after)) =
    rewrite ref.before ++ (reference (mapped (String.ofList ref.name)) ++ rewrite ref.after) := by
  refine ref.rewrite_around (ref.double_word hw) ?_ ⟨_, rfl⟩
  exact fun h => single_reference (settled_word hw).1 (single_after_brace h)

lemma rewrite_other (hw : ¬ IsWord ref.name) : rewrite (ref.before ++ (ref.text ++ ref.after)) =
    rewrite ref.before ++ (ref.text ++ rewrite ref.after) :=
  ref.rewrite_around (ref.double_other hw) ref.single_other ⟨_, rfl⟩

lemma rewritten (s : List Char) : (legacyToLiquid (String.ofList s)).toList = rewrite s := by
  rw [legacyToLiquid_toList, String.toList_ofList]
  rfl

lemma isLeft_iff_rewrite : ref.IsLeft ↔ ∃ left right, Blank left ∧ Blank right ∧
    rewrite (ref.before ++ (ref.text ++ ref.after)) = rewrite ref.before ++
      (['{', '{'] ++ (left ++ (ref.name ++ (right ++ ['}', '}']))) ++ rewrite ref.after) := by
  rw [IsLeft, template]
  simp only [rewritten]

lemma isLeft_iff : ref.IsLeft ↔ String.ofList ref.name ∉ legacyMapping.items.map Prod.fst := by
  rw [isLeft_iff_rewrite]
  by_cases hw : IsWord ref.name
  · rw [ref.rewrite_word hw]
    constructor
    · rintro ⟨left, right, hl, hr, h⟩ hkey
      obtain ⟨⟨key, liquidPath⟩, hmem, rfl : key = _⟩ := List.mem_map.mp hkey
      have hmapped : mapped (String.ofList ref.name) = liquidPath := by
        rw [mapped, Dict.mem_items.mp hmem]
        rfl
      have hsame := List.append_cancel_right (List.append_cancel_left h)
      have hdot : '.' ∈ reference liquidPath :=
        List.mem_append_left _ (List.mem_append_right _ (mapped_dot hmem))
      rw [hmapped] at hsame
      rw [hsame] at hdot
      simp only [List.mem_append] at hdot
      rcases hdot with hd | hd | hd | hd | hd
      · exact absurd hd (by decide)
      · exact not_mem_of_blank (by decide) hl hd
      · exact absurd (hw.word _ hd) (by decide)
      · exact not_mem_of_blank (by decide) hr hd
      · exact absurd hd (by decide)
    · intro hkey
      have hnone : legacyMapping.get? (String.ofList ref.name) = none := lookup_eq_none hkey
      refine ⟨[' '], [' '], blank_space, blank_space, ?_⟩
      rw [mapped, hnone]
      simp [reference]
  · rw [ref.rewrite_other hw]
    constructor
    · rintro - hkey
      obtain ⟨e, hmem, he⟩ := List.mem_map.mp hkey
      have hword := key_word hmem
      rw [he, String.toList_ofList] at hword
      exact hw hword
    · exact fun _ => ⟨ref.left, ref.right, ref.left_blank, ref.right_blank, rfl⟩

end Reference

theorem a_bound_reference_is_left_iff (ref : Reference) :
    (ref.Bound → ref.IsLeft) ↔ (ref.Bound → String.ofList ref.name ∉ legacyMapping.items.map Prod.fst) :=
  imp_congr_right fun _ => ref.isLeft_iff

def codeOfAFile : Reference where
  before := "\x7b% for code in files %\x7d".toList
  left := [' ']
  name := "code".toList
  right := [' ']
  after := "\x7b% endfor %\x7d".toList
  left_blank := blank_space
  right_blank := blank_space
  name_ne_nil := by decide
  name_plain := by
    have hplain : "code".toList.all (fun c => !isSpace c && c != '{' && c != '}') = true := by decide
    simpa [and_assoc] using hplain

theorem a_loop_variable_is_replaced : codeOfAFile.Bound ∧ ¬ codeOfAFile.IsLeft ∧
    legacyToLiquid codeOfAFile.template =
      "\x7b% for code in files %\x7d\x7b\x7b shipment.code \x7d\x7d\x7b% endfor %\x7d" := by
  refine ⟨by decide +kernel, ?_, by decide +kernel⟩
  rw [Reference.isLeft_iff, not_not]
  decide +kernel

end TheCargo.Templating
