import Mathlib.Data.List.Basic
import Mathlib.Tactic.Common

/-! The lexical structure of PostgreSQL's SQL, and the constructs of a text that write or lock rows. -/

namespace TheCargo.Db.Postgres

inductive Kind
  | space
  | comment
  | word
  | quoted
  | literal
  | number
  | symbol
  deriving DecidableEq, Repr

structure Lexeme where
  kind : Kind
  text : List Char
  deriving DecidableEq, Repr

def isSpace (c : Char) : Bool :=
  c = ' ' || c = '\t' || c = '\n' || c = '\r' || c = '\x0b' || c = '\x0c'

def isWordStart (c : Char) : Bool := c.isAlpha || c = '_' || 128 ≤ c.toNat

def isWordChar (c : Char) : Bool := isWordStart c || c.isDigit || c = '$'

def quotedLength (quote : Char) (escapes : Bool) : List Char → ℕ
  | [] => 0
  | [_] => 1
  | c :: d :: cs =>
    if escapes && c = '\\' then 2 + quotedLength quote escapes cs
    else if c = quote then if d = quote then 2 + quotedLength quote escapes cs else 1
    else 1 + quotedLength quote escapes (d :: cs)

def blockLength : ℕ → List Char → ℕ
  | _, [] => 0
  | _, [_] => 1
  | depth, c :: d :: cs =>
    if c = '*' ∧ d = '/' then
      match depth with
      | 0 => 2
      | depth + 1 => 2 + blockLength depth cs
    else if c = '/' ∧ d = '*' then 2 + blockLength (depth + 1) cs
    else 1 + blockLength depth (d :: cs)

def dollarLength (close : List Char) : List Char → ℕ
  | [] => 0
  | c :: cs => if close.isPrefixOf (c :: cs) then close.length else 1 + dollarLength close cs

def dollarTag (cs : List Char) : Option (List Char) :=
  let tag := cs.takeWhile (fun c => isWordStart c || c.isDigit)
  if (cs.drop tag.length).head? = some '$' && !(tag.head?.any Char.isDigit) then some tag else none

def extent (c : Char) (cs : List Char) : Kind × ℕ :=
  if isSpace c then (.space, (cs.takeWhile isSpace).length)
  else if c = '-' ∧ cs.head? = some '-' then
    (.comment, (cs.takeWhile (fun d => d ≠ '\n' && d ≠ '\r')).length)
  else if c = '/' ∧ cs.head? = some '*' then (.comment, 1 + blockLength 0 cs.tail)
  else if c = '\'' then (.literal, quotedLength '\'' false cs)
  else if (c = 'e' ∨ c = 'E') ∧ cs.head? = some '\'' then (.literal, 1 + quotedLength '\'' true cs.tail)
  else if c = '"' then (.quoted, quotedLength '"' false cs)
  else if c = '$' then
    match dollarTag cs with
    | some tag => (.literal, tag.length + 1 + dollarLength ('$' :: tag ++ ['$']) (cs.drop (tag.length + 1)))
    | none => (.symbol, 0)
  else if isWordStart c then (.word, (cs.takeWhile isWordChar).length)
  else if c.isDigit then (.number, (cs.takeWhile isWordChar).length)
  else (.symbol, 0)

def lexWithin : ℕ → List Char → List Lexeme
  | _, [] => []
  | 0, _ => []
  | n + 1, c :: cs =>
    ⟨(extent c cs).1, c :: cs.take (extent c cs).2⟩ :: lexWithin n (cs.drop (extent c cs).2)

def lex (cs : List Char) : List Lexeme := lexWithin cs.length cs

namespace Lexeme

def isToken (t : Lexeme) : Bool := t.kind ≠ .space && t.kind ≠ .comment

def isKeyword (s : String) (t : Lexeme) : Bool := t.kind = .word && t.text.map Char.toLower = s.toList

def isSymbol (c : Char) (t : Lexeme) : Bool := t.kind = .symbol && t.text = [c]

def isName (t : Lexeme) : Bool := t.kind = .word || t.kind = .quoted

end Lexeme

open Lexeme

def tokens (cs : List Char) : List Lexeme := (lex cs).filter isToken

def qualifiedRest : List Lexeme → List Lexeme
  | dot :: t :: ts => if dot.isSymbol '.' && t.isName then qualifiedRest ts else dot :: t :: ts
  | ts => ts

def qualifiedName : List Lexeme → Option (List Lexeme)
  | t :: ts => if t.isName then some (qualifiedRest ts) else none
  | [] => none

def dropStar : List Lexeme → List Lexeme
  | t :: ts => if t.isSymbol '*' then ts else t :: ts
  | [] => []

def target : List Lexeme → Option (List Lexeme)
  | only :: t :: ts =>
    if only.isKeyword "only" then
      if t.isSymbol '(' then
        match qualifiedName ts with
        | some (close :: rest) => if close.isSymbol ')' then some rest else none
        | _ => none
      else (qualifiedName (t :: ts)).map dropStar
    else (qualifiedName (only :: t :: ts)).map dropStar
  | ts => (qualifiedName ts).map dropStar

def insertInto : List Lexeme → Bool
  | insert :: into :: t :: _ => insert.isKeyword "insert" && into.isKeyword "into" && t.isName
  | _ => false

def deleteFrom : List Lexeme → Bool
  | delete :: frm :: ts => delete.isKeyword "delete" && frm.isKeyword "from" && (target ts).isSome
  | _ => false

def mergeInto : List Lexeme → Bool
  | merge :: into :: ts => merge.isKeyword "merge" && into.isKeyword "into" && (target ts).isSome
  | _ => false

def aliasedSet : List Lexeme → Bool
  | a :: ts =>
    a.isKeyword "set" ||
      match ts with
      | b :: ts => a.isName && b.isKeyword "set" ||
        match ts with
        | c :: _ => a.isKeyword "as" && b.isName && c.isKeyword "set"
        | [] => false
      | [] => false
  | [] => false

def updateSet : List Lexeme → Bool
  | update :: ts => update.isKeyword "update" && (target ts).any aliasedSet
  | [] => false

def rowLock : List Lexeme → Bool
  | fr :: a :: ts =>
    fr.isKeyword "for" &&
      (a.isKeyword "update" || a.isKeyword "share" ||
        match ts with
        | b :: ts => a.isKeyword "key" && b.isKeyword "share" ||
          match ts with
          | c :: _ => a.isKeyword "no" && b.isKeyword "key" && c.isKeyword "update"
          | [] => false
        | [] => false)
  | _ => false

/-- An `INTO` that ends a select list; behind `AS` any keyword is a label. -/
def reachesInto : ℕ → List Lexeme → Bool
  | depth, t :: u :: ts =>
    if t.isSymbol '(' then reachesInto (depth + 1) (u :: ts)
    else if t.isSymbol ')' then depth ≠ 0 && reachesInto (depth - 1) (u :: ts)
    else if t.isKeyword "as" then reachesInto depth ts
    else if depth = 0 && t.isKeyword "into" then u.isName
    else if depth = 0 && (t.isKeyword "from" || t.isSymbol ';') then false
    else reachesInto depth (u :: ts)
  | _, _ => false

def selectInto : List Lexeme → Bool
  | select :: ts => select.isKeyword "select" && reachesInto 0 ts
  | [] => false

def writes (sql : String) : Bool :=
  (tokens sql.toList).tails.any (fun ts => insertInto ts || deleteFrom ts || mergeInto ts || updateSet ts ||
    rowLock ts || selectInto ts)

def textOf (ts : List Lexeme) : List Char := ts.flatMap Lexeme.text

lemma lexWithin_text {n : ℕ} {cs : List Char} (h : cs.length ≤ n) : textOf (lexWithin n cs) = cs := by
  induction n generalizing cs with
  | zero =>
    obtain rfl := List.length_eq_zero_iff.mp (Nat.le_zero.mp h)
    rfl
  | succ n ih =>
    cases cs with
    | nil => rfl
    | cons c cs =>
      have hle : (cs.drop (extent c cs).2).length ≤ n := by
        rw [List.length_drop]
        simp only [List.length_cons] at h
        omega
      simp only [textOf, lexWithin, List.flatMap_cons] at ih ⊢
      rw [ih hle, List.cons_append, List.take_append_drop]

lemma lex_text (cs : List Char) : textOf (lex cs) = cs := lexWithin_text (Nat.le_refl _)

-- A letter that a word may go on with; the dollar is left out because a dollar-quoted text ends with one.
def isLetter (c : Char) : Bool := isWordStart c || c.isDigit

def Clean (before after : Option Char) : Prop := before.all (!isLetter ·) = true ∨ after.all (!isLetter ·) = true

def EndsWith (e : Char) (n : ℕ) (cs : List Char) : Prop := (cs.take n).getLast? = some e ∨ cs.drop n = []

lemma EndsWith.cons {e : Char} {n : ℕ} {cs : List Char} (h : EndsWith e n cs) (c : Char) :
    EndsWith e (1 + n) (c :: cs) := by
  rw [EndsWith, Nat.add_comm, List.take_succ_cons, List.drop_succ_cons]
  refine h.imp_left ?_
  intro hl
  rw [List.getLast?_cons, hl]
  rfl

lemma EndsWith.skip {e : Char} {n : ℕ} {cs : List Char} (h : EndsWith e n cs) (us : List Char) :
    EndsWith e (us.length + n) (us ++ cs) := by
  induction us with
  | nil => simpa using h
  | cons u us ih =>
    have hc := ih.cons u
    rwa [← Nat.add_assoc, Nat.add_comm 1] at hc

lemma quotedLength_ends (quote : Char) (escapes : Bool) (cs : List Char) :
    EndsWith quote (quotedLength quote escapes cs) cs := by
  fun_induction quotedLength quote escapes cs with
  | case1 => exact Or.inr rfl
  | case2 c => exact Or.inr rfl
  | case3 c d cs _ ih =>
    have h := (ih.cons d).cons c
    rwa [← Nat.add_assoc] at h
  | case4 cs _ ih =>
    have h := (ih.cons quote).cons quote
    rwa [← Nat.add_assoc] at h
  | case5 d cs _ _ => exact Or.inl rfl
  | case6 c d cs _ _ ih => exact ih.cons c

lemma blockLength_ends (depth : ℕ) (cs : List Char) : EndsWith '/' (blockLength depth cs) cs := by
  fun_induction blockLength depth cs with
  | case1 => exact Or.inr rfl
  | case2 => exact Or.inr rfl
  | case3 c d cs h =>
    obtain ⟨rfl, rfl⟩ := h
    exact Or.inl rfl
  | case4 c d cs _ depth ih =>
    have h := (ih.cons d).cons c
    rwa [← Nat.add_assoc] at h
  | case5 depth c d cs _ _ ih =>
    have h := (ih.cons d).cons c
    rwa [← Nat.add_assoc] at h
  | case6 depth c d cs _ _ ih => exact ih.cons c

lemma dollarLength_ends {close : List Char} (hclose : close.getLast? = some '$') (cs : List Char) :
    EndsWith '$' (dollarLength close cs) cs := by
  fun_induction dollarLength close cs with
  | case1 => exact Or.inr rfl
  | case2 c cs h =>
    obtain ⟨rest, hrest⟩ := List.isPrefixOf_iff_prefix.mp h
    refine Or.inl ?_
    rw [← hrest, List.take_left]
    exact hclose
  | case3 c cs _ ih => exact ih.cons c

lemma drop_takeWhile (p : Char → Bool) (cs : List Char) :
    cs.drop (cs.takeWhile p).length = cs.dropWhile p := by
  have hd : (cs.takeWhile p ++ cs.dropWhile p).drop (cs.takeWhile p).length = cs.dropWhile p := List.drop_left
  rwa [List.takeWhile_append_dropWhile] at hd

lemma take_takeWhile (p : Char → Bool) (cs : List Char) :
    cs.take (cs.takeWhile p).length = cs.takeWhile p := by
  have ht : (cs.takeWhile p ++ cs.dropWhile p).take (cs.takeWhile p).length = cs.takeWhile p := List.take_left
  rwa [List.takeWhile_append_dropWhile] at ht

lemma head?_drop_takeWhile {p : Char → Bool} {cs : List Char} {c : Char}
    (h : (cs.drop (cs.takeWhile p).length).head? = some c) : p c = false := by
  have hn := List.head?_dropWhile_not p cs
  rw [← drop_takeWhile, h] at hn
  exact hn

lemma clean_of_ends {e c : Char} {n : ℕ} {cs : List Char} (he : isLetter e = false) (h : EndsWith e n cs) :
    Clean (c :: cs.take n).getLast? (cs.drop n).head? := by
  rcases h with hl | hd
  · refine Or.inl ?_
    rw [List.getLast?_cons, hl]
    simp [he]
  · refine Or.inr ?_
    rw [hd]
    rfl

lemma clean_of_stop {p : Char → Bool} {c : Char} {cs : List Char}
    (hp : ∀ d, p d = false → isLetter d = false) :
    Clean (c :: cs.take (cs.takeWhile p).length).getLast? (cs.drop (cs.takeWhile p).length).head? := by
  refine Or.inr ?_
  cases hd : (cs.drop (cs.takeWhile p).length).head? with
  | none => rfl
  | some d => simp [hp d (head?_drop_takeWhile hd)]

lemma isLetter_of_isSpace {c : Char} (h : isSpace c = true) : isLetter c = false := by
  simp only [isSpace, Bool.or_eq_true, decide_eq_true_eq] at h
  rcases h with ((((rfl | rfl) | rfl) | rfl) | rfl) | rfl <;> decide

lemma isLetter_of_not_isWordChar {c : Char} (h : isWordChar c = false) : isLetter c = false := by
  simp only [isWordChar, Bool.or_eq_false_iff] at h
  simp only [isLetter, h.1.1, h.1.2, Bool.or_self]

lemma space_clean {c : Char} (h : isSpace c = true) (cs : List Char) :
    Clean (c :: cs.take (cs.takeWhile isSpace).length).getLast?
      (cs.drop (cs.takeWhile isSpace).length).head? := by
  refine Or.inl ?_
  rw [take_takeWhile]
  cases hl : (c :: cs.takeWhile isSpace).getLast? with
  | none => rfl
  | some d =>
    have hd : isSpace d = true := by
      rcases List.mem_cons.mp (List.mem_of_getLast? hl) with rfl | hm
      · exact h
      · exact List.all_eq_true.mp (List.all_takeWhile (l := cs)) d hm
    simp [isLetter_of_isSpace hd]

lemma ends_tail {e d : Char} {n : ℕ} {cs : List Char} (hcs : cs.head? = some d)
    (h : EndsWith e n cs.tail) : EndsWith e (1 + n) cs := by
  cases cs with
  | nil => exact absurd hcs (by simp)
  | cons d' cs => exact h.cons d'

lemma dollarTag_prefix {cs tag : List Char} (h : dollarTag cs = some tag) :
    cs = (tag ++ ['$']) ++ cs.drop (tag.length + 1) := by
  simp only [dollarTag] at h
  split at h
  · rename_i hc
    obtain rfl := Option.some.inj h
    simp only [Bool.and_eq_true, decide_eq_true_eq] at hc
    obtain ⟨rest, hrest⟩ := List.head?_eq_some_iff.mp hc.1
    rw [← List.drop_drop, hrest, List.drop_one, List.tail_cons, List.append_assoc, List.singleton_append,
      ← hrest, drop_takeWhile, List.takeWhile_append_dropWhile]
  · exact absurd h (by simp)

inductive Extent (c : Char) (cs : List Char) : Kind × ℕ → Prop
  | space (h : isSpace c = true) : Extent c cs (.space, (cs.takeWhile isSpace).length)
  | line (h : c = '-') : Extent c cs (.comment, (cs.takeWhile (fun d => d ≠ '\n' && d ≠ '\r')).length)
  | block (hc : c = '/') (h : cs.head? = some '*') : Extent c cs (.comment, 1 + blockLength 0 cs.tail)
  | quote : Extent c cs (.literal, quotedLength '\'' false cs)
  | escape (h : cs.head? = some '\'') : Extent c cs (.literal, 1 + quotedLength '\'' true cs.tail)
  | ident : Extent c cs (.quoted, quotedLength '"' false cs)
  | dollar (tag : List Char) (h : dollarTag cs = some tag) :
      Extent c cs (.literal, tag.length + 1 + dollarLength ('$' :: tag ++ ['$']) (cs.drop (tag.length + 1)))
  | word (h : isWordStart c = true) : Extent c cs (.word, (cs.takeWhile isWordChar).length)
  | number : Extent c cs (.number, (cs.takeWhile isWordChar).length)
  | symbol (h : isLetter c = false) : Extent c cs (.symbol, 0)

lemma extent_cases (c : Char) (cs : List Char) : Extent c cs (extent c cs) := by
  rw [extent]
  split
  · rename_i h
    exact .space h
  split
  · rename_i h
    exact .line h.1
  split
  · rename_i h
    exact .block h.1 h.2
  split
  · exact .quote
  split
  · rename_i h
    exact .escape h.2
  split
  · exact .ident
  split
  · rename_i h
    split
    · rename_i tag htag
      exact .dollar tag htag
    · exact .symbol (h ▸ rfl)
  split
  · rename_i h
    exact .word h
  split
  · exact .number
  · rename_i hword hdigit
    exact .symbol (Bool.or_eq_false_iff.mpr ⟨eq_false_of_ne_true hword, eq_false_of_ne_true hdigit⟩)

lemma extent_clean (c : Char) (cs : List Char) :
    Clean (c :: cs.take (extent c cs).2).getLast? (cs.drop (extent c cs).2).head? := by
  have hextent := extent_cases c cs
  generalize extent c cs = e at hextent ⊢
  cases hextent with
  | space h => exact space_clean h cs
  | line _ =>
    apply clean_of_stop
    intro d hd
    simp only [Bool.and_eq_false_iff, decide_eq_false_iff_not, not_not] at hd
    rcases hd with rfl | rfl <;> decide
  | block _ h => exact clean_of_ends (by decide) (ends_tail h (blockLength_ends 0 cs.tail))
  | quote => exact clean_of_ends (by decide) (quotedLength_ends '\'' false cs)
  | escape h => exact clean_of_ends (by decide) (ends_tail h (quotedLength_ends '\'' true cs.tail))
  | ident => exact clean_of_ends (by decide) (quotedLength_ends '"' false cs)
  | dollar tag htag =>
    have hclose : ('$' :: tag ++ ['$']).getLast? = some '$' := List.getLast?_concat ..
    have hends := (dollarLength_ends hclose (cs.drop (tag.length + 1))).skip (tag ++ ['$'])
    rw [← dollarTag_prefix htag, List.length_append, List.length_singleton] at hends
    exact clean_of_ends (by decide) hends
  | word h => exact clean_of_stop (fun d hd => isLetter_of_not_isWordChar hd)
  | number => exact clean_of_stop (fun d hd => isLetter_of_not_isWordChar hd)
  | symbol h =>
    refine Or.inl ?_
    rw [List.take_zero, List.getLast?_singleton, Option.all_some, h]
    rfl

lemma extent_word {c : Char} {cs : List Char} (h : (extent c cs).1 = .word) :
    isLetter c = true ∧ ((cs.drop (extent c cs).2).head?).all (!isWordChar ·) = true := by
  have hextent := extent_cases c cs
  generalize extent c cs = e at hextent h ⊢
  cases hextent with
  | word hword =>
    refine ⟨by rw [isLetter, hword, Bool.true_or], ?_⟩
    cases hd : (cs.drop (cs.takeWhile isWordChar).length).head? with
    | none => rfl
    | some d => simp [head?_drop_takeWhile hd]
  | _ => cases h

lemma extent_space {c : Char} {cs : List Char} (h : (extent c cs).1 = .space) :
    ∀ d ∈ c :: cs.take (extent c cs).2, isSpace d = true := by
  have hextent := extent_cases c cs
  generalize extent c cs = e at hextent h ⊢
  cases hextent with
  | space hspace =>
    rw [take_takeWhile]
    rintro d (_ | ⟨_, hd⟩)
    · exact hspace
    · exact List.all_eq_true.mp (List.all_takeWhile (l := cs)) d hd
  | _ => cases h

lemma extent_comment {c : Char} {cs : List Char} (h : (extent c cs).1 = .comment) : c = '-' ∨ c = '/' := by
  have hextent := extent_cases c cs
  generalize extent c cs = e at hextent h
  cases hextent with
  | line hc => exact .inl hc
  | block hc _ => exact .inr hc
  | _ => cases h

lemma lexWithin_word {n : ℕ} {cs : List Char} {before : Option Char} (hn : cs.length ≤ n)
    (hb : Clean before cs.head?) {pre post : List Lexeme} {t : Lexeme}
    (h : lexWithin n cs = pre ++ t :: post) (ht : t.kind = .word) :
    ((textOf pre).getLast?.or before).all (!isLetter ·) = true ∧
      (textOf post).head?.all (!isWordChar ·) = true := by
  induction n generalizing cs before pre with
  | zero =>
    obtain rfl := List.length_eq_zero_iff.mp (Nat.le_zero.mp hn)
    exact absurd h (by simp [lexWithin])
  | succ n ih =>
    cases cs with
    | nil => exact absurd h (by simp [lexWithin])
    | cons c cs =>
      have hle : (cs.drop (extent c cs).2).length ≤ n := by
        rw [List.length_drop]
        simp only [List.length_cons] at hn
        omega
      rw [lexWithin] at h
      cases pre with
      | nil =>
        obtain ⟨rfl, hpost⟩ := List.cons.inj h
        obtain ⟨hc, hafter⟩ := extent_word ht
        rw [← hpost, lexWithin_text hle]
        refine ⟨?_, hafter⟩
        rcases hb with hb | ha
        · exact hb
        · simp only [List.head?_cons, Option.all_some, hc, Bool.not_true, Bool.false_eq_true] at ha
      | cons p pre =>
        obtain ⟨rfl, hrest⟩ := List.cons.inj h
        have hw := ih hle (extent_clean c cs) hrest
        refine ⟨?_, hw.2⟩
        have hlast : ((textOf (⟨(extent c cs).1, c :: cs.take (extent c cs).2⟩ :: pre)).getLast?.or before) =
            (textOf pre).getLast?.or (c :: cs.take (extent c cs).2).getLast? := by
          rw [textOf, List.flatMap_cons, List.getLast?_append, Option.or_assoc]
          rfl
        rw [hlast]
        exact hw.1

lemma lex_word {cs : List Char} {pre post : List Lexeme} {t : Lexeme} (h : lex cs = pre ++ t :: post)
    (ht : t.kind = .word) :
    (textOf pre).getLast?.all (!isLetter ·) = true ∧ (textOf post).head?.all (!isWordChar ·) = true := by
  have hb : Clean none cs.head? := Or.inl rfl
  have hw := lexWithin_word (Nat.le_refl cs.length) hb h ht
  rwa [Option.or_none] at hw

lemma lexWithin_space {n : ℕ} {cs : List Char} {t : Lexeme} (h : t ∈ lexWithin n cs)
    (ht : t.kind = .space) : t.text ≠ [] ∧ ∀ d ∈ t.text, isSpace d = true := by
  induction n generalizing cs with
  | zero => cases cs <;> exact absurd h (by simp [lexWithin])
  | succ n ih =>
    cases cs with
    | nil => exact absurd h (by simp [lexWithin])
    | cons c cs =>
      rcases List.mem_cons.mp h with rfl | hm
      · exact ⟨by simp, extent_space ht⟩
      · exact ih hm

lemma lexWithin_comment {n : ℕ} {cs : List Char} {t : Lexeme} (h : t ∈ lexWithin n cs)
    (ht : t.kind = .comment) : ∃ c ∈ t.text, c = '-' ∨ c = '/' := by
  induction n generalizing cs with
  | zero => cases cs <;> exact absurd h (by simp [lexWithin])
  | succ n ih =>
    cases cs with
    | nil => exact absurd h (by simp [lexWithin])
    | cons c cs =>
      rcases List.mem_cons.mp h with rfl | hm
      · exact ⟨c, List.mem_cons_self, extent_comment ht⟩
      · exact ih hm

lemma lexWithin_letter {n : ℕ} {cs : List Char} {t : Lexeme} (h : t ∈ lexWithin n cs)
    (ht : t.kind = .word) : ∃ c ds, t.text = c :: ds ∧ isLetter c = true := by
  induction n generalizing cs with
  | zero => cases cs <;> exact absurd h (by simp [lexWithin])
  | succ n ih =>
    cases cs with
    | nil => exact absurd h (by simp [lexWithin])
    | cons c cs =>
      rcases List.mem_cons.mp h with rfl | hm
      · exact ⟨c, _, rfl, (extent_word ht).1⟩
      · exact ih hm

lemma lex_space {cs : List Char} {t : Lexeme} (h : t ∈ lex cs) (ht : t.kind = .space) :
    t.text ≠ [] ∧ ∀ d ∈ t.text, isSpace d = true :=
  lexWithin_space h ht

lemma lex_comment {cs : List Char} {t : Lexeme} (h : t ∈ lex cs) (ht : t.kind = .comment) :
    ∃ c ∈ t.text, c = '-' ∨ c = '/' :=
  lexWithin_comment h ht

lemma lex_letter {cs : List Char} {t : Lexeme} (h : t ∈ lex cs) (ht : t.kind = .word) :
    ∃ c ds, t.text = c :: ds ∧ isLetter c = true :=
  lexWithin_letter h ht

end TheCargo.Db.Postgres
