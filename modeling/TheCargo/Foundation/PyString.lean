import Mathlib.Data.Int.Notation
import Mathlib.Data.List.Infix
import Mathlib.Data.List.TakeWhile
import Mathlib.Tactic.Common

namespace TheCargo.Foundation

/-- The characters for which `str.isspace` holds; `\s` of `re` is the same set. -/
def isSpace (c : Char) : Bool :=
  let n := c.toNat
  (9 ≤ n && n ≤ 13) || (28 ≤ n && n ≤ 32) || n == 0x85 || n == 0xA0 || n == 0x1680 ||
    (0x2000 ≤ n && n ≤ 0x200A) || n == 0x2028 || n == 0x2029 || n == 0x202F || n == 0x205F ||
    n == 0x3000

lemma forall_of_all {α : Type*} {p : α → Prop} [DecidablePred p] {xs : List α}
    (h : xs.all (fun x => decide (p x)) = true) : ∀ x ∈ xs, p x :=
  fun x hx => of_decide_eq_true (List.all_eq_true.mp h x hx)

def strip (s : String) : String :=
  String.ofList ((s.toList.dropWhile isSpace).reverse.dropWhile isSpace).reverse

lemma strip_solid {w : List Char} (h : ∀ c ∈ w, isSpace c = false) : strip (String.ofList w) = String.ofList w := by
  have hdrop : ∀ v : List Char, (∀ c ∈ v, isSpace c = false) → v.dropWhile isSpace = v := by
    intro v hv
    cases v with
    | nil => rfl
    | cons c v => exact List.dropWhile_cons_of_neg (by simp [hv c List.mem_cons_self])
  have hrev : ∀ c ∈ w.reverse, isSpace c = false := fun c hc => h c (List.mem_reverse.mp hc)
  rw [strip, String.toList_ofList, hdrop w h, hdrop w.reverse hrev, List.reverse_reverse]

lemma strip_append_blank {w : List Char} (h : ∀ c ∈ w, isSpace c = true) (v : List Char) :
    strip (String.ofList (v ++ w)) = strip (String.ofList v) := by
  rw [strip, strip, String.toList_ofList, String.toList_ofList, List.dropWhile_append]
  have hrev : ∀ c ∈ w.reverse, isSpace c = true := fun c hc => h c (List.mem_reverse.mp hc)
  split
  · rename_i hv
    rw [List.isEmpty_iff.mp hv, List.dropWhile_eq_nil_iff.mpr h]
  · rw [List.reverse_append, List.dropWhile_append_of_pos hrev]

lemma strip_subset {s : String} {c : Char} (h : c ∈ (strip s).toList) : c ∈ s.toList := by
  rw [strip, String.toList_ofList, List.mem_reverse] at h
  exact (List.dropWhile_suffix _).subset (List.mem_reverse.mp ((List.dropWhile_suffix _).subset h))

lemma strip_getLast {s : String} {c : Char} (h : (strip s).toList.getLast? = some c) : isSpace c = false := by
  have hnot := List.head?_dropWhile_not isSpace (s.toList.dropWhile isSpace).reverse
  rw [strip, String.toList_ofList, List.getLast?_reverse] at h
  rw [h] at hnot
  simpa using hnot

def stripBy (p : Char → Bool) (s : List Char) : List Char := ((s.dropWhile p).reverse.dropWhile p).reverse

section

variable {p : Char → Bool} {s : List Char} {c : Char}

lemma stripBy_parts (p : Char → Bool) (s : List Char) :
    ∃ l r, (∀ c ∈ l, p c = true) ∧ (∀ c ∈ r, p c = true) ∧ s = l ++ (stripBy p s ++ r) := by
  refine ⟨s.takeWhile p, ((s.dropWhile p).reverse.takeWhile p).reverse, fun c hc => List.mem_takeWhile_imp hc,
    fun c hc => List.mem_takeWhile_imp (List.mem_reverse.mp hc), ?_⟩
  rw [stripBy, ← List.reverse_append, List.takeWhile_append_dropWhile, List.reverse_reverse,
    List.takeWhile_append_dropWhile]

lemma dropWhile_self (h : ∀ c, s.head? = some c → p c = false) : s.dropWhile p = s := by
  cases s with
  | nil => rfl
  | cons c s => exact List.dropWhile_cons_of_neg (by simp [h c rfl])

lemma stripBy_self (hhead : ∀ c, s.head? = some c → p c = false) (hlast : ∀ c, s.getLast? = some c → p c = false) :
    stripBy p s = s := by
  rw [stripBy, dropWhile_self hhead, dropWhile_self (fun c hc => hlast c (List.head?_reverse ▸ hc)),
    List.reverse_reverse]

lemma stripBy_last (h : (stripBy p s).getLast? = some c) : p c = false := by
  have hnot := List.head?_dropWhile_not p (s.dropWhile p).reverse
  rw [stripBy, List.getLast?_reverse] at h
  rw [h] at hnot
  simpa using hnot

lemma stripBy_head (h : (stripBy p s).head? = some c) : p c = false := by
  have hnot := List.head?_dropWhile_not p s
  have hparts : s.dropWhile p = stripBy p s ++ ((s.dropWhile p).reverse.takeWhile p).reverse := by
    rw [stripBy, ← List.reverse_append, List.takeWhile_append_dropWhile, List.reverse_reverse]
  rw [hparts, List.head?_append, h] at hnot
  simpa using hnot

lemma stripBy_between {l w r : List Char} (hl : ∀ c ∈ l, p c = true) (hr : ∀ c ∈ r, p c = true)
    (hhead : ∀ c, w.head? = some c → p c = false) (hlast : ∀ c, w.getLast? = some c → p c = false) :
    stripBy p (l ++ w ++ r) = w := by
  have hr' : ∀ c ∈ r.reverse, p c = true := fun c hc => hr c (List.mem_reverse.mp hc)
  rw [stripBy, List.append_assoc, List.dropWhile_append_of_pos hl]
  cases w with
  | nil =>
    rw [List.nil_append, List.dropWhile_eq_nil_iff.mpr hr]
    rfl
  | cons c w =>
    rw [List.cons_append, List.dropWhile_cons_of_neg (by simp [hhead c rfl]), ← List.cons_append, List.reverse_append,
      List.dropWhile_append_of_pos hr', dropWhile_self (fun d hd => hlast d (List.head?_reverse ▸ hd)),
      List.reverse_reverse]

lemma stripBy_idem (p : Char → Bool) (s : List Char) : stripBy p (stripBy p s) = stripBy p s :=
  stripBy_self (fun _ => stripBy_head) (fun _ => stripBy_last)

lemma stripBy_isInfix (p : Char → Bool) (s : List Char) : stripBy p s <:+: s := by
  obtain ⟨l, r, -, -, hparts⟩ := stripBy_parts p s
  exact ⟨l, r, (List.append_assoc _ _ _).trans hparts.symm⟩

lemma dropWhile_append_self {u : List Char} (h : ∀ c, u.head? = some c → p c = false) (s : List Char) :
    (s ++ u).dropWhile p = s.dropWhile p ++ u := by
  induction s with
  | nil => exact dropWhile_self h
  | cons c s ih =>
    rw [List.cons_append, List.dropWhile_cons, List.dropWhile_cons]
    split
    · exact ih
    · rfl

lemma isInfix_stripBy {w : List Char} (hw : w <:+: s) (hne : w ≠ []) (hhead : ∀ c, w.head? = some c → p c = false)
    (hlast : ∀ c, w.getLast? = some c → p c = false) : w <:+: stripBy p s := by
  obtain ⟨a, b, rfl⟩ := hw
  have hhead' : ∀ c, (w ++ b).head? = some c → p c = false := by
    rw [List.head?_append_of_ne_nil _ hne]
    exact hhead
  have hlast' : ∀ c, (w.reverse ++ (a.dropWhile p).reverse).head? = some c → p c = false := by
    rw [List.head?_append_of_ne_nil _ (fun he => hne (List.reverse_eq_nil_iff.mp he)), List.head?_reverse]
    exact hlast
  rw [stripBy, List.append_assoc, dropWhile_append_self hhead', List.reverse_append, List.reverse_append,
    List.append_assoc, dropWhile_append_self hlast', List.reverse_append, List.reverse_append, List.reverse_reverse,
    List.reverse_reverse]
  exact ⟨a.dropWhile p, (b.reverse.dropWhile p).reverse, rfl⟩

end

def orElse (a : Option String) (b : String) : String :=
  match a with
  | none => b
  | some s => if s = "" then b else s

@[simp] lemma orElse_none (b : String) : orElse none b = b := rfl

lemma orElse_some {s : String} (h : s ≠ "") (b : String) : orElse (some s) b = s := by
  simp [orElse, h]

/-- `s.replace(sub, "")` of a text that is not empty, past the characters still to be skipped -/
def without (sub : List Char) : ℕ → List Char → List Char
  | _, [] => []
  | skip + 1, _ :: cs => without sub skip cs
  | 0, c :: cs => if sub.isPrefixOf (c :: cs) then without sub (sub.length - 1) cs else c :: without sub 0 cs

def replaced (sub new : List Char) : ℕ → List Char → List Char
  | _, [] => []
  | skip + 1, _ :: cs => replaced sub new skip cs
  | 0, c :: cs =>
    if sub.isPrefixOf (c :: cs) then new ++ replaced sub new (sub.length - 1) cs else c :: replaced sub new 0 cs

lemma mem_replaced {sub new cs : List Char} {skip : ℕ} {c : Char} (h : c ∈ replaced sub new skip cs) :
    c ∈ cs ∨ c ∈ new := by
  fun_induction replaced sub new skip cs with
  | case1 => exact .inl h
  | case2 skip d cs ih => exact (ih h).imp_left (List.mem_cons_of_mem d)
  | case3 d cs hsub ih =>
    rcases List.mem_append.mp h with h | h
    · exact .inr h
    · exact (ih h).imp_left (List.mem_cons_of_mem d)
  | case4 d cs hsub ih =>
    rcases List.mem_cons.mp h with rfl | h
    · exact .inl List.mem_cons_self
    · exact (ih h).imp_left (List.mem_cons_of_mem d)

lemma replaced_self {sub new cs : List Char} (h : ∀ t, t <:+ cs → sub.isPrefixOf t = false) :
    replaced sub new 0 cs = cs := by
  induction cs with
  | nil => rfl
  | cons c cs ih =>
    have hc := h (c :: cs) (List.suffix_refl _)
    rw [replaced, if_neg (by simp [hc]), ih (fun t ht => h t (ht.trans (List.suffix_cons c cs)))]

def contains (sub s : String) : Bool := sub.toList <:+: s.toList

/-- `s.split(sep)` past the characters of a separator still to be skipped -/
def parts (sep : List Char) : ℕ → List Char → List Char → List String
  | _, part, [] => [String.ofList part.reverse]
  | skip + 1, part, _ :: cs => parts sep skip part cs
  | 0, part, c :: cs =>
    if sep.isPrefixOf (c :: cs) then String.ofList part.reverse :: parts sep (sep.length - 1) [] cs
    else parts sep 0 (c :: part) cs

def split (sep s : String) : List String := parts sep.toList 0 [] s.toList

def hexDigit (c : Char) : Option ℕ :=
  if '0' ≤ c ∧ c ≤ '9' then some (c.toNat - '0'.toNat)
  else if 'a' ≤ c ∧ c ≤ 'f' then some (c.toNat - 'a'.toNat + 10)
  else if 'A' ≤ c ∧ c ≤ 'F' then some (c.toNat - 'A'.toNat + 10)
  else none

def hexDigits (n : ℕ) : Bool → List Char → Option ℕ
  | afterDigit, [] => if afterDigit then some n else none
  | afterDigit, c :: cs =>
    if c = '_' then if afterDigit then hexDigits n false cs else none
    else (hexDigit c).bind (fun d => hexDigits (16 * n + d) true cs)

def dropHexMark : List Char → List Char
  | '0' :: x :: cs => if x = 'x' ∨ x = 'X' then if cs.head? = some '_' then cs.tail else cs else '0' :: x :: cs
  | cs => cs

/-- `int(s, 16)` where the digits are ASCII -/
def hexInt (s : String) : Option ℤ :=
  match (strip s).toList with
  | '-' :: cs => (hexDigits 0 false (dropHexMark cs)).map (fun n => -(n : ℤ))
  | '+' :: cs => (hexDigits 0 false (dropHexMark cs)).map (fun n => (n : ℤ))
  | cs => (hexDigits 0 false (dropHexMark cs)).map (fun n => (n : ℤ))

end TheCargo.Foundation
