import TheCargo.Foundation.PyString
import TheCargo.Foundation.Numeral

namespace TheCargo.Foundation

namespace Markup

def entity (c : Char) : List Char :=
  match c with
  | '&' => "&amp;".toList
  | '<' => "&lt;".toList
  | '>' => "&gt;".toList
  | '"' => "&quot;".toList
  | '\'' => "&#x27;".toList
  | c => [c]

/-- `html.escape(s)` -/
def escape (s : String) : String := String.ofList (s.toList.flatMap entity)

def isAngle (c : Char) : Bool := c = '<' || c = '>'

def Plain (s : String) : Prop := ∀ c ∈ s.toList, isAngle c = false

def angles (s : String) : ℕ := s.toList.countP isAngle

variable {s t : String}

lemma plain_iff : Plain s ↔ angles s = 0 := by
  rw [angles, List.countP_eq_zero, Plain]
  simp

@[simp] lemma angles_append (s t : String) : angles (s ++ t) = angles s + angles t := by
  rw [angles, String.toList_append, List.countP_append]
  rfl

lemma plain_append : Plain (s ++ t) ↔ Plain s ∧ Plain t := by
  rw [plain_iff, plain_iff, plain_iff, angles_append, Nat.add_eq_zero_iff]

lemma plain_of_subset (h : ∀ c ∈ t.toList, c ∈ s.toList) (hs : Plain s) : Plain t := fun c hc => hs c (h c hc)

lemma plain_entity (c : Char) : ∀ d ∈ entity c, isAngle d = false := by
  unfold entity
  split
  iterate 5
    · exact forall_of_all (by decide)
  · next hlt hgt _ _ =>
    intro d hd
    rw [List.mem_singleton.mp hd, isAngle]
    simpa using And.intro hlt hgt

lemma plain_escape (s : String) : Plain (escape s) := by
  intro c hc
  rw [escape, String.toList_ofList] at hc
  obtain ⟨d, -, hd⟩ := List.mem_flatMap.mp hc
  exact plain_entity d c hd

lemma plain_intercalate {sep : String} (hsep : Plain sep) {parts : List String} (h : ∀ part ∈ parts, Plain part) :
    Plain (sep.intercalate parts) := by
  induction parts with
  | nil => exact fun c hc => absurd hc List.not_mem_nil
  | cons part parts ih =>
    obtain ⟨hpart, hparts⟩ := List.forall_mem_cons.mp h
    cases parts with
    | nil => rwa [String.intercalate_singleton]
    | cons next parts =>
      rw [String.intercalate_cons_cons, plain_append, plain_append]
      exact ⟨⟨hpart, hsep⟩, ih hparts⟩

lemma plain_toString (n : ℕ) : Plain (toString n) := by
  intro c hc
  have hdigits : (toString n).toList = Nat.toDigits 10 n := String.toList_ofList
  rw [hdigits] at hc
  have hdigit := Numeral.isDigit_toDigits n c hc
  rw [isAngle, Bool.or_eq_false_iff, decide_eq_false_iff_not, decide_eq_false_iff_not]
  constructor <;>
  · rintro rfl
    exact absurd hdigit (by decide)

end Markup

end TheCargo.Foundation
