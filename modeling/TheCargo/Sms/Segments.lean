import Mathlib.Algebra.Order.Floor.Div
import TheCargo.Foundation.Packing

namespace TheCargo.Sms

open Foundation

def gsm7Basic : List Char :=
  ("@£$¥èéùìòÇ\nØø\rÅå" ++ "Δ_ΦΓΛΩΠΨΣΘΞ ÆæßÉ" ++ " !\"#¤%&'()*+,-./0123456789:;<=>?¡" ++
    "ABCDEFGHIJKLMNOPQRSTUVWXYZÄÖÑÜ§¿" ++ "abcdefghijklmnopqrstuvwxyzäöñüà").toList

def gsm7Extended : List Char := ['^', '\x7b', '\x7d', '\\', '[', '~', ']', '|', '€']

def gsmSingle : ℕ := 160
def gsmMulti : ℕ := 153
def ucs2Single : ℕ := 70
def ucs2Multi : ℕ := 67

structure SmsSegments where
  encoding : String
  segments : ℕ
  length : ℕ
  deriving DecidableEq, Repr

structure Coding where
  encoding : String
  limit : ℕ
  concat : ℕ
  units : Char → ℕ

def Coding.gsm7 : Coding := ⟨"GSM-7", gsmSingle, gsmMulti, fun ch => if gsm7Extended.contains ch then 2 else 1⟩

def Coding.ucs2 : Coding := ⟨"UCS-2", ucs2Single, ucs2Multi, fun ch => if ch.toNat > 0xFFFF then 2 else 1⟩

def coding (text : String) : Coding :=
  if text.toList.all (fun ch => gsm7Basic.contains ch || gsm7Extended.contains ch) then Coding.gsm7 else Coding.ucs2

def length (text : String) : ℕ := Packing.total (coding text).units text.toList

def analyzeSmsSegments (text : Option String) : SmsSegments :=
  match text with
  | none => ⟨"GSM-7", 0, 0⟩
  | some text =>
    if text = "" then ⟨"GSM-7", 0, 0⟩
    else
      let c := coding text
      ⟨c.encoding, if length text ≤ c.limit then 1 else length text ⌈/⌉ c.concat, length text⟩

def countSegments (text : Option String) : ℕ := (analyzeSmsSegments text).segments

def Needs (text : String) (n : ℕ) : Prop :=
  let c := coding text
  if length text ≤ c.limit then n = 1
  else IsLeast {k | ∃ parts, Packing.Packs c.units c.concat text.toList parts ∧ parts.length = k} n

def Absorbs (text : String) : Prop :=
  let c := coding text
  length text ≤ c.limit ∨ Packing.lost c.units c.concat 0 text.toList ≤ (c.concat - length text % c.concat) % c.concat

lemma coding_cases (text : String) : coding text = Coding.gsm7 ∨ coding text = Coding.ucs2 := by
  rw [coding]
  split
  · exact .inl rfl
  · exact .inr rfl

lemma units_pos (text : String) (ch : Char) : 0 < (coding text).units ch := by
  rcases coding_cases text with h | h <;>
  · rw [h]
    simp only [Coding.gsm7, Coding.ucs2]
    split <;> decide

lemma units_le (text : String) (ch : Char) : (coding text).units ch ≤ (coding text).concat := by
  rcases coding_cases text with h | h <;>
  · rw [h]
    simp only [Coding.gsm7, Coding.ucs2]
    split <;> decide

lemma concat_pos (text : String) : 0 < (coding text).concat :=
  (units_pos text 'a').trans_le (units_le text 'a')

lemma toList_ne_nil {text : String} (h : text ≠ "") : text.toList ≠ [] :=
  fun hnil => h (String.toList_inj.mp hnil)

lemma needs_opened {text : String} (h : text ≠ "") (hlong : ¬ length text ≤ (coding text).limit) {n : ℕ} :
    Needs text n ↔ n = Packing.opened (coding text).units (coding text).concat 0 text.toList + 1 := by
  have hleast := Packing.isLeast_opened (units_le text) (toList_ne_nil h)
  simp only [Needs, if_neg hlong]
  exact ⟨fun hn => hn.unique hleast, fun hn => hn ▸ hleast⟩

lemma ceilDiv_eq {total cap : ℕ} (hcap : 0 < cap) :
    total ⌈/⌉ cap = if total % cap = 0 then total / cap else total / cap + 1 := by
  have hmod := Nat.div_add_mod total cap
  have hlt := Nat.mod_lt total hcap
  rw [Nat.ceilDiv_eq_add_pred_div]
  split
  · rename_i hzero
    exact Nat.div_eq_of_lt_le (by rw [Nat.mul_comm]; omega) (by rw [Nat.add_mul, Nat.mul_comm]; omega)
  · exact Nat.div_eq_of_lt_le (by rw [Nat.add_mul, Nat.mul_comm]; omega)
      (by rw [Nat.add_mul, Nat.add_mul, Nat.mul_comm]; omega)

lemma le_free_iff {cap total lost : ℕ} (hcap : 0 < cap) :
    lost ≤ (cap - total % cap) % cap ↔ total + lost ≤ cap * (total ⌈/⌉ cap) := by
  have hmod := Nat.div_add_mod total cap
  have hlt := Nat.mod_lt total hcap
  rw [ceilDiv_eq hcap]
  split
  · rename_i hzero
    rw [hzero, Nat.sub_zero, Nat.mod_self]
    omega
  · rename_i hrest
    rw [Nat.mod_eq_of_lt (by omega), Nat.mul_succ]
    omega

lemma countSegments_long {text : String} (h : text ≠ "") (hlong : ¬ length text ≤ (coding text).limit) :
    countSegments (some text) = length text ⌈/⌉ (coding text).concat := by
  simp only [countSegments, analyzeSmsSegments, if_neg h, if_neg hlong]

theorem countSegments_needs_iff (text : String) (h : text ≠ "") :
    Needs text (countSegments (some text)) ↔ Absorbs text := by
  by_cases hlong : length text ≤ (coding text).limit
  · simp only [Needs, Absorbs, countSegments, analyzeSmsSegments, if_neg h, hlong, if_true, true_or]
  · have hcap := concat_pos text
    have hlt := Packing.opened_lt_iff (units_pos text) (units_le text) (toList_ne_nil h)
    have hle : length text ⌈/⌉ (coding text).concat ≤
        Packing.opened (coding text).units (coding text).concat 0 text.toList + 1 := by
      rw [ceilDiv_le_iff_le_mul hcap]
      exact (Nat.le_add_right _ _).trans ((hlt _).mp (Nat.le_refl _))
    simp only [needs_opened h hlong, countSegments_long h hlong, Absorbs, hlong, false_or]
    rw [le_free_iff hcap, length, ← hlt]
    exact ⟨fun he => he.ge, fun hge => Nat.le_antisymm hle hge⟩

def twoParts : String := String.ofList (List.replicate 160 'a' ++ ['^'])

theorem countSegments_needs_two_parts : countSegments (some twoParts) = 2 ∧
    (Needs twoParts (countSegments (some twoParts)) ↔ Absorbs twoParts) :=
  ⟨by decide +kernel, countSegments_needs_iff twoParts (by decide +kernel)⟩

def boundary : String := String.ofList (List.replicate 152 'a' ++ '^' :: List.replicate 152 'a')

lemma toList_boundary :
    boundary.toList = List.replicate 152 'a' ++ '^' :: List.replicate 152 'a' := String.toList_ofList

lemma coding_boundary : coding boundary = Coding.gsm7 := by
  rw [coding, toList_boundary, List.all_append, List.all_cons, List.all_replicate]
  exact if_pos (by decide +kernel)

lemma length_boundary : length boundary = 306 := by
  rw [length, coding_boundary, toList_boundary]
  decide +kernel

theorem countSegments_boundary :
    countSegments (some boundary) = 2 ∧ ¬ Needs boundary (countSegments (some boundary)) := by
  have hne : boundary ≠ "" := by
    intro h
    have hlength := congrArg length h
    rw [length_boundary] at hlength
    exact absurd hlength (by decide +kernel)
  have hlong : ¬ length boundary ≤ (coding boundary).limit := by
    rw [length_boundary, coding_boundary]
    decide
  have hcount : countSegments (some boundary) = 2 := by
    rw [countSegments_long hne hlong, length_boundary, coding_boundary]
    decide +kernel
  refine ⟨hcount, ?_⟩
  rw [needs_opened hne hlong, hcount, coding_boundary, toList_boundary]
  decide +kernel

end TheCargo.Sms
