import Mathlib.Data.List.Chain
import TheCargo.Foundation.Ascii
import TheCargo.Foundation.PyString
import TheCargo.Foundation.Squeeze

namespace TheCargo.Dependencies

open Foundation

def isKept (c : Char) : Bool := c.isAlphanum || c = '.' || c = '_' || c = '-'

def underscored (s : List Char) : List Char := squeeze (fun c => !isKept c) 1 ['_'] [] s

def cleaned (raw : String) : List Char :=
  (replaced ['.', '.'] ['_'] 0 (underscored raw.toList)).dropWhile (fun c => c = '.')

def safeFilename (name : Option String) : String :=
  let s := cleaned (strip (orElse name "file"))
  String.ofList ((if s = [] then "file".toList else s).take 255)

def Apart (s : List Char) : Prop := s.IsChain (fun a b => ¬ (a = '.' ∧ b = '.'))

structure SafeName (s : String) : Prop where
  nonempty : s.toList ≠ []
  length : s.toList.length ≤ 255
  kept : ∀ c ∈ s.toList, isKept c = true
  noDot : s.toList.head? ≠ some '.'
  apart : Apart s.toList

variable {s : List Char} {c : Char}

lemma kept_underscored (s : List Char) : ∀ c ∈ underscored s, isKept c = true := by
  intro c hc
  simpa using squeeze_clears (p := fun c => !isKept c) (forall_of_all (by decide)) [] s c hc

lemma underscored_self (h : ∀ c ∈ s, isKept c = true) : underscored s = s := by
  have hshort : Short (fun c => !isKept c) 1 0 s := by
    induction s with
    | nil => trivial
    | cons c s ih =>
      obtain ⟨hc, hs⟩ := List.forall_mem_cons.mp h
      rw [Short, if_neg (by simp [hc])]
      exact ih hs
  rw [underscored, squeeze_of_short (by decide) hshort, List.nil_append]

lemma head_replaced (h : (replaced ['.', '.'] ['_'] 0 s).head? = some '.') : s.head? = some '.' := by
  cases s with
  | nil => exact h
  | cons c s =>
    rw [replaced] at h
    split at h
    · cases h
    · exact h

lemma apart_replaced (skip : ℕ) (s : List Char) : Apart (replaced ['.', '.'] ['_'] skip s) := by
  fun_induction replaced ['.', '.'] ['_'] skip s with
  | case1 => exact .nil
  | case2 skip c s ih => exact ih
  | case3 c s hsub ih => exact List.isChain_cons.mpr ⟨fun d _ hd => absurd hd.1 (by decide), ih⟩
  | case4 c s hsub ih =>
    -- A dot that is left has no dot behind it: there the two would have been replaced.
    refine List.isChain_cons.mpr ⟨?_, ih⟩
    rintro d hd ⟨rfl, rfl⟩
    have hhead := head_replaced hd
    cases s with
    | nil => cases hhead
    | cons d s =>
      obtain rfl := Option.some.inj hhead
      exact hsub rfl

lemma kept_not_space (h : isKept c = true) : isSpace c = false := by
  simp only [isKept, Bool.or_eq_true, decide_eq_true_eq] at h
  rcases h with ((halnum | rfl) | rfl) | rfl
  · rw [isAlphanum_iff, isAlpha_iff, isUpper_iff, isLower_iff, isDigit_iff] at halnum
    simp only [isSpace, Bool.or_eq_false_iff, Bool.and_eq_false_iff, decide_eq_false_iff_not, beq_eq_false_iff_ne]
    omega
  all_goals decide

lemma replaced_apart (h : Apart s) : replaced ['.', '.'] ['_'] 0 s = s := by
  apply replaced_self
  intro t ht
  by_contra hpair
  obtain ⟨rest, rfl⟩ := List.isPrefixOf_iff_prefix.mp (eq_true_of_ne_false hpair)
  have hchain := List.IsChain.suffix h ht
  exact (List.isChain_cons.mp hchain).1 '.' rfl ⟨rfl, rfl⟩

structure Clean (s : List Char) : Prop where
  kept : ∀ c ∈ s, isKept c = true
  noDot : s.head? ≠ some '.'
  apart : Apart s

lemma clean_cleaned (raw : String) : Clean (cleaned raw) := by
  refine ⟨?_, ?_, ?_⟩
  · intro c hc
    rcases mem_replaced ((List.dropWhile_suffix _).subset hc) with hc | hc
    · exact kept_underscored _ c hc
    · rw [List.mem_singleton.mp hc]
      decide
  · intro hhead
    have hnot := List.head?_dropWhile_not (fun c => decide (c = '.'))
      (replaced ['.', '.'] ['_'] 0 (underscored raw.toList))
    rw [cleaned] at hhead
    rw [hhead] at hnot
    exact absurd hnot (by decide)
  · exact (apart_replaced 0 _).suffix (List.dropWhile_suffix _)

lemma Clean.take (h : Clean s) (n : ℕ) : Clean (s.take n) := by
  refine ⟨fun c hc => h.kept c (List.mem_of_mem_take hc), ?_, h.apart.prefix (List.take_prefix n s)⟩
  rw [List.head?_take]
  split
  · exact fun hnone => nomatch hnone
  · exact h.noDot

lemma cleaned_self (h : Clean s) : cleaned (String.ofList s) = s := by
  rw [cleaned, String.toList_ofList, underscored_self h.kept, replaced_apart h.apart]
  apply dropWhile_self
  intro c hc
  have hne : c ≠ '.' := fun heq => h.noDot (heq ▸ hc)
  simpa using hne

lemma safeFilename_safe (name : Option String) : SafeName (safeFilename name) := by
  rw [safeFilename]
  have hfile : Clean "file".toList := ⟨forall_of_all (by decide), by decide, by rw [Apart]; decide⟩
  generalize hs : cleaned (strip (orElse name "file")) = s
  have hclean : Clean (if s = [] then "file".toList else s) := by
    split
    · exact hfile
    · exact hs ▸ clean_cleaned _
  have hne : (if s = [] then "file".toList else s) ≠ [] := by
    split
    · decide
    · next h => exact h
  generalize (if s = [] then "file".toList else s) = w at hclean hne
  have htake := hclean.take 255
  refine ⟨?_, ?_, ?_, ?_, ?_⟩ <;> rw [String.toList_ofList]
  · simpa using hne
  · exact List.length_take_le 255 w
  · exact htake.kept
  · exact htake.noDot
  · exact htake.apart

lemma safeFilename_self {s : String} (h : SafeName s) : safeFilename (some s) = s := by
  have hempty : s ≠ "" := fun heq => h.nonempty (heq ▸ rfl)
  have hstrip : strip s = s := by
    have hsolid := strip_solid (w := s.toList) (fun c hc => kept_not_space (h.kept c hc))
    rwa [String.ofList_toList] at hsolid
  have hcleaned := cleaned_self ⟨h.kept, h.noDot, h.apart⟩
  rw [String.ofList_toList] at hcleaned
  rw [safeFilename, orElse_some hempty, hstrip, hcleaned]
  rw [if_neg h.nonempty, List.take_of_length_le h.length, String.ofList_toList]

theorem safeFilename_safe_idempotent (name : Option String) :
    SafeName (safeFilename name) ∧ safeFilename (some (safeFilename name)) = safeFilename name :=
  ⟨safeFilename_safe name, safeFilename_self (safeFilename_safe name)⟩

end TheCargo.Dependencies
