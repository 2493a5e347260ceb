import TheCargo.Foundation.Ascii
import TheCargo.Foundation.PyString

/-! `str.lower`, which looks at what stands around a character and may make several of one, and the places of a text in
its lower case. -/

namespace TheCargo.Foundation

/-- What Python knows of characters: `str.lower`, `unicodedata.decimal`, and the word characters of `re`. -/
structure Characters where
  lowerAt : List Char → Char → List Char → List Char
  decimal : Char → Option ℕ
  isWord : Char → Bool
  lowerAt_ascii : ∀ before c after, c.toNat < 128 → lowerAt before c after = [c.toLower]
  lowerAt_caseless : ∀ before c after d, lowerAt before c after = [d] →
    isSpace d = true ∨ (decimal d).isSome ∨ d = ':' → c = d
  decimal_ascii : ∀ c : Char, c.toNat < 128 → decimal c = if c.isDigit then some (c.toNat - 48) else none

namespace Characters

variable (chars : Characters)

def lowerIn : List Char → List Char → List Char → List Char
  | _, [], _ => []
  | before, c :: s, after => chars.lowerAt before c (s ++ after) ++ lowerIn (before ++ [c]) s after

def lower (s : List Char) : List Char := chars.lowerIn [] s []

def lowerString (s : String) : String := String.ofList (chars.lower s.toList)

def isDecimal (c : Char) : Bool := (chars.decimal c).isSome

def steady (before : List Char) : List Char → ℕ
  | [] => 0
  | c :: s => if (chars.lowerAt before c s).length = 1 then steady (before ++ [c]) s + 1 else 0

def origin (before : List Char) : List Char → ℕ → ℕ
  | [], _ => 0
  | c :: s, k =>
    if 0 < k ∧ (chars.lowerAt before c s).length ≤ k then
      origin (before ++ [c]) s (k - (chars.lowerAt before c s).length) + 1
    else 0

variable {chars} {before s after u v : List Char}

lemma origin_of_le_steady {k : ℕ} (h : k ≤ chars.steady before s) : chars.origin before s k = k := by
  induction s generalizing before k with
  | nil => exact (Nat.le_zero.mp h).symm
  | cons c s ih =>
    rw [steady] at h
    rw [origin]
    rcases Nat.eq_zero_or_pos k with rfl | hk
    · rw [if_neg (fun hpos => absurd hpos.1 (Nat.lt_irrefl 0))]
    · split at h
      · next hone =>
        rw [if_pos ⟨hk, by omega⟩, hone, ih (by omega)]
        omega
      · omega

lemma split_lower (h : chars.lowerIn before s [] = u ++ v) (hu : u.length ≤ chars.steady before s) :
    ∃ a b, s = a ++ b ∧ a.length = u.length ∧ chars.lowerIn before a b = u ∧ chars.lowerIn (before ++ a) b [] = v ∧
      chars.steady before s = a.length + chars.steady (before ++ a) b := by
  induction u generalizing before s with
  | nil => exact ⟨[], s, rfl, rfl, rfl, by rwa [List.append_nil],
      by rw [List.append_nil, List.length_nil, Nat.zero_add]⟩
  | cons d u ih =>
    cases s with
    | nil => exact absurd hu (by simp [steady])
    | cons c s =>
      rw [steady] at hu ⊢
      split at hu
      · next hone =>
        obtain ⟨e, he⟩ := List.length_eq_one_iff.mp hone
        rw [lowerIn, List.append_nil, he, List.cons_append, List.cons_append, List.nil_append] at h
        obtain ⟨rfl, htail⟩ := List.cons.inj h
        rw [List.length_cons] at hu
        obtain ⟨a, b, rfl, hlength, hlower, hrest, hsteady⟩ := ih htail (by omega)
        refine ⟨c :: a, b, rfl, ?_, ?_, ?_, ?_⟩
        · rw [List.length_cons, List.length_cons, hlength]
        · rw [lowerIn, he, hlower]
          rfl
        · rwa [List.append_cons]
        · rw [if_pos hone, hsteady, List.append_cons before c a, List.length_cons]
          omega
      · rw [List.length_cons] at hu
        omega

lemma eq_of_lowerIn_caseless {a b : List Char} (h : chars.lowerIn before a b = u) (hlength : a.length = u.length)
    (hsteady : a.length ≤ chars.steady before (a ++ b))
    (hu : ∀ d ∈ u, isSpace d = true ∨ chars.isDecimal d = true ∨ d = ':') : a = u := by
  induction a generalizing before u with
  | nil => exact (List.length_eq_zero_iff.mp hlength.symm).symm
  | cons c a ih =>
    rw [List.cons_append, steady] at hsteady
    split at hsteady
    · next hone =>
      obtain ⟨e, he⟩ := List.length_eq_one_iff.mp hone
      rw [lowerIn, he, List.cons_append, List.nil_append] at h
      subst h
      obtain ⟨hhead, hrest⟩ := List.forall_mem_cons.mp hu
      rw [List.length_cons, List.length_cons] at hlength
      rw [List.length_cons] at hsteady
      exact congrArg₂ List.cons (chars.lowerAt_caseless before c (a ++ b) e he hhead)
        (ih rfl (by omega) (by omega) hrest)
    · rw [List.length_cons] at hsteady
      omega

section Ascii

lemma lowerIn_ascii (h : ∀ c ∈ s, c.toNat < 128) : chars.lowerIn before s after = s.map Char.toLower := by
  induction s generalizing before with
  | nil => rfl
  | cons c s ih =>
    obtain ⟨hc, hs⟩ := List.forall_mem_cons.mp h
    rw [lowerIn, chars.lowerAt_ascii _ _ _ hc, ih hs]
    rfl

end Ascii

section Dotted

lemma toLower_of_ge {c : Char} (h : 128 ≤ c.toNat) : c.toLower = c := by
  apply toLower_of_not_upper
  rw [isUpper_iff]
  omega

lemma eq_of_toLower_caseless {c : Char} (h : isSpace c.toLower = true ∨ c.toLower.isDigit = true ∨ c.toLower = ':') :
    c.toLower = c := by
  rcases Nat.lt_or_ge c.toNat 128 with hlt | hge
  · have hall : ∀ n < 128, isSpace (Char.ofNat n).toLower = true ∨ (Char.ofNat n).toLower.isDigit = true ∨
        (Char.ofNat n).toLower = ':' → (Char.ofNat n).toLower = Char.ofNat n := by decide +kernel
    rw [← Char.ofNat_toNat c]
    rw [← Char.ofNat_toNat c] at h
    exact hall c.toNat hlt h
  · exact toLower_of_ge hge

def dotted : Characters where
  lowerAt _ c _ := if c = 'İ' then ['i', '\u0307'] else [c.toLower]
  decimal c := if c.isDigit then some (c.toNat - 48) else none
  isWord c := c.isAlphanum || c == '_'
  lowerAt_ascii _ c _ h := by
    rw [if_neg]
    rintro rfl
    exact absurd h (by decide)
  lowerAt_caseless _ c _ d h hd := by
    split at h
    · exact absurd (congrArg List.length h) (by simp)
    · obtain rfl := List.singleton_inj.mp h
      rw [Option.isSome_ite] at hd
      exact (eq_of_toLower_caseless hd).symm
  decimal_ascii _ _ := rfl

end Dotted

end Characters

end TheCargo.Foundation
