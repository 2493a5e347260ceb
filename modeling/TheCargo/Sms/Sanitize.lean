import Mathlib.Data.List.Chain
import TheCargo.Foundation.PyString
import TheCargo.Foundation.Squeeze

namespace TheCargo.Sms

open Foundation

def zeroWidthCps : List ℕ := [0x200B, 0x200C, 0x200D, 0x2060, 0xFEFF, 0x00AD, 0x180E]

def punct (ch : Char) : Option (List Char) :=
  match ch.toNat with
  | 0x2018 => some ['\'']
  | 0x2019 => some ['\'']
  | 0x201A => some ['\'']
  | 0x201B => some ['\'']
  | 0x201C => some ['"']
  | 0x201D => some ['"']
  | 0x201E => some ['"']
  | 0x2013 => some ['-']
  | 0x2014 => some ['-']
  | 0x2015 => some ['-']
  | 0x2212 => some ['-']
  | 0x2026 => some ['.', '.', '.']
  | 0x00A0 => some [' ']
  | 0x202F => some [' ']
  | 0x2009 => some [' ']
  | 0x200A => some [' ']
  | 0x2007 => some [' ']
  | _ => none

def keepChar (cp : ℕ) : Bool :=
  if zeroWidthCps.contains cp then false
  else if cp < 0x20 && !(cp == 0x09 || cp == 0x0A || cp == 0x0D) then false
  else !(0x7F ≤ cp && cp ≤ 0x9F)

def Plain (ch : Char) : Prop := punct ch = none ∧ keepChar ch.toNat = true

def plainText (s : List Char) : List Char :=
  s.flatMap (fun ch => (punct ch).getD (if keepChar ch.toNat then [ch] else []))

def isBlank (ch : Char) : Bool := ch == ' ' || ch == '\t'

def isNewline (ch : Char) : Bool := ch == '\n'

/-- `_MULTISPACE`, `_MULTINEWLINE` and `strip` -/
def tidy (s : List Char) : List Char :=
  stripBy isSpace (squeeze isNewline 3 ['\n', '\n'] [] (squeeze isBlank 2 [' '] [] s))

/-- What is assumed of `unicodedata.normalize("NFKC", …)`: parts of a normalized text are normalized, ASCII is, blanks
keep what stands around them apart, and characters that are sent as they are compose to such characters. -/
structure Nfkc where
  normalize : List Char → List Char
  idem : ∀ s, normalize (normalize s) = normalize s
  part : ∀ a b c, normalize (a ++ (b ++ c)) = a ++ (b ++ c) → normalize b = b
  ascii : ∀ c : Char, c.toNat < 128 → normalize [c] = [c]
  apart : ∀ a b c, isSpace c = true → normalize [c] = [c] → normalize (a ++ c :: b) = normalize a ++ c :: normalize b
  plain : ∀ s, (∀ c ∈ s, normalize [c] = [c] ∧ Plain c) → ∀ c ∈ normalize s, Plain c

variable (nfkc : Nfkc)

def sanitizeSmsText (text : Option String) : String :=
  match text with
  | none => ""
  | some text => if text = "" then "" else String.ofList (tidy (plainText (nfkc.normalize text.toList)))

def Normal (s : List Char) : Prop := nfkc.normalize s = s

def StaysNormal (text : Option String) : Prop := ∀ t, text = some t → Normal nfkc (plainText (nfkc.normalize t.toList))

variable {nfkc} {s a b w run : List Char} {c : Char}

lemma normal_nil : Normal nfkc [] := by
  refine nfkc.part (nfkc.normalize []) [] [] ?_
  rw [List.append_nil, List.append_nil, nfkc.idem]

lemma Normal.mem (h : Normal nfkc s) (hc : c ∈ s) : Normal nfkc [c] := by
  obtain ⟨a, b, rfl⟩ := List.append_of_mem hc
  exact nfkc.part a [c] b h

lemma normal_normalize (s : List Char) : Normal nfkc (nfkc.normalize s) := nfkc.idem s

def Separates (nfkc : Nfkc) (c : Char) : Prop := isSpace c = true ∧ Normal nfkc [c]

lemma normal_apart (hc : Separates nfkc c) : Normal nfkc (a ++ c :: b) ↔ Normal nfkc a ∧ Normal nfkc b := by
  constructor
  · intro h
    have hright : Normal nfkc (a ++ [c] ++ (b ++ [])) := by rwa [List.append_nil, List.append_assoc]
    exact ⟨nfkc.part [] a (c :: b) h, nfkc.part (a ++ [c]) b [] hright⟩
  · rintro ⟨ha, hb⟩
    rw [Normal, nfkc.apart a b c hc.1 hc.2, ha, hb]

lemma normal_blanks (hw : ∀ c ∈ w, Separates nfkc c) (hne : w ≠ []) :
    Normal nfkc (a ++ (w ++ b)) ↔ Normal nfkc a ∧ Normal nfkc b := by
  induction w generalizing a with
  | nil => exact absurd rfl hne
  | cons c w ih =>
    obtain ⟨hc, hw⟩ := List.forall_mem_cons.mp hw
    rw [List.cons_append, normal_apart hc]
    cases w with
    | nil => rfl
    | cons d w =>
      have hrest := ih (a := []) hw (List.cons_ne_nil d w)
      rw [List.nil_append] at hrest
      rw [hrest, and_iff_right normal_nil]

lemma normal_right (hw : ∀ c ∈ w, Separates nfkc c) : Normal nfkc (a ++ w) ↔ Normal nfkc a := by
  by_cases hne : w = []
  · rw [hne, List.append_nil]
  · have hblanks := normal_blanks (a := a) (b := []) hw hne
    rwa [List.append_nil, and_iff_left normal_nil] at hblanks

lemma normal_squeeze {p : Char → Bool} {n : ℕ} {r : List Char} (hr : ∀ c ∈ r, Separates nfkc c) (hne : r ≠ [])
    (hn : 0 < n) (hs : ∀ c ∈ run ++ s, p c = true → Separates nfkc c) (hrun : ∀ c ∈ run, p c = true) :
    Normal nfkc (a ++ squeeze p n r run s) ↔ Normal nfkc (a ++ (run ++ s)) := by
  have hflush : ∀ v, (∀ c ∈ v, Separates nfkc c) → ∀ c ∈ squeezeRun n r v, Separates nfkc c := by
    intro v hv
    rw [squeezeRun]
    split
    · exact hr
    · exact hv
  induction s generalizing a run with
  | nil =>
    have hblank : ∀ c ∈ run, Separates nfkc c := fun c hc => hs c (List.mem_append_left _ hc) (hrun c hc)
    rw [squeeze, List.append_nil, normal_right (hflush _ hblank), normal_right hblank]
  | cons c s ih =>
    rw [squeeze]
    split
    · rename_i hc
      have hrun' : ∀ d ∈ run ++ [c], p d = true :=
        List.forall_mem_append.mpr ⟨hrun, List.forall_mem_singleton.mpr hc⟩
      have hstep := ih (a := a) (by rwa [List.append_assoc]) hrun'
      rwa [List.append_assoc run] at hstep
    · have hblank : ∀ c ∈ run, Separates nfkc c := fun c hc => hs c (List.mem_append_left _ hc) (hrun c hc)
      have hrest : ∀ a, Normal nfkc (a ++ c :: squeeze p n r [] s) ↔ Normal nfkc (a ++ c :: s) := by
        intro a
        have hstep : Normal nfkc (a ++ [c] ++ squeeze p n r [] s) ↔ Normal nfkc (a ++ [c] ++ ([] ++ s)) :=
          ih (fun d hd => hs d (List.mem_append_right _ (List.mem_cons_of_mem _ hd))) (List.forall_mem_nil _)
        rwa [List.append_assoc, List.append_assoc] at hstep
      cases run with
      | nil =>
        rw [squeezeRun_nil hn]
        exact hrest a
      | cons d run =>
        rw [normal_blanks (hflush _ hblank) (squeezeRun_ne_nil hne (List.cons_ne_nil d run)),
          normal_blanks hblank (List.cons_ne_nil d run)]
        have hrest' := hrest []
        rw [List.nil_append, List.nil_append] at hrest'
        rw [hrest']

lemma normal_between (hl : ∀ c ∈ a, Separates nfkc c) (hr : ∀ c ∈ b, Separates nfkc c) :
    Normal nfkc (a ++ (s ++ b)) ↔ Normal nfkc s := by
  by_cases ha : a = []
  · rw [ha, List.nil_append, normal_right hr]
  · have hblanks := normal_blanks (a := []) (b := s ++ b) hl ha
    rwa [List.nil_append, and_iff_right normal_nil, normal_right hr] at hblanks

lemma isSpace_of_isBlank (h : isBlank c = true) : isSpace c = true := by
  rw [isBlank, Bool.or_eq_true, beq_iff_eq, beq_iff_eq] at h
  rcases h with rfl | rfl <;> decide

lemma isSpace_of_isNewline (h : isNewline c = true) : isSpace c = true := by
  rw [isNewline, beq_iff_eq] at h
  subst h
  decide

lemma mem_tidy (h : c ∈ tidy s) : c ∈ s ∨ c = ' ' ∨ c = '\n' := by
  rw [tidy] at h
  obtain ⟨l, r, -, -, hparts⟩ :=
    stripBy_parts isSpace (squeeze isNewline 3 ['\n', '\n'] [] (squeeze isBlank 2 [' '] [] s))
  have hmem := List.mem_append_right l (List.mem_append_left r h)
  rw [← hparts] at hmem
  rcases mem_squeeze hmem with hs | hn
  · rcases mem_squeeze hs with hs | hb
    · exact .inl hs
    · exact .inr (.inl (List.mem_singleton.mp hb))
  · simp only [List.mem_cons, List.not_mem_nil, or_false, or_self] at hn
    exact .inr (.inr hn)

lemma normal_squeezed {p : Char → Bool} {n : ℕ} {r : List Char} (hr : ∀ c ∈ r, Separates nfkc c) (hne : r ≠ [])
    (hn : 0 < n) (hp : ∀ c, p c = true → isSpace c = true) (hs : ∀ c ∈ s, Normal nfkc [c]) :
    (Normal nfkc (squeeze p n r [] s) ↔ Normal nfkc s) ∧ ∀ c ∈ squeeze p n r [] s, Normal nfkc [c] := by
  constructor
  · have hsqueeze := normal_squeeze (a := []) hr hne hn (fun c hc hpc => ⟨hp c hpc, hs c hc⟩) (List.forall_mem_nil _)
    rwa [List.nil_append, List.nil_append] at hsqueeze
  · intro c hc
    rcases mem_squeeze hc with h | h
    · exact hs c h
    · exact (hr c h).2

lemma normal_strip (hs : ∀ c ∈ s, Normal nfkc [c]) : Normal nfkc (stripBy isSpace s) ↔ Normal nfkc s := by
  obtain ⟨l, r, hl, hr, hparts⟩ := stripBy_parts isSpace s
  generalize stripBy isSpace s = v at hparts ⊢
  subst hparts
  exact (normal_between (fun c hc => ⟨hl c hc, hs c (List.mem_append_left _ hc)⟩)
    (fun c hc => ⟨hr c hc, hs c (List.mem_append_right _ (List.mem_append_right _ hc))⟩)).symm

lemma normal_tidy (hs : ∀ c ∈ s, Normal nfkc [c]) : Normal nfkc (tidy s) ↔ Normal nfkc s := by
  have hspace : ∀ c ∈ [' '], Separates nfkc c := List.forall_mem_singleton.mpr ⟨by decide, nfkc.ascii ' ' (by decide)⟩
  have hnewline : ∀ c ∈ ['\n', '\n'], Separates nfkc c := by
    intro c hc
    have hc' : c = '\n' := by simpa using hc
    rw [hc']
    exact ⟨by decide, nfkc.ascii '\n' (by decide)⟩
  obtain ⟨hblank, hs'⟩ := normal_squeezed (p := isBlank) (n := 2) hspace (List.cons_ne_nil _ _) (by decide)
    (fun c => isSpace_of_isBlank) hs
  obtain ⟨hline, hs''⟩ := normal_squeezed (p := isNewline) (n := 3) hnewline (List.cons_ne_nil _ _) (by decide)
    (fun c => isSpace_of_isNewline) hs'
  rw [tidy, normal_strip hs'', hline, hblank]

lemma tidy_tidy (s : List Char) : tidy (tidy s) = tidy s := by
  have hspace : ∀ c ∈ [' '], isBlank c = true := List.forall_mem_singleton.mpr rfl
  have hnewline : ∀ c ∈ ['\n', '\n'], isNewline c = true := by simp [isNewline]
  have hother : ∀ c, isNewline c = true → isBlank c = false := by
    intro c hc
    rw [isNewline, beq_iff_eq] at hc
    subst hc
    rfl
  have hblank : Short isBlank 2 0 (squeeze isBlank 2 [' '] [] s) :=
    short_squeeze hspace (by decide) (List.forall_mem_nil _) s
  have hblank' : Short isBlank 2 0 (squeeze isNewline 3 ['\n', '\n'] [] (squeeze isBlank 2 [' '] [] s)) :=
    hblank.squeeze (fun c hc => hother c (hnewline c hc)) (List.cons_ne_nil _ _) hother (List.forall_mem_nil _)
  have hlines : Short isNewline 3 0 (squeeze isNewline 3 ['\n', '\n'] [] (squeeze isBlank 2 [' '] [] s)) :=
    short_squeeze hnewline (by decide) (List.forall_mem_nil _) _
  obtain ⟨l, r, -, -, hparts⟩ :=
    stripBy_parts isSpace (squeeze isNewline 3 ['\n', '\n'] [] (squeeze isBlank 2 [' '] [] s))
  rw [hparts] at hblank' hlines
  have hkeep : squeeze isBlank 2 [' '] [] (tidy s) = tidy s :=
    squeeze_of_short (by decide) hblank'.of_append_right.of_append_left
  have hkeep' : squeeze isNewline 3 ['\n', '\n'] [] (tidy s) = tidy s :=
    squeeze_of_short (by decide) hlines.of_append_right.of_append_left
  rw [tidy, hkeep, hkeep']
  exact stripBy_idem _ _

lemma plain_ascii (hc : c ∈ ['\'', '"', '-', '.', ' ', '\n']) : Plain c ∧ c.toNat < 128 := by
  have hall : ∀ c ∈ ['\'', '"', '-', '.', ' ', '\n'], punct c = none ∧ keepChar c.toNat = true ∧ c.toNat < 128 :=
    forall_of_all (by decide)
  exact ⟨⟨(hall c hc).1, (hall c hc).2.1⟩, (hall c hc).2.2⟩

lemma punct_ascii {ch : Char} {r : List Char} (h : punct ch = some r) (hc : c ∈ r) :
    c ∈ ['\'', '"', '-', '.', ' ', '\n'] := by
  unfold punct at h
  split at h <;> first
    | obtain rfl := Option.some.inj h
      exact forall_of_all (by decide) c hc
    | exact absurd h (by simp)

lemma mem_plainText (h : c ∈ plainText s) : Plain c ∧ (c ∈ s ∨ c.toNat < 128) := by
  obtain ⟨ch, hch, hc⟩ := List.mem_flatMap.mp h
  cases hp : punct ch with
  | none =>
    rw [hp, Option.getD_none] at hc
    split at hc
    · rename_i hkeep
      obtain rfl := List.mem_singleton.mp hc
      exact ⟨⟨hp, hkeep⟩, .inl hch⟩
    · exact absurd hc (List.not_mem_nil)
  | some r =>
    rw [hp, Option.getD_some] at hc
    exact ⟨(plain_ascii (punct_ascii hp hc)).1, .inr (plain_ascii (punct_ascii hp hc)).2⟩

lemma plainText_self (h : ∀ c ∈ s, Plain c) : plainText s = s := by
  induction s with
  | nil => rfl
  | cons c s ih =>
    obtain ⟨⟨hpunct, hkeep⟩, hs⟩ := List.forall_mem_cons.mp h
    have hrest : plainText s = s := ih hs
    change (punct c).getD (if keepChar c.toNat then [c] else []) ++ plainText s = c :: s
    rw [hrest, hpunct, Option.getD_none, if_pos hkeep]
    rfl

lemma plain_sent (hc : c ∈ tidy (plainText (nfkc.normalize s))) : Normal nfkc [c] ∧ Plain c := by
  have hend : c = ' ' ∨ c = '\n' → Normal nfkc [c] ∧ Plain c := by
    intro h
    have hascii := plain_ascii (c := c) (by rcases h with rfl | rfl <;> decide)
    exact ⟨nfkc.ascii c hascii.2, hascii.1⟩
  rcases mem_tidy hc with h | h
  · obtain ⟨hplain, hmem | hascii⟩ := mem_plainText h
    · exact ⟨(normal_normalize s).mem hmem, hplain⟩
    · exact ⟨nfkc.ascii c hascii, hplain⟩
  · exact hend h

lemma resent_iff (s : List Char) :
    tidy (plainText (nfkc.normalize (tidy (plainText (nfkc.normalize s))))) = tidy (plainText (nfkc.normalize s)) ↔
      Normal nfkc (plainText (nfkc.normalize s)) := by
  have hsent : ∀ c ∈ plainText (nfkc.normalize s), Normal nfkc [c] := by
    intro c hc
    rcases (mem_plainText hc).2 with h | h
    · exact (normal_normalize s).mem h
    · exact nfkc.ascii c h
  rw [← normal_tidy hsent]
  generalize hout : tidy (plainText (nfkc.normalize s)) = out
  have hplain : ∀ c ∈ out, Normal nfkc [c] ∧ Plain c := fun c hc => plain_sent (hout ▸ hc)
  have hself : plainText (nfkc.normalize out) = nfkc.normalize out := plainText_self (nfkc.plain out hplain)
  rw [hself]
  constructor
  · intro h
    rw [← h]
    exact (normal_tidy (fun c hc => (normal_normalize out).mem hc)).mpr (normal_normalize out)
  · intro h
    rw [h, ← hout, tidy_tidy]

lemma sanitizeSmsText_some (text : String) :
    sanitizeSmsText nfkc (some text) = String.ofList (tidy (plainText (nfkc.normalize text.toList))) := by
  rw [sanitizeSmsText]
  split
  · rename_i hempty
    rw [hempty, String.toList_empty, show nfkc.normalize [] = [] from normal_nil]
    rfl
  · rfl

theorem sanitizeSmsText_twice_iff (nfkc : Nfkc) (text : Option String) :
    sanitizeSmsText nfkc (some (sanitizeSmsText nfkc text)) = sanitizeSmsText nfkc text ↔ StaysNormal nfkc text := by
  cases text with
  | none => exact iff_of_true rfl (fun _ h => absurd h.symm (Option.some_ne_none _))
  | some text =>
    have hstays : StaysNormal nfkc (some text) ↔ Normal nfkc (plainText (nfkc.normalize text.toList)) :=
      ⟨fun h => h text rfl, fun h t ht => Option.some.inj ht ▸ h⟩
    rw [hstays, sanitizeSmsText_some, sanitizeSmsText_some, String.toList_ofList, String.ofList_inj, resent_iff]

/-- NFKC of the texts in which it only composes `e` and an acute accent. -/
def composeAcute : List Char → List Char
  | 'e' :: '\u0301' :: s => 'é' :: composeAcute s
  | c :: s => c :: composeAcute s
  | [] => []

def NoAcute : List Char → Prop := List.IsChain (fun a b => ¬ (a = 'e' ∧ b = '\u0301'))

lemma composeAcute_head (h : (composeAcute s).head? = some '\u0301') : s.head? = some '\u0301' := by
  fun_cases composeAcute s with
  | case1 s => exact absurd (Option.some.inj h) (by decide)
  | case2 c s hne =>
    rw [composeAcute] at h
    · exact h
    · exact hne
  | case3 => exact h

lemma noAcute_composeAcute (s : List Char) : NoAcute (composeAcute s) := by
  fun_induction composeAcute s with
  | case1 s ih => exact List.isChain_cons.mpr ⟨fun b _ h => absurd h.1 (by decide), ih⟩
  | case2 c s hne ih =>
    refine List.isChain_cons.mpr ⟨?_, ih⟩
    rintro b hb ⟨rfl, rfl⟩
    have hhead := composeAcute_head hb
    cases s with
    | nil => exact absurd hhead.symm (Option.some_ne_none _)
    | cons d s =>
      obtain rfl := Option.some.inj hhead
      exact hne s rfl rfl
  | case3 => exact List.IsChain.nil

lemma composeAcute_self (h : NoAcute s) : composeAcute s = s := by
  fun_induction composeAcute s with
  | case1 s ih => exact absurd ⟨rfl, rfl⟩ ((List.isChain_cons_cons.mp h).1)
  | case2 c s hne ih => rw [ih h.tail]
  | case3 => rfl

lemma composeAcute_apart (a b : List Char) (hc : isSpace c = true) :
    composeAcute (a ++ c :: b) = composeAcute a ++ c :: composeAcute b := by
  have hspace : c ≠ 'e' ∧ c ≠ '\u0301' := by
    constructor <;> rintro rfl <;> exact absurd hc (by decide)
  have hstep : ∀ s, composeAcute (c :: s) = c :: composeAcute s := by
    intro s
    rw [composeAcute]
    exact fun t he _ => hspace.1 he
  fun_induction composeAcute a with
  | case1 a ih =>
    rw [List.cons_append, List.cons_append, composeAcute, ih]
    rfl
  | case2 d a hne ih =>
    rw [List.cons_append, composeAcute, ih]
    · rfl
    · intro t hd ht
      cases a with
      | nil => exact hspace.2 (List.cons.inj ht).1
      | cons x a =>
        obtain ⟨rfl, -⟩ := List.cons.inj ht
        exact hne a hd rfl
  | case3 => exact hstep b

lemma mem_composeAcute (h : c ∈ composeAcute s) : c ∈ s ∨ c = 'é' := by
  fun_induction composeAcute s with
  | case1 s ih =>
    rcases List.mem_cons.mp h with h | h
    · exact .inr h
    · exact (ih h).imp (fun hs => List.mem_cons_of_mem _ (List.mem_cons_of_mem _ hs)) id
  | case2 d s hne ih =>
    rcases List.mem_cons.mp h with rfl | h
    · exact .inl List.mem_cons_self
    · exact (ih h).imp (List.mem_cons_of_mem _) id
  | case3 => exact .inl h

def acute : Nfkc where
  normalize := composeAcute
  idem s := composeAcute_self (noAcute_composeAcute s)
  part a b c h := by
    have hall : NoAcute (a ++ (b ++ c)) := h ▸ noAcute_composeAcute _
    exact composeAcute_self (List.IsChain.left_of_append (List.IsChain.right_of_append hall))
  ascii c _ := by
    rw [composeAcute, composeAcute]
    exact fun t _ ht => absurd ht.symm (List.cons_ne_nil _ _)
  apart a b c hc _ := composeAcute_apart a b hc
  plain s hs c hc := by
    rcases mem_composeAcute hc with h | rfl
    · exact (hs c h).2
    · exact ⟨by decide, by decide⟩

theorem sanitizeSmsText_zeroWidth :
    sanitizeSmsText acute (some (sanitizeSmsText acute (some "e\u200b\u0301"))) ≠
      sanitizeSmsText acute (some "e\u200b\u0301") := by
  decide +kernel

end TheCargo.Sms
