import Mathlib.Data.List.TakeWhile
import Mathlib.Tactic.Common

namespace TheCargo.Foundation

structure Url where
  netloc : List Char
  path : List Char
  deriving DecidableEq

namespace Url

/-- A control character or a blank, which is not read at the front. -/
def isLead (c : Char) : Bool := c.toNat ≤ 32

/-- What is taken out wherever it stands. -/
def isRemoved (c : Char) : Bool := c = '\t' || c = '\r' || c = '\n'

def cleaned (s : List Char) : List Char := s.filter (fun c => !isRemoved c)

def isSchemeChar (c : Char) : Bool := c.isAlphanum || c = '+' || c = '-' || c = '.'

def splitScheme (s : List Char) : List Char × List Char :=
  let head := s.takeWhile (fun c => c ≠ ':')
  if s.contains ':' && head.head?.any Char.isAlpha && head.all isSchemeChar then
    (head.map Char.toLower, s.drop (head.length + 1))
  else ([], s)

def endsHost (c : Char) : Bool := c = '/' || c = '?' || c = '#'

def splitNetloc (s : List Char) : List Char × List Char :=
  if ['/', '/'].isPrefixOf s then
    ((s.drop 2).takeWhile (fun c => !endsHost c), (s.drop 2).dropWhile (fun c => !endsHost c))
  else ([], s)

def isMark (c : Char) : Bool := c = '?' || c = '#'

def usesParams : List (List Char) :=
  ["", "ftp", "hdl", "prospero", "http", "imap", "https", "shttp", "rtsp", "rtsps", "rtspu", "sip", "sips", "mms",
    "sftp", "tel"].map String.toList

def lastSegment (s : List Char) : List Char := (s.reverse.takeWhile (fun c => c ≠ '/')).reverse

def directory (s : List Char) : List Char := (s.reverse.dropWhile (fun c => c ≠ '/')).reverse

/-- `_splitparams` -/
def withoutParams (s : List Char) : List Char := directory s ++ (lastSegment s).takeWhile (fun c => c ≠ ';')

def beforeMark (s : List Char) : List Char := s.takeWhile (fun c => !isMark c)

def pathOf (scheme rest : List Char) : List Char :=
  if scheme ∈ usesParams then withoutParams (beforeMark rest) else beforeMark rest

/-- Nothing where it raises `ValueError` over the host. -/
def urlparse (netlocOk : List Char → Bool) (s : List Char) : Option Url :=
  let (scheme, rest) := splitScheme (cleaned (s.dropWhile isLead))
  let (netloc, rest) := splitNetloc rest
  if netlocOk netloc then some ⟨netloc, pathOf scheme rest⟩ else none

structure ReadsPath (t path tail : List Char) : Prop where
  eq : t = path ++ tail
  plain : ∀ c ∈ path, isMark c = false
  noParams : ';' ∉ lastSegment path
  stop : ∀ c rest, tail = c :: rest → isMark c = true ∨ (c = ';' ∧ '/' ∉ beforeMark rest)

variable {s t u w path tail : List Char} {c : Char}

lemma directory_append_lastSegment (s : List Char) : directory s ++ lastSegment s = s := by
  rw [directory, lastSegment, ← List.reverse_append, List.takeWhile_append_dropWhile, List.reverse_reverse]

lemma slash_notMem_lastSegment (s : List Char) : '/' ∉ lastSegment s := by
  intro hmem
  have hne := List.mem_takeWhile_imp (List.mem_reverse.mp hmem)
  exact absurd hne (by decide)

lemma reverse_ne_slash (hw : '/' ∉ w) : ∀ c ∈ w.reverse, decide (c ≠ '/') = true := by
  intro c hc
  rw [decide_eq_true_eq]
  rintro rfl
  exact hw (List.mem_reverse.mp hc)

lemma lastSegment_append (hw : '/' ∉ w) (s : List Char) : lastSegment (s ++ w) = lastSegment s ++ w := by
  rw [lastSegment, List.reverse_append, List.takeWhile_append_of_pos (reverse_ne_slash hw), List.reverse_append,
    List.reverse_reverse]
  rfl

lemma directory_append (hw : '/' ∉ w) (s : List Char) : directory (s ++ w) = directory s := by
  rw [directory, List.reverse_append, List.dropWhile_append_of_pos (reverse_ne_slash hw)]
  rfl

lemma lastSegment_directory (s : List Char) : lastSegment (directory s) = [] := by
  have hlength := congrArg List.length (directory_append_lastSegment (directory s))
  have hdirectory : directory (directory s) = directory s := by
    have happend := directory_append (slash_notMem_lastSegment s) (directory s)
    rw [directory_append_lastSegment] at happend
    exact happend.symm
  rw [hdirectory, List.length_append] at hlength
  exact List.length_eq_zero_iff.mp (by omega)

lemma takeWhile_ne_self {a : Char} (h : a ∉ s) : s.takeWhile (fun c => c ≠ a) = s := by
  apply List.takeWhile_eq_self_iff.mpr
  intro c hc
  rw [decide_eq_true_eq]
  rintro rfl
  exact h hc

lemma takeWhile_stop {p : Char → Bool} {a : Char} (h : p a = false) (s t : List Char) :
    (s ++ a :: t).takeWhile p = s.takeWhile p := by
  rw [List.takeWhile_append]
  split
  · next hall =>
    rw [(List.takeWhile_prefix p).eq_of_length hall, List.takeWhile_cons_of_neg (by simp [h]), List.append_nil]
  · rfl

lemma lastSegment_slash (s t : List Char) : lastSegment (s ++ '/' :: t) = lastSegment t := by
  rw [lastSegment, List.reverse_append, List.reverse_cons, List.append_assoc]
  exact congrArg List.reverse (takeWhile_stop (by decide) _ _)

lemma beforeMark_append (h : ∀ c ∈ s, isMark c = false) (t : List Char) : beforeMark (s ++ t) = s ++ beforeMark t :=
  List.takeWhile_append_of_pos (fun c hc => by simp [h c hc])

lemma beforeMark_plain (s : List Char) : ∀ c ∈ beforeMark s, isMark c = false := by
  intro c hc
  simpa using List.mem_takeWhile_imp hc

lemma lastSegment_withoutParams (u : List Char) :
    lastSegment (withoutParams u) = (lastSegment u).takeWhile (fun c => c ≠ ';') := by
  have hslash : '/' ∉ (lastSegment u).takeWhile (fun c => c ≠ ';') :=
    fun hmem => slash_notMem_lastSegment u ((List.takeWhile_prefix _).subset hmem)
  rw [withoutParams, lastSegment_append hslash, lastSegment_directory, List.nil_append]

lemma exists_params (u : List Char) :
    ∃ params, u = withoutParams u ++ params ∧ (params = [] ∨ ∃ rest, params = ';' :: rest ∧ '/' ∉ rest) := by
  have hparams : (lastSegment u).takeWhile (fun c => c ≠ ';') ++ (lastSegment u).dropWhile (fun c => c ≠ ';') =
      lastSegment u := List.takeWhile_append_dropWhile
  refine ⟨(lastSegment u).dropWhile (fun c => c ≠ ';'), ?_, ?_⟩
  · rw [withoutParams, List.append_assoc, hparams, directory_append_lastSegment]
  · cases hdrop : (lastSegment u).dropWhile (fun c => c ≠ ';') with
    | nil => exact .inl rfl
    | cons d rest =>
      have hnot := List.head?_dropWhile_not (fun c => decide (c ≠ ';')) (lastSegment u)
      rw [hdrop] at hnot hparams
      have hd : d = ';' := by simpa using hnot
      refine .inr ⟨rest, by rw [hd], fun hmem => slash_notMem_lastSegment u ?_⟩
      rw [← hparams]
      exact List.mem_append_right _ (List.mem_cons_of_mem _ hmem)

lemma readsPath_withoutParams (t : List Char) : ∃ tail, ReadsPath t (withoutParams (beforeMark t)) tail := by
  have hplain := beforeMark_plain t
  have hsplit : beforeMark t ++ t.dropWhile (fun c => !isMark c) = t := List.takeWhile_append_dropWhile
  have hstop : ∀ c rest, t.dropWhile (fun c => !isMark c) = c :: rest → isMark c = true := by
    intro c rest hdrop
    have hnot := List.head?_dropWhile_not (fun c => !isMark c) t
    rw [hdrop] at hnot
    simpa using hnot
  have hrest : beforeMark (t.dropWhile (fun c => !isMark c)) = [] := by
    cases hdrop : t.dropWhile (fun c => !isMark c) with
    | nil => rfl
    | cons c rest => exact List.takeWhile_cons_of_neg (by simp [hstop c rest hdrop])
  obtain ⟨params, hparams, hcases⟩ := exists_params (beforeMark t)
  have hin : ∀ c ∈ withoutParams (beforeMark t) ++ params, isMark c = false := fun c hc => hplain c (hparams ▸ hc)
  refine ⟨params ++ t.dropWhile (fun c => !isMark c), ?_, fun c hc => hin c (List.mem_append_left _ hc), ?_, ?_⟩
  · rw [← List.append_assoc, ← hparams, hsplit]
  · rw [lastSegment_withoutParams]
    intro hmem
    exact absurd (List.mem_takeWhile_imp hmem) (by decide)
  · intro c rest htail
    rcases hcases with rfl | ⟨params, rfl, hslash⟩
    · exact .inl (hstop c rest htail)
    · obtain ⟨rfl, rfl⟩ := List.cons.inj htail
      have hmark : ∀ c ∈ params, isMark c = false :=
        fun c hc => hin c (List.mem_append_right _ (List.mem_cons_of_mem _ hc))
      refine .inr ⟨rfl, ?_⟩
      change '/' ∉ beforeMark (params ++ _)
      rwa [beforeMark_append hmark, hrest, List.append_nil]

lemma withoutParams_of_reads (h : ReadsPath t path tail) : withoutParams (beforeMark t) = path := by
  have hself : withoutParams path = path := by
    rw [withoutParams, takeWhile_ne_self h.noParams, directory_append_lastSegment]
  rw [h.eq, beforeMark_append h.plain]
  cases tail with
  | nil => rwa [beforeMark, List.takeWhile_nil, List.append_nil]
  | cons c rest =>
    rcases h.stop c rest rfl with hmark | ⟨rfl, hslash⟩
    · rwa [beforeMark, List.takeWhile_cons_of_neg (by simp [hmark]), List.append_nil]
    · have htail : beforeMark (';' :: rest) = ';' :: beforeMark rest := List.takeWhile_cons_of_pos (by decide)
      have hslash' : '/' ∉ ';' :: beforeMark rest := by simpa using hslash
      rw [htail, withoutParams, directory_append hslash', lastSegment_append hslash',
        List.takeWhile_append_of_pos, List.takeWhile_cons_of_neg (by decide), List.append_nil,
        directory_append_lastSegment]
      intro c hc
      rw [decide_eq_true_eq]
      rintro rfl
      exact h.noParams hc

lemma pathOf_iff {scheme : List Char} (h : scheme ∈ usesParams) :
    pathOf scheme t = path ↔ ∃ tail, ReadsPath t path tail := by
  rw [pathOf, if_pos h]
  constructor
  · rintro rfl
    exact readsPath_withoutParams t
  · rintro ⟨tail, hreads⟩
    exact withoutParams_of_reads hreads

def http : List Char := "http://".toList

def https : List Char := "https://".toList

def hostOf (s : List Char) : List Char := s.takeWhile (fun c => !endsHost c)

def afterHost (s : List Char) : List Char := s.dropWhile (fun c => !endsHost c)

lemma urlparse_web (netlocOk : List Char → Bool) {lead : List Char} (hlead : lead = http ∨ lead = https)
    (s : List Char) :
    ∃ scheme ∈ usesParams, urlparse netlocOk (lead ++ s) =
      if netlocOk (hostOf (cleaned s)) then some ⟨hostOf (cleaned s), pathOf scheme (afterHost (cleaned s))⟩
      else none := by
  rcases hlead with rfl | rfl
  · refine ⟨"http".toList, by decide, ?_⟩
    have hclean : cleaned ((http ++ s).dropWhile isLead) = "http:".toList ++ ('/' :: '/' :: cleaned s) := rfl
    have hscheme : splitScheme ("http:".toList ++ ('/' :: '/' :: cleaned s)) =
        ("http".toList, '/' :: '/' :: cleaned s) := rfl
    rw [urlparse, hclean, hscheme]
    rfl
  · refine ⟨"https".toList, by decide, ?_⟩
    have hclean : cleaned ((https ++ s).dropWhile isLead) = "https:".toList ++ ('/' :: '/' :: cleaned s) := rfl
    have hscheme : splitScheme ("https:".toList ++ ('/' :: '/' :: cleaned s)) =
        ("https".toList, '/' :: '/' :: cleaned s) := rfl
    rw [urlparse, hclean, hscheme]
    rfl

lemma cleaned_append (s t : List Char) : cleaned (s ++ t) = cleaned s ++ cleaned t := List.filter_append ..

lemma cleaned_self (h : ∀ c ∈ s, isRemoved c = false) : cleaned s = s :=
  List.filter_eq_self.mpr (fun c hc => by simp [h c hc])

end Url

end TheCargo.Foundation
