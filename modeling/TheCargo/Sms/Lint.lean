import Mathlib.Algebra.Order.Ring.Rat
import TheCargo.Foundation.Regex
import TheCargo.Foundation.Unicode
import TheCargo.Sms.Sanitize

namespace TheCargo.Sms

open Foundation

def fancyLow : ℕ := 0x1D400
def fancyHigh : ℕ := 0x1D7FF

def spamTriggerWords : List String :=
  ["free", "winner", "cash", "prize", "guaranteed", "act now", "buy now", "click here", "limited time", "risk free",
    "no cost", "save big", "% off", "instant quote", "congratulations", "urgent"]

def optoutFooter : String := "Reply STOP to opt out"

inductive Severity
  | block
  | warn
  | info
  deriving DecidableEq, Repr

structure SmsFinding where
  code : String
  severity : Severity
  message : String
  deriving DecidableEq, Repr

section

variable (nfkc : Nfkc) (unicode : Unicode)

def spelled (s : String) : Regex Char :=
  .seqs (s.toList.map (fun c => .one (fun x => unicode.fold x = unicode.fold c)))

def bounded (rs : List (Regex Char)) : Regex Char := .seq .boundary (.seq (.alts rs) .boundary)

def optoutRe : Regex Char :=
  bounded [spelled unicode "stop", spelled unicode "unsubscribe",
    .seqs [spelled unicode "opt", .opt (.one (fun c => isSpace c || c == '-')), spelled unicode "out"],
    spelled unicode "cancel"]

def shortenerRe : Regex Char :=
  bounded (["bit.ly", "tinyurl.com", "goo.gl", "t.co", "ow.ly", "is.gd", "buff.ly", "rebrand.ly", "cutt.ly",
    "shorturl.at"].map (spelled unicode))

def hasFancyFont (text : Option String) : Bool :=
  (text.getD "").toList.any (fun ch => fancyLow ≤ ch.toNat && ch.toNat ≤ fancyHigh)

def hasOptoutLanguage (text : Option String) : Bool := (optoutRe unicode).search unicode.isWord (text.getD "").toList

def hasUrlShortener (text : Option String) : Bool := (shortenerRe unicode).search unicode.isWord (text.getD "").toList

def rstrip (s : List Char) : List Char := (s.reverse.dropWhile isSpace).reverse

def ensureOptoutFooter (text : Option String) : String :=
  let body := String.ofList (rstrip (text.getD "").toList)
  if body = "" || hasOptoutLanguage unicode (some body) then body else body ++ " " ++ optoutFooter

def spamWords (text : String) : List String :=
  let low := unicode.lower text
  spamTriggerWords.filter (fun w => w.toList <:+: low.toList)

variable (isAlpha isUpper : Char → Bool)

def capsRatio (text : String) : ℚ :=
  let letters := text.toList.filter isAlpha
  if letters.length < 10 then 0 else (letters.countP isUpper : ℚ) / letters.length

def lintSmsText (text : Option String) (isMarketing : Bool) : List SmsFinding :=
  let raw := text.getD ""
  let clean := sanitizeSmsText nfkc (some raw)
  if clean = "" then [⟨"EMPTY_BODY", .block, "Message is empty after cleaning"⟩]
  else
    let words := spamWords unicode clean
    (if hasFancyFont (some raw) then [⟨"FANCY_FONT", .warn, "Stylized Unicode font converted to plain text"⟩]
      else if clean ≠ raw then [⟨"NORMALIZED", .info, "Special characters normalized to plain text"⟩]
      else []) ++
    (if words ≠ [] then [⟨"SPAM_WORDS", .warn, "Spam-trigger words: " ++ String.intercalate ", " words⟩] else []) ++
    (if hasUrlShortener unicode (some clean) then
      [⟨"URL_SHORTENER", .warn, "URL shorteners are often blocked by carriers; use a full link"⟩] else []) ++
    (if 3 / 5 < capsRatio isAlpha isUpper clean then
      [⟨"ALL_CAPS", .warn, "Excessive capital letters look like spam"⟩] else []) ++
    (if isMarketing && !hasOptoutLanguage unicode (some clean) then
      [⟨"NO_OPTOUT", .warn, "Marketing messages should include opt-out text (\"Reply STOP\")"⟩] else [])

end

variable {nfkc : Nfkc} {unicode : Unicode} {s u : List Char} {c : Char}

lemma spelled_matches {before after : Option Char} {word w : List Char}
    (h : w.map unicode.fold = word.map unicode.fold) :
    Regex.Matches unicode.isWord (.seqs (word.map (fun c => .one (fun x => unicode.fold x = unicode.fold c))))
      before w after := by
  induction word generalizing before w with
  | nil => exact List.map_eq_nil_iff.mp h
  | cons c word ih =>
    obtain ⟨d, w, rfl, hd, hw⟩ := List.map_eq_cons_iff.mp h
    exact ⟨[d], w, rfl, ⟨d, rfl, decide_eq_true hd⟩, ih hw⟩

lemma fold_ascii {word w : List Char} (h : w.map Char.toLower = word.map Char.toLower)
    (hw : ∀ c ∈ w, c.toNat < 128) (hword : ∀ c ∈ word, c.toNat < 128) :
    w.map unicode.fold = word.map unicode.fold := by
  rw [List.map_congr_left (fun c hc => unicode.fold_ascii c (hw c hc)),
    List.map_congr_left (fun c hc => unicode.fold_ascii c (hword c hc)), h]

lemma isWord_ascii (hc : c.toNat < 128) : unicode.isWord c = (c.isAlphanum || c == '_') := by
  rw [Unicode.isWord, unicode.isAlnum_ascii c hc]

lemma footer_found (body : String) :
    hasOptoutLanguage unicode (some (body ++ " " ++ optoutFooter)) = true := by
  refine Regex.search_iff.mpr ⟨body.toList ++ " Reply ".toList, "STOP".toList, " to opt out".toList, ?_, ?_⟩
  · simp [optoutFooter]
  · have hbefore : (body.toList ++ " Reply ".toList).getLast? = some ' ' := by simp
    have hspace : unicode.isWord ' ' = false := isWord_ascii (by decide)
    have hs : unicode.isWord 'S' = true := isWord_ascii (by decide)
    have hp : unicode.isWord 'P' = true := isWord_ascii (by decide)
    rw [hbefore]
    refine ⟨[], "STOP".toList, rfl, ⟨rfl, ?_⟩, "STOP".toList, [], (List.append_nil _).symm, ?_, rfl, ?_⟩
    · simp [Regex.AtBoundary, hspace, hs]
    · have hstop : ∀ c ∈ "STOP".toList, c.toNat < 128 := forall_of_all (by decide)
      have hlow : ∀ c ∈ "stop".toList, c.toNat < 128 := forall_of_all (by decide)
      exact Regex.matches_alts.mpr ⟨_, List.mem_cons_self, spelled_matches (fold_ascii (by decide) hstop hlow)⟩
    · simp [Regex.AtBoundary, hspace, hp]

structure Clean (nfkc : Nfkc) (s : List Char) : Prop where
  normal : Normal nfkc s
  plain : ∀ c ∈ s, Plain c
  tidy : tidy s = s

lemma Clean.sanitize (h : Clean nfkc s) : sanitizeSmsText nfkc (some (String.ofList s)) = String.ofList s := by
  rw [sanitizeSmsText_some, String.toList_ofList, h.normal, plainText_self h.plain, h.tidy]

lemma clean_nil : Clean nfkc [] := ⟨normal_nil, List.forall_mem_nil _, rfl⟩

lemma clean_sanitized {text : Option String} (hstays : StaysNormal nfkc text) :
    Clean nfkc (sanitizeSmsText nfkc text).toList := by
  cases text with
  | none => exact clean_nil
  | some text =>
    have hnormal := hstays text rfl
    rw [sanitizeSmsText_some, String.toList_ofList]
    exact ⟨(normal_tidy (fun c hc => hnormal.mem hc)).mpr hnormal, fun c hc => (plain_sent hc).2, tidy_tidy _⟩

lemma tidy_last (h : tidy s = s) (hc : s.getLast? = some c) : isSpace c = false := by
  rw [← h] at hc
  exact stripBy_last hc

lemma tidy_head (h : tidy s = s) (hc : s.head? = some c) : isSpace c = false := by
  rw [← h] at hc
  exact stripBy_head hc

lemma isBlank_of_not_isSpace (h : isSpace c = false) : isBlank c = false := by
  by_contra hblank
  rw [isSpace_of_isBlank (Bool.not_eq_false _ ▸ hblank)] at h
  cases h

lemma short_of_tidy (h : tidy s = s) : Short isBlank 2 0 s ∧ Short isNewline 3 0 s := by
  have hspace : ∀ c ∈ [' '], isBlank c = true := List.forall_mem_singleton.mpr rfl
  have hnewline : ∀ c ∈ ['\n', '\n'], isNewline c = true := by simp [isNewline]
  have hother : ∀ c, isNewline c = true → isBlank c = false := by
    intro c hc
    rw [isNewline, beq_iff_eq] at hc
    subst hc
    rfl
  have hblanks : Short isBlank 2 0 (squeeze isNewline 3 ['\n', '\n'] [] (squeeze isBlank 2 [' '] [] s)) :=
    (short_squeeze hspace (by decide) (List.forall_mem_nil _) s).squeeze (fun c hc => hother c (hnewline c hc))
      (List.cons_ne_nil _ _) hother (List.forall_mem_nil _)
  have hlines : Short isNewline 3 0 (squeeze isNewline 3 ['\n', '\n'] [] (squeeze isBlank 2 [' '] [] s)) :=
    short_squeeze hnewline (by decide) (List.forall_mem_nil _) _
  obtain ⟨l, r, -, -, hparts⟩ :=
    stripBy_parts isSpace (squeeze isNewline 3 ['\n', '\n'] [] (squeeze isBlank 2 [' '] [] s))
  rw [show stripBy isSpace (squeeze isNewline 3 ['\n', '\n'] [] (squeeze isBlank 2 [' '] [] s)) = s from h] at hparts
  rw [hparts] at hblanks hlines
  exact ⟨hblanks.of_append_right.of_append_left, hlines.of_append_right.of_append_left⟩

lemma tidy_self (hblanks : Short isBlank 2 0 s) (hlines : Short isNewline 3 0 s)
    (hhead : ∀ c, s.head? = some c → isSpace c = false) (hlast : ∀ c, s.getLast? = some c → isSpace c = false) :
    tidy s = s := by
  have hkeep : squeeze isBlank 2 [' '] [] s = s := squeeze_of_short (by decide) hblanks
  have hkeep' : squeeze isNewline 3 ['\n', '\n'] [] s = s := squeeze_of_short (by decide) hlines
  rw [tidy, hkeep, hkeep', stripBy_self hhead hlast]

lemma Clean.join (h : Clean nfkc s) (h' : Clean nfkc u) (hs : s ≠ []) (hu : u ≠ []) : Clean nfkc (s ++ ' ' :: u) := by
  obtain ⟨hblanks, hlines⟩ := short_of_tidy h.tidy
  obtain ⟨hblanks', hlines'⟩ := short_of_tidy h'.tidy
  refine ⟨(normal_apart ⟨by decide, nfkc.ascii ' ' (by decide)⟩).mpr ⟨h.normal, h'.normal⟩, ?_, tidy_self ?_ ?_ ?_ ?_⟩
  · exact List.forall_mem_append.mpr ⟨h.plain, List.forall_mem_cons.mpr ⟨⟨by decide, by decide⟩, h'.plain⟩⟩
  · obtain ⟨b, c, rfl⟩ := (List.eq_nil_or_concat' s).resolve_left hs
    have hc : isBlank c = false := isBlank_of_not_isSpace (tidy_last h.tidy List.getLast?_concat)
    rw [List.append_assoc, List.singleton_append, short_around hc]
    refine ⟨hblanks.of_append_left, ?_⟩
    cases u with
    | nil => exact absurd rfl hu
    | cons d u =>
      have hd : isBlank d = false := isBlank_of_not_isSpace (tidy_head h'.tidy rfl)
      have hd' : ∀ e ∈ [d], isBlank e = false := List.forall_mem_singleton.mpr hd
      refine ⟨by decide, (short_break hd' (List.cons_ne_nil _ _)).mpr ?_⟩
      exact (short_break hd' (List.cons_ne_nil _ _)).mp hblanks'
  · exact (short_around (by decide)).mpr ⟨hlines, hlines'⟩
  · intro c hc
    rw [List.head?_append_of_ne_nil _ hs] at hc
    exact tidy_head h.tidy hc
  · intro c hc
    rw [List.append_cons, List.getLast?_append_of_ne_nil _ hu] at hc
    exact tidy_last h'.tidy hc

lemma rstrip_self (hlast : ∀ c, s.getLast? = some c → isSpace c = false) : rstrip s = s := by
  rw [rstrip, dropWhile_self (fun c hc => hlast c (List.head?_reverse ▸ hc)), List.reverse_reverse]

lemma rstrip_clean {text : String} (h : Clean nfkc text.toList) :
    String.ofList (rstrip ((some text).getD "").toList) = text := by
  rw [Option.getD_some, rstrip_self (fun c hc => tidy_last h.tidy hc), String.ofList_toList]

variable (nfkc unicode) in
def finished (text : Option String) : String := ensureOptoutFooter unicode (some (sanitizeSmsText nfkc text))

lemma ensureOptoutFooter_clean {text : String} (h : Clean nfkc text.toList) :
    ensureOptoutFooter unicode (some text) =
      if text = "" || hasOptoutLanguage unicode (some text) then text else text ++ " " ++ optoutFooter := by
  rw [ensureOptoutFooter, rstrip_clean h]

lemma clean_footer (hascii : ∀ s, (∀ c ∈ s, c.toNat < 128) → Normal nfkc s) : Clean nfkc optoutFooter.toList :=
  have hplain : ∀ c ∈ optoutFooter.toList, punct c = none ∧ keepChar c.toNat = true := forall_of_all (by decide)
  ⟨hascii _ (forall_of_all (by decide)), hplain, by decide⟩

lemma finished_cases {text : Option String} (hstays : StaysNormal nfkc text)
    (hascii : ∀ s, (∀ c ∈ s, c.toNat < 128) → Normal nfkc s) :
    Clean nfkc (finished nfkc unicode text).toList ∧
      (finished nfkc unicode text = sanitizeSmsText nfkc text ∧
          (sanitizeSmsText nfkc text = "" ∨ hasOptoutLanguage unicode (some (sanitizeSmsText nfkc text)) = true) ∨
        finished nfkc unicode text = sanitizeSmsText nfkc text ++ " " ++ optoutFooter ∧
          sanitizeSmsText nfkc text ≠ "") := by
  have hclean := clean_sanitized hstays
  rw [finished, ensureOptoutFooter_clean hclean]
  generalize sanitizeSmsText nfkc text = clean at hclean ⊢
  by_cases hdone : clean = "" ∨ hasOptoutLanguage unicode (some clean) = true
  · have hkeep : (clean = "" || hasOptoutLanguage unicode (some clean)) = true := by simpa using hdone
    rw [if_pos hkeep]
    exact ⟨hclean, .inl ⟨rfl, hdone⟩⟩
  · have hadd : ¬ (clean = "" || hasOptoutLanguage unicode (some clean)) = true := by simpa using hdone
    have hne : clean ≠ "" := fun he => hdone (.inl he)
    rw [if_neg hadd]
    refine ⟨?_, .inr ⟨rfl, hne⟩⟩
    have hjoin := hclean.join (clean_footer hascii) (fun he => hne (String.toList_eq_nil_iff.mp he)) (by decide)
    have hlist : (clean ++ " " ++ optoutFooter).toList = clean.toList ++ ' ' :: optoutFooter.toList := by
      rw [String.toList_append, String.toList_append, List.append_assoc]
      rfl
    rw [hlist]
    exact hjoin

lemma sanitize_finished {text : String} (h : Clean nfkc text.toList) : sanitizeSmsText nfkc (some text) = text := by
  have hsame := h.sanitize
  rwa [String.ofList_toList] at hsame

lemma codes_of_ite {p : Prop} [Decidable p] {found : SmsFinding} {fs : List SmsFinding} {codes : List String}
    (hfound : found.code ∈ codes) (hfs : ∀ f ∈ fs, f.code ∈ codes) :
    ∀ f ∈ (if p then [found] else fs), f.code ∈ codes := by
  split
  · exact List.forall_mem_singleton.mpr hfound
  · exact hfs

lemma lint_final {isAlpha isUpper : Char → Bool} {text : String} (h : Clean nfkc text.toList) (hne : text ≠ "")
    (hhas : hasOptoutLanguage unicode (some text) = true) :
    ∀ f ∈ lintSmsText nfkc unicode isAlpha isUpper (some text) true,
      f.code ∈ ["FANCY_FONT", "SPAM_WORDS", "URL_SHORTENER", "ALL_CAPS"] := by
  have hnone : ∀ f ∈ ([] : List SmsFinding), f.code ∈ ["FANCY_FONT", "SPAM_WORDS", "URL_SHORTENER", "ALL_CAPS"] :=
    List.forall_mem_nil _
  rw [lintSmsText]
  simp only [Option.getD_some, sanitize_finished h, hne, if_false, ne_eq, not_true, hhas, Bool.not_true, Bool.and_false,
    Bool.false_eq_true, List.append_nil]
  refine List.forall_mem_append.mpr ⟨List.forall_mem_append.mpr ⟨List.forall_mem_append.mpr ⟨?_, ?_⟩, ?_⟩, ?_⟩
  · exact codes_of_ite List.mem_cons_self hnone
  · exact codes_of_ite (by simp only [List.mem_cons, true_or, or_true]) hnone
  · exact codes_of_ite (by simp only [List.mem_cons, true_or, or_true]) hnone
  · exact codes_of_ite (by simp only [List.mem_cons, true_or, or_true]) hnone

theorem finished_text_is_final (nfkc : Nfkc) (unicode : Unicode) (isAlpha isUpper : Char → Bool) (text : Option String)
    (hstays : StaysNormal nfkc text) (hascii : ∀ s, (∀ c ∈ s, c.toNat < 128) → Normal nfkc s) :
    (∃ rest, finished nfkc unicode text = sanitizeSmsText nfkc text ++ rest) ∧
      (finished nfkc unicode text = "" ↔ sanitizeSmsText nfkc text = "") ∧
      sanitizeSmsText nfkc (some (finished nfkc unicode text)) = finished nfkc unicode text ∧
      ensureOptoutFooter unicode (some (finished nfkc unicode text)) = finished nfkc unicode text ∧
      (finished nfkc unicode text ≠ "" →
        hasOptoutLanguage unicode (some (finished nfkc unicode text)) = true ∧
        ∀ f ∈ lintSmsText nfkc unicode isAlpha isUpper (some (finished nfkc unicode text)) true,
          f.code ∈ ["FANCY_FONT", "SPAM_WORDS", "URL_SHORTENER", "ALL_CAPS"]) := by
  obtain ⟨hclean, hcases⟩ := @finished_cases nfkc unicode text hstays hascii
  have hfound : finished nfkc unicode text ≠ "" →
      hasOptoutLanguage unicode (some (finished nfkc unicode text)) = true := by
    intro hne
    rcases hcases with ⟨heq, hempty | hhas⟩ | ⟨heq, -⟩
    · exact absurd (heq.trans hempty) hne
    · rw [heq]
      exact hhas
    · rw [heq]
      exact footer_found _
  refine ⟨?_, ?_, sanitize_finished hclean, ?_, fun hne => ⟨hfound hne, ?_⟩⟩
  · rcases hcases with ⟨heq, -⟩ | ⟨heq, -⟩
    · exact ⟨"", heq.trans (String.append_empty).symm⟩
    · exact ⟨" " ++ optoutFooter, heq.trans (String.append_assoc ..)⟩
  · rcases hcases with ⟨heq, -⟩ | ⟨heq, hne⟩
    · rw [heq]
    · rw [heq]
      refine iff_of_false (fun he => ?_) hne
      rw [String.append_eq_empty_iff, String.append_eq_empty_iff] at he
      exact hne he.1.1
  · rw [ensureOptoutFooter_clean hclean, if_pos]
    by_cases he : finished nfkc unicode text = ""
    · simp [he]
    · simp [hfound he]
  · exact lint_final hclean hne (hfound hne)

lemma composeAcute_ascii (s : List Char) (hs : ∀ c ∈ s, c.toNat < 128) : Normal acute s := by
  show composeAcute s = s
  fun_induction composeAcute s with
  | case1 s => exact absurd (hs '\u0301' (List.mem_cons_of_mem _ List.mem_cons_self)) (by decide)
  | case2 c s _ ih => rw [ih (List.forall_mem_cons.mp hs).2]
  | case3 => rfl

def sale : String := "Sale  ends soon"

theorem sale_text_is_final :
    finished acute .ascii (some sale) = "Sale ends soon Reply STOP to opt out" ∧
      hasOptoutLanguage .ascii (some (finished acute .ascii (some sale))) = true ∧
      ∀ f ∈ lintSmsText acute .ascii Char.isAlpha Char.isUpper (some (finished acute .ascii (some sale))) true,
        f.code ∈ ["FANCY_FONT", "SPAM_WORDS", "URL_SHORTENER", "ALL_CAPS"] := by
  have hstays : StaysNormal acute (some sale) := by
    rintro t ⟨⟩
    exact composeAcute_ascii _ (forall_of_all (by decide +kernel))
  have hsent : finished acute .ascii (some sale) = "Sale ends soon Reply STOP to opt out" := by decide +kernel
  have hfinal := finished_text_is_final acute .ascii Char.isAlpha Char.isUpper (some sale) hstays composeAcute_ascii
  exact ⟨hsent, hfinal.2.2.2.2 (by rw [hsent]; decide)⟩

end TheCargo.Sms
