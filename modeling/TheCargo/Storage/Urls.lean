import Mathlib.Data.List.Chain
import TheCargo.Foundation.PyString
import TheCargo.Foundation.Url

namespace TheCargo.Storage

open Foundation

abbrev Text := List Char

/-- What is refused elsewhere: hosts that `urlparse` raises for, endpoints that `boto3.client` raises for. -/
structure UrlChecks where
  netlocOk : Text → Bool
  endpointOk : Text → Bool

/-- `_client` is there where `connected`. -/
structure StorageState where
  connected : Bool
  bucket : Text
  publicUrl : Text

def rstripSlash (s : Text) : Text := (s.reverse.dropWhile (fun c => c = '/')).reverse

def lstripSlash (s : Text) : Text := s.dropWhile (fun c => c = '/')

variable (lib : UrlChecks)

def urlparse (url : Text) : Option Url := Url.urlparse lib.netlocOk url

def signingOk (publicUrl endpointUrl : Text) : Bool :=
  match urlparse lib publicUrl with
  | none => false
  | some sign =>
    sign.netloc = [] ||
      match urlparse lib endpointUrl with
      | none => false
      | some own => sign.netloc = own.netloc || lib.endpointOk publicUrl

def endpointUrlOf (endpoint : Text) (secure : Bool) : Text :=
  (if secure then "https".toList else "http".toList) ++ "://".toList ++ endpoint

def publicUrlOf (publicUrl endpointUrl : Text) : Text := rstripSlash (if publicUrl = [] then endpointUrl else publicUrl)

/-- What raises leaves no client. -/
def initStorage (before : StorageState) (endpoint bucket publicUrl : Text) (secure : Bool) : StorageState :=
  let endpointUrl := endpointUrlOf endpoint secure
  let url := publicUrlOf publicUrl endpointUrl
  if lib.endpointOk endpointUrl then ⟨signingOk lib url endpointUrl, bucket, url⟩
  else { before with connected := false }

def getPublicUrl (s : StorageState) (path : Text) : Text := s.publicUrl ++ '/' :: (s.bucket ++ '/' :: path)

def isR2Host (host : Text) : Bool :=
  ".r2.dev".toList.isSuffixOf host || ".r2.cloudflarestorage.com".toList.isSuffixOf host

def isOwnHost (s : StorageState) (host : Text) : Option Bool := do
  let own ← if s.publicUrl = [] then some [] else (urlparse lib s.publicUrl).map Url.netloc
  return host ≠ [] && (host = own || isR2Host host)

def partition (s : Text) : Text × Text := (s.takeWhile (fun c => c ≠ '/'), (s.dropWhile (fun c => c ≠ '/')).drop 1)

def isWeb (url : Text) : Bool := Url.http.isPrefixOf url || Url.https.isPrefixOf url

def ofPath (s : StorageState) (path : Text) : Text × Text :=
  if (partition (lstripSlash path)).2 = [] then (s.bucket, lstripSlash path) else partition (lstripSlash path)

def ofReference (s : StorageState) (url : Text) : Text × Text :=
  if s.bucket ≠ [] ∧ (s.bucket ++ ['/']).isPrefixOf (lstripSlash url) then
    (s.bucket, (lstripSlash url).drop (s.bucket.length + 1))
  else (s.bucket, lstripSlash url)

def ofWeb (s : StorageState) (parsed : Url) (own : Bool) : Text × Text :=
  if own then ofPath s parsed.path else (s.bucket, [])

/-- Nothing where `urlparse` raises `ValueError`. -/
def bucketAndPathFromUrl (s : StorageState) (url : Text) : Option (Text × Text) :=
  if url = [] then some (s.bucket, [])
  else if isWeb url then do
    let parsed ← urlparse lib url
    let own ← isOwnHost lib s parsed.netloc
    return ofWeb s parsed own
  else some (ofReference s url)

def objectPathFromUrl (s : StorageState) (url : Text) : Option Text := (bucketAndPathFromUrl lib s url).map Prod.snd

structure PublicStorage where
  connected : Bool
  bucket : Text
  publicUrl : Text

/-- Nothing where it raises `RuntimeError`. -/
def uploadPublicBytes (s : PublicStorage) (path : Text) : Option Text :=
  if s.connected then some (s.publicUrl ++ '/' :: path) else none

def beforeQuery (s : Text) : Text := s.takeWhile (fun c => c ≠ '?')

def deletePublicObjectFromUrl (s : PublicStorage) (url : Option Text) : Option Text :=
  match url with
  | none => none
  | some url =>
    if url = [] ∨ s.connected = false then none
    else if s.publicUrl.isPrefixOf url then
      if beforeQuery (lstripSlash (url.drop s.publicUrl.length)) = [] then none
      else some (beforeQuery (lstripSlash (url.drop s.publicUrl.length)))
    else none

structure KeySurvives (s : StorageState) (pub : PublicStorage) (key : Text) : Prop where
  whole : bucketAndPathFromUrl lib s (getPublicUrl s key) = some (s.bucket, key)
  bare : objectPathFromUrl lib s key = some key
  deleted : ∀ url, uploadPublicBytes pub key = some url → deletePublicObjectFromUrl pub (some url) = some key

def ReadsKey (after bucket key : Text) : Prop :=
  ∃ host rest path tail slashes, Url.cleaned (after ++ '/' :: (bucket ++ '/' :: key)) = host ++ rest ∧ host ≠ [] ∧
    (∀ c ∈ host, Url.endsHost c = false) ∧ (∃ c ∈ rest.head?, Url.endsHost c = true) ∧ Url.ReadsPath rest path tail ∧
    (∀ c ∈ slashes, c = '/') ∧
    (path = slashes ++ (bucket ++ '/' :: key) ∨ (path = slashes ++ key ∧ '/' ∉ key.dropLast))

structure KeyReadsBack (s : StorageState) (pub : PublicStorage) (key : Text) : Prop where
  url : s.publicUrl = [] ∨ ∃ lead after, (lead = Url.http ∨ lead = Url.https) ∧ s.publicUrl = lead ++ after ∧
    ReadsKey after s.bucket key
  scheme : isWeb key = false
  bucket : ¬ s.bucket ++ ['/'] <+: key
  query : pub.connected = true → '?' ∉ key

section Slashes

variable {s t : Text} {c : Char}

lemma lstripSlash_self (h : s.head? ≠ some '/') : lstripSlash s = s := by
  cases s with
  | nil => rfl
  | cons c s =>
    have hne : c ≠ '/' := fun heq => h (by rw [heq]; rfl)
    exact List.dropWhile_cons_of_neg (by simpa using hne)

lemma lstripSlash_append {slashes : Text} (h : ∀ c ∈ slashes, c = '/') (s : Text) :
    lstripSlash (slashes ++ s) = lstripSlash s :=
  List.dropWhile_append_of_pos (fun c hc => by simpa using h c hc)

lemma exists_slashes (s : Text) : ∃ slashes, (∀ c ∈ slashes, c = '/') ∧ s = slashes ++ lstripSlash s :=
  ⟨s.takeWhile (fun c => c = '/'), fun c hc => by simpa using List.mem_takeWhile_imp hc,
    List.takeWhile_append_dropWhile.symm⟩

lemma partition_append (h : '/' ∉ s) (t : Text) : partition (s ++ '/' :: t) = (s, t) := by
  have hne : ∀ c ∈ s, decide (c ≠ '/') = true := by
    intro c hc
    rw [decide_eq_true_eq]
    rintro rfl
    exact h hc
  rw [partition, List.takeWhile_append_of_pos hne, List.dropWhile_append_of_pos hne,
    List.takeWhile_cons_of_neg (by simp), List.dropWhile_cons_of_neg (by simp), List.append_nil]
  rfl

lemma partition_none (h : '/' ∉ s) : partition s = (s, []) := by
  have hne : ∀ c ∈ s, decide (c ≠ '/') = true := by
    intro c hc
    rw [decide_eq_true_eq]
    rintro rfl
    exact h hc
  rw [partition, List.takeWhile_eq_self_iff.mpr hne, List.dropWhile_eq_nil_iff.mpr hne]
  rfl

lemma append_partition (h : (partition s).2 ≠ []) : s = (partition s).1 ++ '/' :: (partition s).2 := by
  by_cases hmem : '/' ∈ s
  · obtain ⟨a, rest, rfl, ha⟩ := List.eq_append_cons_of_mem hmem
    rw [partition_append ha]
  · exact absurd (by rw [partition_none hmem]) h

lemma partition_snd_eq_nil : (partition s).2 = [] ↔ '/' ∉ s.dropLast := by
  by_cases hmem : '/' ∈ s
  · obtain ⟨a, rest, rfl, ha⟩ := List.eq_append_cons_of_mem hmem
    rw [partition_append ha, List.dropLast_append_of_ne_nil (List.cons_ne_nil _ _)]
    cases rest with
    | nil => simpa using ha
    | cons c rest => simp
  · rw [partition_none hmem]
    exact iff_of_true rfl (fun h => hmem (List.dropLast_subset s h))

end Slashes

variable {lib} {s : StorageState} {pub : PublicStorage} {key after lead path : Text}

lemma head_bucket (hbucket : s.bucket ≠ [] ∧ '/' ∉ s.bucket) : (s.bucket ++ '/' :: key).head? ≠ some '/' := by
  cases hs : s.bucket with
  | nil => exact absurd hs hbucket.1
  | cons c bucket =>
    intro heq
    have hc : c = '/' := Option.some.inj heq
    exact hbucket.2 (by rw [hs, hc]; exact List.mem_cons_self)

lemma ofPath_iff (hbucket : s.bucket ≠ [] ∧ '/' ∉ s.bucket) (hkey : key ≠ [] ∧ key.head? ≠ some '/') :
    ofPath s path = (s.bucket, key) ↔ ∃ slashes : Text, (∀ c ∈ slashes, c = '/') ∧
      (path = slashes ++ (s.bucket ++ '/' :: key) ∨ (path = slashes ++ key ∧ '/' ∉ key.dropLast)) := by
  have hhead : (s.bucket ++ '/' :: key).head? ≠ some '/' := head_bucket hbucket
  constructor
  · intro h
    obtain ⟨slashes, hslashes, hpath⟩ := exists_slashes path
    refine ⟨slashes, hslashes, ?_⟩
    rw [ofPath] at h
    split at h
    · next hnil =>
      have hrest := (Prod.mk.inj h).2
      rw [hrest] at hpath hnil
      exact .inr ⟨hpath, partition_snd_eq_nil.mp hnil⟩
    · next hne =>
      have hrest := append_partition hne
      rw [h] at hrest
      rw [hrest] at hpath
      exact .inl hpath
  · rintro ⟨slashes, hslashes, rfl | ⟨rfl, hlast⟩⟩
    · rw [ofPath, lstripSlash_append hslashes, lstripSlash_self hhead, partition_append hbucket.2, if_neg hkey.1]
    · rw [ofPath, lstripSlash_append hslashes, lstripSlash_self hkey.2, if_pos (partition_snd_eq_nil.mpr hlast)]

lemma host_unique {t host rest : Text} (heq : t = host ++ rest) (hhost : ∀ c ∈ host, Url.endsHost c = false)
    (hrest : ∃ c ∈ rest.head?, Url.endsHost c = true) : Url.hostOf t = host ∧ Url.afterHost t = rest := by
  obtain ⟨c, hc, hends⟩ := hrest
  obtain ⟨tail, rfl⟩ := List.head?_eq_some_iff.mp hc
  have hpos : ∀ c ∈ host, (!Url.endsHost c) = true := fun c hc => by simp [hhost c hc]
  rw [heq, Url.hostOf, Url.afterHost, List.takeWhile_append_of_pos hpos, List.dropWhile_append_of_pos hpos,
    List.takeWhile_cons_of_neg (by simp [hends]), List.dropWhile_cons_of_neg (by simp [hends]), List.append_nil]
  exact ⟨rfl, rfl⟩

lemma host_exists {t : Text} (h : ∃ c ∈ t, Url.endsHost c = true) :
    t = Url.hostOf t ++ Url.afterHost t ∧ (∀ c ∈ Url.hostOf t, Url.endsHost c = false) ∧
      ∃ c ∈ (Url.afterHost t).head?, Url.endsHost c = true := by
  refine ⟨List.takeWhile_append_dropWhile.symm, fun c hc => by simpa using List.mem_takeWhile_imp hc, ?_⟩
  cases hafter : Url.afterHost t with
  | nil =>
    obtain ⟨c, hc, hends⟩ := h
    have hall := List.dropWhile_eq_nil_iff.mp hafter c hc
    simp [hends] at hall
  | cons c rest =>
    have hnot := List.head?_dropWhile_not (fun c => !Url.endsHost c) t
    rw [Url.afterHost] at hafter
    rw [hafter] at hnot
    exact ⟨c, rfl, by simpa using hnot⟩

lemma hostOf_append (u w : Text) : Url.hostOf (u ++ '/' :: w) = Url.hostOf u := Url.takeWhile_stop (by decide) u w

lemma isWeb_lead (hlead : lead = Url.http ∨ lead = Url.https) (t : Text) : isWeb (lead ++ t) = true := by
  have hprefix (l : Text) : l.isPrefixOf (l ++ t) = true := List.isPrefixOf_iff_prefix.mpr (List.prefix_append l t)
  rcases hlead with rfl | rfl
  · rw [isWeb, hprefix, Bool.true_or]
  · rw [isWeb, hprefix, Bool.or_true]

lemma lead_of_isWeb {t : Text} (h : isWeb t = true) : ∃ lead after, (lead = Url.http ∨ lead = Url.https) ∧
    t = lead ++ after := by
  rw [isWeb, Bool.or_eq_true, List.isPrefixOf_iff_prefix, List.isPrefixOf_iff_prefix] at h
  rcases h with ⟨after, rfl⟩ | ⟨after, rfl⟩
  · exact ⟨_, after, .inl rfl, rfl⟩
  · exact ⟨_, after, .inr rfl, rfl⟩

lemma lead_ne_nil (hlead : lead = Url.http ∨ lead = Url.https) (t : Text) : lead ++ t ≠ [] := by
  rcases hlead with rfl | rfl <;> exact List.cons_ne_nil _ _

def Accepts (lib : UrlChecks) (s : StorageState) : Prop := ∃ u, urlparse lib s.publicUrl = some u

lemma web_result (hlead : lead = Url.http ∨ lead = Url.https) (hurl : s.publicUrl = lead ++ after)
    (haccepts : Accepts lib s) {t : Text} (ht : t = Url.cleaned (after ++ '/' :: (s.bucket ++ '/' :: key))) :
    ∃ scheme ∈ Url.usesParams, bucketAndPathFromUrl lib s (getPublicUrl s key) =
      some (ofWeb s ⟨Url.hostOf t, Url.pathOf scheme (Url.afterHost t)⟩ (decide (Url.hostOf t ≠ []))) := by
  obtain ⟨parsed, hparsed⟩ := haccepts
  obtain ⟨scheme', -, hown⟩ := Url.urlparse_web lib.netlocOk hlead after
  obtain ⟨scheme, hscheme, hparse⟩ := Url.urlparse_web lib.netlocOk hlead (after ++ '/' :: (s.bucket ++ '/' :: key))
  have hhost : Url.hostOf t = Url.hostOf (Url.cleaned after) := by
    have hfull : t = Url.cleaned after ++ '/' :: Url.cleaned (s.bucket ++ '/' :: key) := by
      rw [ht, Url.cleaned_append]
      rfl
    rw [hfull, hostOf_append]
  rw [hurl, urlparse, hown, ← hhost] at hparsed
  have hok : lib.netlocOk (Url.hostOf t) = true := by
    by_contra hno
    rw [if_neg hno] at hparsed
    cases hparsed
  rw [← hhost, if_pos hok] at hown
  rw [← ht, if_pos hok] at hparse
  have hweb : getPublicUrl s key = lead ++ (after ++ '/' :: (s.bucket ++ '/' :: key)) := by
    rw [getPublicUrl, hurl, List.append_assoc]
  have hisOwn : isOwnHost lib s (Url.hostOf t) = some (decide (Url.hostOf t ≠ [])) := by
    rw [isOwnHost, if_neg (hurl ▸ lead_ne_nil hlead after), hurl, urlparse, hown]
    simp
  refine ⟨scheme, hscheme, ?_⟩
  rw [bucketAndPathFromUrl, hweb, if_neg (lead_ne_nil hlead _), if_pos (isWeb_lead hlead _), urlparse, hparse,
    Option.bind_eq_bind, Option.bind_some, hisOwn]
  rfl

lemma whole_web_iff (hlead : lead = Url.http ∨ lead = Url.https) (hurl : s.publicUrl = lead ++ after)
    (haccepts : Accepts lib s) (hbucket : s.bucket ≠ [] ∧ '/' ∉ s.bucket) (hkey : key ≠ [] ∧ key.head? ≠ some '/') :
    bucketAndPathFromUrl lib s (getPublicUrl s key) = some (s.bucket, key) ↔ ReadsKey after s.bucket key := by
  obtain ⟨t, ht⟩ : ∃ t, t = Url.cleaned (after ++ '/' :: (s.bucket ++ '/' :: key)) := ⟨_, rfl⟩
  obtain ⟨scheme, hscheme, hresult⟩ := web_result hlead hurl haccepts ht
  rw [hresult, Option.some_inj, ofWeb]
  constructor
  · intro h
    split at h
    · next hhost =>
      obtain ⟨slashes, hslashes, hpath⟩ := (ofPath_iff hbucket hkey).mp h
      obtain ⟨tail, hreads⟩ := (Url.pathOf_iff hscheme).mp rfl
      have hslash : '/' ∈ t := by
        rw [ht, Url.cleaned_append]
        exact List.mem_append_right _ (List.mem_cons_self)
      obtain ⟨heq, hplain, hrest⟩ := host_exists ⟨'/', hslash, by decide⟩
      exact ⟨_, _, _, tail, slashes, ht ▸ heq, by simpa using hhost, hplain, hrest, hreads, hslashes, hpath⟩
    · exact absurd (Prod.mk.inj h).2.symm hkey.1
  · rintro ⟨host, rest, path, tail, slashes, heq, hne, hplain, hrest, hreads, hslashes, hpath⟩
    obtain ⟨hhost, hafter⟩ := host_unique (ht.trans heq) hplain hrest
    rw [hhost, if_pos (by simpa using hne)]
    apply (ofPath_iff hbucket hkey).mpr
    rw [hafter, (Url.pathOf_iff hscheme).mpr ⟨tail, hreads⟩]
    exact ⟨slashes, hslashes, hpath⟩

lemma ofReference_snd_iff (hbucket : s.bucket ≠ []) (hkey : key.head? ≠ some '/') :
    (ofReference s key).2 = key ↔ ¬ s.bucket ++ ['/'] <+: key := by
  rw [ofReference, lstripSlash_self hkey]
  simp only [List.isPrefixOf_iff_prefix]
  split
  · next h =>
    refine iff_of_false (fun heq => ?_) (not_not_intro h.2)
    have hle := h.2.length_le
    have hlength := congrArg List.length heq
    rw [List.length_append, List.length_singleton] at hle
    rw [List.length_drop] at hlength
    omega
  · next h => exact iff_of_true rfl (fun hprefix => h ⟨hbucket, hprefix⟩)

lemma isWeb_getPublicUrl (hlast : s.publicUrl.getLast? ≠ some '/') (hbucket : s.bucket ≠ [] ∧ '/' ∉ s.bucket)
    (h : isWeb s.publicUrl = false) : isWeb (getPublicUrl s key) = false := by
  by_contra hweb
  obtain ⟨lead, after, hlead, heq⟩ := lead_of_isWeb (eq_true_of_ne_false hweb)
  have hprefix : lead <+: s.publicUrl ++ '/' :: (s.bucket ++ '/' :: key) := ⟨after, heq.symm⟩
  rcases List.prefix_or_prefix_of_prefix hprefix (List.prefix_append _ _) with ⟨tail, htail⟩ | ⟨m, hm⟩
  · rw [← htail, isWeb_lead hlead] at h
    cases h
  · rw [← hm, List.prefix_append_right_inj] at hprefix
    have hchain : lead.IsChain (fun a b => a = '/' → b = '/') := by rcases hlead with rfl | rfl <;> decide
    cases hb : s.bucket with
    | nil => exact hbucket.1 hb
    | cons b bucket =>
      rw [hb] at hprefix
      match m, hm, hprefix with
      | [], hm, _ =>
        rw [List.append_nil] at hm
        have hself := isWeb_lead hlead []
        rw [List.append_nil, ← hm, h] at hself
        cases hself
      | [c], hm, hprefix =>
        rw [(List.cons_prefix_cons.mp hprefix).1] at hm
        apply hlast
        rcases hlead with rfl | rfl
        · rw [List.append_cancel_right (show s.publicUrl ++ ['/'] = "http:/".toList ++ ['/'] from hm)]
          rfl
        · rw [List.append_cancel_right (show s.publicUrl ++ ['/'] = "https:/".toList ++ ['/'] from hm)]
          rfl
      | c :: d :: m, hm, hprefix =>
        obtain ⟨hc, hrest⟩ := List.cons_prefix_cons.mp hprefix
        rw [← hm] at hchain
        have hd := (List.isChain_cons_cons.mp (hchain.suffix (List.suffix_append _ _))).1 hc
        rw [(List.cons_prefix_cons.mp hrest).1] at hd
        exact hbucket.2 (by rw [hb, hd]; exact List.mem_cons_self)

lemma lstripSlash_rstripped {t : Text} (hne : t ≠ []) (hlast : t.getLast? ≠ some '/') (w : Text) :
    lstripSlash (t ++ w) = lstripSlash t ++ w ∧ lstripSlash t ≠ [] := by
  have hstrip : lstripSlash t ≠ [] := by
    intro hnil
    have hall := List.dropWhile_eq_nil_iff.mp hnil
    have hmem := hall _ (List.getLast_mem hne)
    exact hlast (by rw [List.getLast?_eq_some_getLast hne]; exact congrArg some (by simpa using hmem))
  refine ⟨?_, hstrip⟩
  rw [lstripSlash, List.dropWhile_append, if_neg]
  · rfl
  · rw [List.isEmpty_iff]
    exact hstrip

lemma whole_plain_iff (hlast : s.publicUrl.getLast? ≠ some '/') (hbucket : s.bucket ≠ [] ∧ '/' ∉ s.bucket)
    (hweb : isWeb s.publicUrl = false) :
    bucketAndPathFromUrl lib s (getPublicUrl s key) = some (s.bucket, key) ↔ s.publicUrl = [] := by
  have hne : getPublicUrl s key ≠ [] := by simp [getPublicUrl]
  have hplain : isWeb (getPublicUrl s key) = false := isWeb_getPublicUrl hlast hbucket hweb
  have hhead : (s.bucket ++ '/' :: key).head? ≠ some '/' := head_bucket hbucket
  rw [bucketAndPathFromUrl, if_neg hne, if_neg (by simp [hplain]), Option.some_inj]
  constructor
  · intro h
    by_contra hurl
    have hkey' := congrArg (fun p => List.length p.2) h
    obtain ⟨hstrip, hpos⟩ := lstripSlash_rstripped hurl hlast ('/' :: (s.bucket ++ '/' :: key))
    have hlength := List.length_pos_of_ne_nil hpos
    rw [ofReference, getPublicUrl, hstrip] at hkey'
    dsimp only at hkey'
    split at hkey' <;>
    · simp only [List.length_drop, List.length_append, List.length_cons] at hkey'
      omega
  · intro hurl
    have hstrip : lstripSlash (getPublicUrl s key) = s.bucket ++ '/' :: key := by
      rw [getPublicUrl, hurl]
      exact lstripSlash_self hhead
    have hprefix : (s.bucket ++ ['/']).isPrefixOf (s.bucket ++ '/' :: key) = true :=
      List.isPrefixOf_iff_prefix.mpr ⟨key, by simp⟩
    have hdrop : (s.bucket ++ '/' :: key).drop (s.bucket.length + 1) = key := by
      rw [← List.drop_drop, List.drop_left]
      rfl
    rw [ofReference, hstrip, if_pos ⟨hbucket.1, hprefix⟩, hdrop]

lemma pathOf_length {scheme : Text} (h : scheme ∈ Url.usesParams) (t : Text) :
    (Url.pathOf scheme t).length ≤ t.length := by
  obtain ⟨tail, hreads⟩ := (Url.pathOf_iff h).mp (rfl : Url.pathOf scheme t = _)
  have hlength := congrArg List.length hreads.eq
  rw [List.length_append] at hlength
  omega

lemma ofWeb_length (s : StorageState) (parsed : Url) (own : Bool) :
    (ofWeb s parsed own).2.length ≤ parsed.path.length := by
  have hstrip : (lstripSlash parsed.path).length ≤ parsed.path.length := (List.dropWhile_suffix _).length_le
  rw [ofWeb]
  split
  · rw [ofPath]
    split
    · exact hstrip
    · have hsuffix : (partition (lstripSlash parsed.path)).2 <:+ lstripSlash parsed.path :=
        (List.drop_suffix 1 _).trans (List.dropWhile_suffix _)
      exact Nat.le_trans hsuffix.length_le hstrip
  · exact Nat.zero_le _

lemma bare_web (hkey : isWeb key = true) : objectPathFromUrl lib s key ≠ some key := by
  obtain ⟨lead, after, hlead, rfl⟩ := lead_of_isWeb hkey
  obtain ⟨scheme, hscheme, hparse⟩ := Url.urlparse_web lib.netlocOk hlead after
  intro h
  obtain ⟨result, hresult, heq⟩ := Option.map_eq_some_iff.mp h
  rw [bucketAndPathFromUrl, if_neg (lead_ne_nil hlead after), if_pos hkey] at hresult
  obtain ⟨parsed, hparsed, hrest⟩ := Option.bind_eq_some_iff.mp hresult
  obtain ⟨own, -, hown⟩ := Option.bind_eq_some_iff.mp hrest
  obtain rfl := Option.some.inj hown
  have hpath : parsed.path = Url.pathOf scheme (Url.afterHost (Url.cleaned after)) := by
    rw [urlparse, hparse] at hparsed
    split at hparsed
    · rw [← Option.some.inj hparsed]
    · cases hparsed
  have hle := ofWeb_length s parsed own
  have hpathLe := pathOf_length hscheme (Url.afterHost (Url.cleaned after))
  have hhostLe : (Url.afterHost (Url.cleaned after)).length ≤ (Url.cleaned after).length :=
    (List.dropWhile_suffix _).length_le
  have hcleanLe : (Url.cleaned after).length ≤ after.length := List.length_filter_le _ _
  have hpos : 0 < lead.length := by rcases hlead with rfl | rfl <;> decide
  rw [heq, List.length_append, hpath] at hle
  omega

lemma bare_iff (lib : UrlChecks) (hbucket : s.bucket ≠ []) (hkey : key ≠ [] ∧ key.head? ≠ some '/') :
    objectPathFromUrl lib s key = some key ↔ isWeb key = false ∧ ¬ s.bucket ++ ['/'] <+: key := by
  cases hweb : isWeb key with
  | true => exact iff_of_false (bare_web hweb) (fun h => Bool.noConfusion h.1)
  | false =>
    rw [objectPathFromUrl, bucketAndPathFromUrl, if_neg hkey.1, if_neg (by simp [hweb]), Option.map_some,
      Option.some_inj, ofReference_snd_iff hbucket hkey.2]
    exact (and_iff_right rfl).symm

lemma beforeQuery_eq_self_iff : beforeQuery key = key ↔ '?' ∉ key := by
  rw [beforeQuery, List.takeWhile_eq_self_iff]
  constructor
  · intro h hmem
    exact absurd (h _ hmem) (by decide)
  · intro h c hc
    rw [decide_eq_true_eq]
    rintro rfl
    exact h hc

lemma deleted_iff (pub : PublicStorage) (hkey : key ≠ [] ∧ key.head? ≠ some '/') :
    (∀ url, uploadPublicBytes pub key = some url → deletePublicObjectFromUrl pub (some url) = some key) ↔
      (pub.connected = true → '?' ∉ key) := by
  cases hconnected : pub.connected with
  | false =>
    refine iff_of_true (fun url hurl => ?_) (fun h => Bool.noConfusion h)
    rw [uploadPublicBytes, hconnected] at hurl
    cases hurl
  | true =>
    have hupload : uploadPublicBytes pub key = some (pub.publicUrl ++ '/' :: key) := by
      rw [uploadPublicBytes, hconnected]
      rfl
    have hdelete : deletePublicObjectFromUrl pub (some (pub.publicUrl ++ '/' :: key)) =
        if beforeQuery key = [] then none else some (beforeQuery key) := by
      have hprefix : pub.publicUrl.isPrefixOf (pub.publicUrl ++ '/' :: key) = true :=
        List.isPrefixOf_iff_prefix.mpr (List.prefix_append _ _)
      have hstrip : lstripSlash ('/' :: key) = key := lstripSlash_self (s := key) hkey.2
      rw [deletePublicObjectFromUrl, if_neg (by simp [hconnected]), if_pos hprefix, List.drop_left, hstrip]
    simp only [hupload, Option.some.injEq, forall_eq', hdelete, forall_true_left]
    rw [← beforeQuery_eq_self_iff]
    split
    · next hnil => exact iff_of_false (fun h => nomatch h) (fun h => hkey.1 (h.symm.trans hnil))
    · rw [Option.some_inj]

lemma initStorage_connected {before : StorageState} {endpoint bucket publicUrl : Text} {secure : Bool}
    (h : (initStorage lib before endpoint bucket publicUrl secure).connected = true) :
    (initStorage lib before endpoint bucket publicUrl secure).bucket = bucket ∧
      (initStorage lib before endpoint bucket publicUrl secure).publicUrl.getLast? ≠ some '/' ∧
      Accepts lib (initStorage lib before endpoint bucket publicUrl secure) := by
  rw [initStorage] at h ⊢
  split at h
  · next hendpoint =>
    rw [if_pos hendpoint]
    refine ⟨rfl, ?_, ?_⟩
    · intro hlast
      rw [publicUrlOf, rstripSlash, List.getLast?_reverse] at hlast
      have hnot := List.head?_dropWhile_not (fun c => decide (c = '/'))
        (if publicUrl = [] then endpointUrlOf endpoint secure else publicUrl).reverse
      rw [hlast] at hnot
      exact absurd hnot (by decide)
    · rw [signingOk] at h
      split at h
      · cases h
      · next sign hsign => exact ⟨sign, hsign⟩
  · cases h

lemma readsKey_plain {bucket : Text} (hne : after ≠ [])
    (hafter : ∀ c ∈ after, Url.endsHost c = false ∧ Url.isRemoved c = false)
    (hbucket : ∀ c ∈ bucket, Url.isMark c = false ∧ Url.isRemoved c = false)
    (hkey : ∀ c ∈ key, Url.isMark c = false ∧ Url.isRemoved c = false) (hparams : ';' ∉ Url.lastSegment key) :
    ReadsKey after bucket key := by
  have hpath : ∀ c ∈ '/' :: (bucket ++ '/' :: key), Url.isMark c = false ∧ Url.isRemoved c = false := by
    intro c hc
    rcases List.mem_cons.mp hc with rfl | hc
    · decide
    · rcases List.mem_append.mp hc with hc | hc
      · exact hbucket c hc
      · rcases List.mem_cons.mp hc with rfl | hc
        · decide
        · exact hkey c hc
  have hsegment : Url.lastSegment ('/' :: (bucket ++ '/' :: key)) = Url.lastSegment key :=
    Url.lastSegment_slash ('/' :: bucket) key
  refine ⟨after, _, _, [], ['/'], ?_, hne, fun c hc => (hafter c hc).1, ⟨'/', rfl, by decide⟩,
    ⟨(List.append_nil _).symm, fun c hc => (hpath c hc).1, hsegment ▸ hparams, fun _ _ h => nomatch h⟩,
    fun c hc => List.mem_singleton.mp hc, .inl rfl⟩
  rw [Url.cleaned_append, Url.cleaned_self (fun c hc => (hafter c hc).2), Url.cleaned_self (fun c hc => (hpath c hc).2)]

theorem keySurvives_iff (lib : UrlChecks) (before : StorageState) (endpoint bucket publicUrl : Text) (secure : Bool)
    (hinit : (initStorage lib before endpoint bucket publicUrl secure).connected = true)
    (hbucket : bucket ≠ [] ∧ '/' ∉ bucket) (pub : PublicStorage) (key : Text)
    (hkey : key ≠ [] ∧ key.head? ≠ some '/') :
    KeySurvives lib (initStorage lib before endpoint bucket publicUrl secure) pub key ↔
      KeyReadsBack (initStorage lib before endpoint bucket publicUrl secure) pub key := by
  obtain ⟨hname, hlast, haccepts⟩ := initStorage_connected hinit
  generalize initStorage lib before endpoint bucket publicUrl secure = s at hname hlast haccepts
  rw [← hname] at hbucket
  have hbare := bare_iff lib hbucket.1 hkey
  have hdeleted := deleted_iff pub hkey
  have hwhole : bucketAndPathFromUrl lib s (getPublicUrl s key) = some (s.bucket, key) ↔ s.publicUrl = [] ∨
      ∃ lead after, (lead = Url.http ∨ lead = Url.https) ∧ s.publicUrl = lead ++ after ∧
        ReadsKey after s.bucket key := by
    constructor
    · intro h
      cases hweb : isWeb s.publicUrl with
      | true =>
        obtain ⟨lead, after, hlead, hurl⟩ := lead_of_isWeb hweb
        exact .inr ⟨lead, after, hlead, hurl, (whole_web_iff hlead hurl haccepts hbucket hkey).mp h⟩
      | false => exact .inl ((whole_plain_iff hlast hbucket hweb).mp h)
    · rintro (hurl | ⟨lead, after, hlead, hurl, hreads⟩)
      · exact (whole_plain_iff hlast hbucket (by rw [hurl]; rfl)).mpr hurl
      · exact (whole_web_iff hlead hurl haccepts hbucket hkey).mpr hreads
  constructor
  · rintro ⟨h, hkey', hdel⟩
    exact ⟨hwhole.mp h, (hbare.mp hkey').1, (hbare.mp hkey').2, hdeleted.mp hdel⟩
  · rintro ⟨h, hscheme, hprefix, hquery⟩
    exact ⟨hwhole.mpr h, hbare.mpr ⟨hscheme, hprefix⟩, hdeleted.mpr hquery⟩

def usualChecks : UrlChecks where
  netlocOk host := !host.contains '[' && !host.contains ']'
  endpointOk url := isWeb url

def unconnected : StorageState := ⟨false, [], []⟩

def connectedPublic : PublicStorage := ⟨true, "public".toList, "https://cdn.example.com".toList⟩

def docsStorage : StorageState :=
  initStorage usualChecks unconnected "r2.invalid".toList "docs".toList "https://files.example.com/".toList true

theorem keySurvives_photo : docsStorage.connected = true ∧ ("docs".toList ≠ [] ∧ '/' ∉ "docs".toList) ∧
    ("leads/7/photo.png".toList ≠ [] ∧ "leads/7/photo.png".toList.head? ≠ some '/') ∧
    KeySurvives usualChecks docsStorage connectedPublic "leads/7/photo.png".toList := by
  have hinit : docsStorage.connected = true := by decide
  have hbucket : "docs".toList ≠ [] ∧ '/' ∉ "docs".toList := by decide
  have hkey : "leads/7/photo.png".toList ≠ [] ∧ "leads/7/photo.png".toList.head? ≠ some '/' := by decide
  refine ⟨hinit, hbucket, hkey, (keySurvives_iff usualChecks unconnected _ _ _ true hinit hbucket connectedPublic _
    hkey).mpr ⟨.inr ⟨Url.https, "files.example.com".toList, .inr rfl, by decide, ?_⟩, by decide, by decide, by decide⟩⟩
  exact readsKey_plain (by decide) (forall_of_all (by decide)) (forall_of_all (by decide)) (forall_of_all (by decide))
    (by decide)

theorem keySurvives_query :
    bucketAndPathFromUrl usualChecks docsStorage (getPublicUrl docsStorage "photo?2.png".toList) =
      some ("docs".toList, "photo".toList) ∧
    ¬ KeySurvives usualChecks docsStorage connectedPublic "photo?2.png".toList := by
  refine ⟨by decide, fun h => ?_⟩
  exact absurd h.whole (by decide)

end TheCargo.Storage
