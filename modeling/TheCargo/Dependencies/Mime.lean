import Mathlib.Data.List.Infix
import TheCargo.Foundation.PyString

namespace TheCargo.Dependencies

open Foundation

abbrev Bytes := List UInt8

structure HTTPException where
  status : ℕ
  detail : String
  deriving DecidableEq

def ascii (s : String) : Bytes := s.toList.map (fun c => UInt8.ofNat c.toNat)

def startsWith (lead s : String) : Bool := lead.toList.isPrefixOf s.toList

def isAllowed (contentType : String) (exact allowed : List String) : Bool :=
  (exact.isEmpty && allowed.isEmpty) || exact.contains contentType || allowed.any (fun p => startsWith p contentType)

def checkMime (contentType : String) (exact allowed : List String) : Except HTTPException Unit :=
  if isAllowed contentType exact allowed then .ok ()
  else .error ⟨415, "Unsupported MIME type: " ++ contentType⟩

def markupPrefixes : List Bytes :=
  [ascii "<?xml", ascii "<!doctype", ascii "<html", ascii "<svg", ascii "<script", ascii "<!--", ascii "<?php"]

def png : Bytes := [0x89, 0x50, 0x4E, 0x47, 0x0D, 0x0A, 0x1A, 0x0A]

def jpeg : Bytes := [0xFF, 0xD8, 0xFF]

def ole : Bytes := [0xD0, 0xCF, 0x11, 0xE0, 0xA1, 0xB1, 0x1A, 0xE1]

def sniff (raw : Bytes) : Option String :=
  if png.isPrefixOf raw then some "image/png"
  else if jpeg.isPrefixOf raw then some "image/jpeg"
  else if (ascii "GIF87a").isPrefixOf raw || (ascii "GIF89a").isPrefixOf raw then some "image/gif"
  else if (ascii "RIFF").isPrefixOf raw && (raw.drop 8).take 4 == ascii "WEBP" then some "image/webp"
  else if (ascii "%PDF-").isPrefixOf raw then some "application/pdf"
  else if (ascii "PK" ++ [3, 4]).isPrefixOf raw then some "application/zip"
  else if ole.isPrefixOf raw then some "application/msword"
  else none

/-- What `bytes.lstrip` removes. -/
def isBlank (b : UInt8) : Bool := b = 32 || (9 ≤ b && b ≤ 13)

def lowerByte (b : UInt8) : UInt8 := if 65 ≤ b && b ≤ 90 then b + 32 else b

def looksLikeMarkup (raw : Bytes) : Bool :=
  markupPrefixes.any (fun p => p.isPrefixOf (((raw.take 512).dropWhile isBlank).map lowerByte))

def isZipContainer (sniffed declared : String) : Bool :=
  sniffed == "application/zip" && (declared == "application/zip" || startsWith "application/vnd." declared)

def resolveMime (raw : Bytes) (declared : String) (exact allowed : List String) : Except HTTPException String :=
  match sniff raw with
  | none =>
    if looksLikeMarkup raw then .error ⟨415, "Markup and script uploads are not accepted"⟩
    else (checkMime declared exact allowed).map (fun _ => declared)
  | some sniffed =>
    if isZipContainer sniffed declared then (checkMime declared exact allowed).map (fun _ => declared)
    else (checkMime sniffed exact allowed).map (fun _ => sniffed)

def byteOrderMark : Bytes := [0xEF, 0xBB, 0xBF]

def Opens (p rest : Bytes) : Prop := p ∈ markupPrefixes ∧ p <+: rest.map lowerByte

def IsMarkup (raw : Bytes) : Prop :=
  ∃ pad mark pad' rest p, raw = pad ++ mark ++ pad' ++ rest ∧ (∀ b ∈ pad ++ pad', isBlank b = true) ∧
    (mark = [] ∨ mark = byteOrderMark) ∧ Opens p rest

def ShowsMarkup (raw : Bytes) : Prop :=
  ∃ pad rest p, raw = pad ++ rest ∧ (∀ b ∈ pad, isBlank b = true) ∧ Opens p rest ∧ pad.length + p.length ≤ 512

structure ResolvesSafely (raw : Bytes) (declared : String) (exact allowed : List String) : Prop where
  refuses : IsMarkup raw → ∃ detail, resolveMime raw declared exact allowed = .error ⟨415, detail⟩
  checked : ∀ t, ¬ IsMarkup raw → resolveMime raw declared exact allowed = .ok t → checkMime t exact allowed = .ok ()
  sniffed : ∀ t s, ¬ IsMarkup raw → resolveMime raw declared exact allowed = .ok t → sniff raw = some s →
    t = s ∨ (isZipContainer s declared = true ∧ t = declared)

variable {raw rest p : Bytes} {declared t s : String} {exact allowed : List String} {b : UInt8}

lemma checkMime_ok_iff : checkMime t exact allowed = .ok () ↔ isAllowed t exact allowed = true := by
  rw [checkMime]
  split
  · next h => exact iff_of_true rfl h
  · next h => exact iff_of_false (fun heq => nomatch heq) h

lemma checked_ok_iff {u : String} :
    (checkMime u exact allowed).map (fun _ => u) = .ok t ↔ u = t ∧ isAllowed u exact allowed = true := by
  rw [checkMime]
  split
  · next h =>
    rw [Except.map, Except.ok.injEq]
    exact (and_iff_left h).symm
  · next h => exact iff_of_false (fun heq => nomatch heq) (fun hu => h hu.2)

lemma resolveMime_ok (h : resolveMime raw declared exact allowed = .ok t) :
    isAllowed t exact allowed = true ∧
      ∀ s, sniff raw = some s → t = s ∨ (isZipContainer s declared = true ∧ t = declared) := by
  rw [resolveMime] at h
  split at h
  · next hnone =>
    split at h
    · cases h
    · obtain ⟨rfl, hallowed⟩ := checked_ok_iff.mp h
      refine ⟨hallowed, fun s hs => ?_⟩
      rw [hnone] at hs
      cases hs
  · next sniffed hsniffed =>
    split at h
    · next hzip =>
      obtain ⟨rfl, hallowed⟩ := checked_ok_iff.mp h
      refine ⟨hallowed, fun s hs => .inr ⟨?_, rfl⟩⟩
      obtain rfl := Option.some.inj (hsniffed.symm.trans hs)
      exact hzip
    · obtain ⟨rfl, hallowed⟩ := checked_ok_iff.mp h
      exact ⟨hallowed, fun s hs => .inl (Option.some.inj (hsniffed.symm.trans hs))⟩

lemma opens_head (h : Opens p rest) : rest.head? = some 60 := by
  obtain ⟨hp, hprefix⟩ := h
  have hhead : ∀ p ∈ markupPrefixes, p.head? = some 60 := by decide
  cases rest with
  | nil =>
    have hnil := hhead p hp
    rw [List.prefix_nil.mp hprefix] at hnil
    cases hnil
  | cons b rest =>
    obtain ⟨tail, htail⟩ := hprefix
    have hb : (p ++ tail).head? = some 60 := by
      rw [List.head?_append, hhead p hp]
      rfl
    rw [htail, List.map_cons, List.head?_cons, Option.some.injEq] at hb
    have hlower : lowerByte b = 60 → b = 60 := by
      rw [lowerByte]
      split
      · next hupper =>
        intro h
        simp only [Bool.and_eq_true, decide_eq_true_eq, UInt8.le_iff_toNat_le] at hupper
        have hsum := congrArg UInt8.toNat h
        rw [UInt8.toNat_add] at hsum
        simp only [UInt8.reduceToNat] at hsum hupper
        omega
      · exact id
    rw [List.head?_cons, hlower hb]

lemma isBlank_mark : isBlank 60 = false := by decide

lemma looksLikeMarkup_of_shows (h : ShowsMarkup raw) : looksLikeMarkup raw = true := by
  obtain ⟨pad, rest, p, rfl, hpad, hopens, hle⟩ := h
  have hhead := opens_head hopens
  have htake : (pad ++ rest).take 512 = pad ++ rest.take (512 - pad.length) := by
    rw [List.take_append, List.take_of_length_le (by omega)]
  have hpos : 0 < p.length := by
    have hne : ∀ p ∈ markupPrefixes, 0 < p.length := by decide
    exact hne p hopens.1
  have hdrop : (rest.take (512 - pad.length)).dropWhile isBlank = rest.take (512 - pad.length) := by
    cases rest with
    | nil => rw [List.take_nil, List.dropWhile_nil]
    | cons b rest =>
      rw [List.head?_cons, Option.some.injEq] at hhead
      obtain ⟨n, hn⟩ := Nat.exists_eq_add_of_le' (show 1 ≤ 512 - pad.length by omega)
      rw [hn, List.take_succ_cons, List.dropWhile_cons_of_neg (by simp [hhead, isBlank_mark])]
  rw [looksLikeMarkup, List.any_eq_true]
  refine ⟨p, hopens.1, ?_⟩
  rw [htake, List.dropWhile_append_of_pos hpad, hdrop, List.isPrefixOf_iff_prefix, List.map_take]
  exact List.prefix_take_iff.mpr ⟨hopens.2, by omega⟩

lemma shows_of_looksLikeMarkup (h : looksLikeMarkup raw = true) : ShowsMarkup raw := by
  rw [looksLikeMarkup, List.any_eq_true] at h
  obtain ⟨p, hp, hprefix⟩ := h
  rw [List.isPrefixOf_iff_prefix] at hprefix
  have hparts : (raw.take 512).takeWhile isBlank ++ (raw.take 512).dropWhile isBlank = raw.take 512 :=
    List.takeWhile_append_dropWhile
  refine ⟨(raw.take 512).takeWhile isBlank, (raw.take 512).dropWhile isBlank ++ raw.drop 512, p, ?_, ?_, ⟨hp, ?_⟩, ?_⟩
  · rw [← List.append_assoc, hparts, List.take_append_drop]
  · exact fun b hb => List.mem_takeWhile_imp hb
  · rw [List.map_append]
    exact hprefix.trans (List.prefix_append _ _)
  · have hlength := congrArg List.length hparts
    have hle := hprefix.length_le
    have htake : (raw.take 512).length ≤ 512 := List.length_take_le 512 raw
    rw [List.length_append] at hlength
    rw [List.length_map] at hle
    omega

lemma isMarkup_head (h : IsMarkup raw) : ∃ b tail, raw = b :: tail ∧ (isBlank b = true ∨ b = 0xEF ∨ b = 60) := by
  obtain ⟨pad, mark, pad', rest, p, rfl, hpad, hmark, hopens⟩ := h
  have hhead := opens_head hopens
  cases pad with
  | cons b pad => exact ⟨b, pad ++ mark ++ pad' ++ rest, rfl, .inl (hpad b (by simp))⟩
  | nil =>
    rcases hmark with rfl | rfl
    · cases pad' with
      | cons b pad' => exact ⟨b, pad' ++ rest, rfl, .inl (hpad b (by simp))⟩
      | nil =>
        cases rest with
        | nil => cases hhead
        | cons b rest => exact ⟨b, rest, rfl, .inr (.inr (Option.some.inj hhead))⟩
    · exact ⟨0xEF, [0xBB, 0xBF] ++ pad' ++ rest, rfl, .inr (.inl rfl)⟩

def signatureHeads : Bytes := [0x89, 0xFF, 0x47, 0x52, 0x25, 0x50, 0xD0]

lemma sniff_none {tail : Bytes} (h : ∀ c ∈ signatureHeads, c ≠ b) : sniff (b :: tail) = none := by
  have hsig (c : UInt8) (hc : c ∈ signatureHeads) (sig : Bytes) : (c :: sig).isPrefixOf (b :: tail) = false := by
    rw [List.isPrefixOf, beq_eq_false_iff_ne.mpr (h c hc), Bool.false_and]
  have hpng : png.isPrefixOf (b :: tail) = false := hsig 0x89 (by decide) _
  have hjpeg : jpeg.isPrefixOf (b :: tail) = false := hsig 0xFF (by decide) _
  have hgif : (ascii "GIF87a").isPrefixOf (b :: tail) = false := hsig 0x47 (by decide) _
  have hgif' : (ascii "GIF89a").isPrefixOf (b :: tail) = false := hsig 0x47 (by decide) _
  have hriff : (ascii "RIFF").isPrefixOf (b :: tail) = false := hsig 0x52 (by decide) _
  have hpdf : (ascii "%PDF-").isPrefixOf (b :: tail) = false := hsig 0x25 (by decide) _
  have hzip : (ascii "PK" ++ [3, 4]).isPrefixOf (b :: tail) = false := hsig 0x50 (by decide) _
  have hole : ole.isPrefixOf (b :: tail) = false := hsig 0xD0 (by decide) _
  simp [sniff, hpng, hjpeg, hgif, hgif', hriff, hpdf, hzip, hole]

lemma sniff_markup (h : IsMarkup raw) : sniff raw = none := by
  obtain ⟨b, tail, rfl, hb⟩ := isMarkup_head h
  apply sniff_none
  rintro c hc rfl
  have hsolid : ∀ c ∈ signatureHeads, ¬ (isBlank c = true ∨ c = 0xEF ∨ c = 60) :=
    forall_of_all (by decide)
  exact hsolid c hc hb

theorem resolvesSafely_iff (raw : Bytes) (declared : String) (exact allowed : List String) :
    ResolvesSafely raw declared exact allowed ↔
      (IsMarkup raw → ShowsMarkup raw ∨ isAllowed declared exact allowed = false) := by
  constructor
  · rintro ⟨hrefuses, -, -⟩ hmarkup
    obtain ⟨detail, herror⟩ := hrefuses hmarkup
    by_contra hnot
    obtain ⟨hshows, hallowed⟩ := not_or.mp hnot
    have hhidden : ¬ looksLikeMarkup raw = true := fun h => hshows (shows_of_looksLikeMarkup h)
    rw [resolveMime, sniff_markup hmarkup] at herror
    dsimp only at herror
    rw [if_neg hhidden, checked_ok_iff.mpr ⟨rfl, by simpa using hallowed⟩] at herror
    cases herror
  · intro h
    refine ⟨?_, ?_, ?_⟩
    · intro hmarkup
      rw [resolveMime, sniff_markup hmarkup]
      dsimp only
      rcases h hmarkup with hshows | hallowed
      · rw [if_pos (looksLikeMarkup_of_shows hshows)]
        exact ⟨_, rfl⟩
      · split
        · exact ⟨_, rfl⟩
        · rw [checkMime, hallowed]
          exact ⟨_, rfl⟩
    · exact fun t _ ht => checkMime_ok_iff.mpr (resolveMime_ok ht).1
    · exact fun t s _ ht hs => (resolveMime_ok ht).2 s hs

def markedScript : Bytes := byteOrderMark ++ ascii "<script>"

theorem resolvesSafely_markedScript : resolveMime markedScript "text/plain" ["text/plain"] [] = .ok "text/plain" ∧
    ¬ ResolvesSafely markedScript "text/plain" ["text/plain"] [] := by
  have hok : resolveMime markedScript "text/plain" ["text/plain"] [] = .ok "text/plain" := by decide
  refine ⟨hok, fun h => ?_⟩
  obtain ⟨detail, herror⟩ := h.refuses
    ⟨[], byteOrderMark, [], ascii "<script>", ascii "<script", rfl, by simp, .inr rfl, by decide, by decide⟩
  rw [hok] at herror
  cases herror

end TheCargo.Dependencies
