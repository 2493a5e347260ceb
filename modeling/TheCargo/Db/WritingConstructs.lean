import Mathlib.Data.List.Forall2
import Mathlib.Data.List.Infix
import TheCargo.Db.Postgres

namespace TheCargo.Db.Postgres

open Lexeme

inductive Construct
  | insertInto
  | deleteFrom
  | mergeInto
  | updateSet
  | rowLock
  | selectInto
  deriving DecidableEq

def AreKeywords (ss : List String) (ts : List Lexeme) : Prop := List.Forall₂ (fun s t => t.isKeyword s = true) ss ts

def IsAlias (ts : List Lexeme) : Prop :=
  ts = [] ∨ (∃ b, ts = [b] ∧ b.isName = true) ∨ ∃ a b, ts = [a, b] ∧ a.isKeyword "as" = true ∧ b.isName = true

namespace Construct

def found : Construct → List Lexeme → Bool
  | .insertInto => Postgres.insertInto
  | .deleteFrom => Postgres.deleteFrom
  | .mergeInto => Postgres.mergeInto
  | .updateSet => Postgres.updateSet
  | .rowLock => Postgres.rowLock
  | .selectInto => Postgres.selectInto

def keywords : Construct → List (List String)
  | .insertInto => [["insert", "into"]]
  | .deleteFrom => [["delete", "from"]]
  | .mergeInto => [["merge", "into"]]
  | .updateSet => []
  | .rowLock => [["for", "update"], ["for", "share"], ["for", "key", "share"], ["for", "no", "key", "update"]]
  | .selectInto => [["select"]]

/-- The tokens of the construct, from its first keyword to its last, and those that follow; of a `SELECT INTO` the
first keyword only. -/
def Words : Construct → List Lexeme → List Lexeme → Prop
  | .updateSet, ws, rest => ∃ update middle set after, ws = update :: middle ++ [set] ∧
      update.isKeyword "update" = true ∧ set.isKeyword "set" = true ∧ IsAlias after ∧
      target (middle ++ set :: rest) = some (after ++ set :: rest)
  | c, ws, rest => c.found (ws ++ rest) = true ∧ ∃ ss ∈ c.keywords, AreKeywords ss ws

end Construct

structure Occurs (sql : List Char) (c : Construct) (pre span post : List Lexeme) : Prop where
  lexed : lex sql = pre ++ span ++ post
  words : c.Words (span.filter isToken) (post.filter isToken)
  starts : span.head?.any isToken = true
  ends : span.getLast?.any isToken = true

section Spans

variable {α : Type*} {p : α → Bool} {a b : α} {xs before ws rest : List α}

lemma exists_span (h : xs.filter p = before ++ ws ++ rest) (hws : ws ≠ []) :
    ∃ pre span post, xs = pre ++ span ++ post ∧ span.filter p = ws ∧ post.filter p = rest ∧
      span.head?.any p = true ∧ span.getLast?.any p = true := by
  obtain ⟨l, post, rfl, hl, hpost⟩ := List.filter_eq_append_iff.mp h
  obtain ⟨pre, l, rfl, -, hl⟩ := List.filter_eq_append_iff.mp hl
  obtain ⟨first, ws, rfl⟩ := List.exists_cons_of_ne_nil hws
  obtain ⟨skip, l, rfl, -, hfirst, hl⟩ := List.filter_eq_cons_iff.mp hl
  rcases List.eq_nil_or_concat' ws with rfl | ⟨init, last, rfl⟩
  · refine ⟨pre ++ skip, [first], l ++ post, by simp, by simp [hfirst], ?_, by simpa using hfirst,
      by simpa using hfirst⟩
    rw [List.filter_append, hl, hpost, List.nil_append]
  · obtain ⟨l, tail, rfl, rfl, htail⟩ := List.filter_eq_append_iff.mp hl
    obtain ⟨skip', tail, rfl, hskip, hlast, htail⟩ := List.filter_eq_cons_iff.mp htail
    have hnone : skip'.filter p = [] := List.filter_eq_nil_iff.mpr hskip
    refine ⟨pre ++ skip, first :: (l ++ skip') ++ [last], tail ++ post, by simp, ?_, ?_, by simpa using hfirst, ?_⟩
    · simp [hfirst, hnone, hlast]
    · rw [List.filter_append, htail, hpost, List.nil_append]
    · rw [List.getLast?_append]
      simpa using hlast

lemma span_cons (hstart : xs.head?.any p = true) (h : xs.filter p = a :: ws) :
    ∃ rest, xs = a :: rest ∧ rest.filter p = ws := by
  cases xs with
  | nil => cases hstart
  | cons b rest =>
    rw [List.filter_cons_of_pos (by simpa using hstart)] at h
    obtain ⟨rfl, hrest⟩ := List.cons.inj h
    exact ⟨rest, rfl, hrest⟩

lemma span_concat (hend : xs.getLast?.any p = true) (h : xs.filter p = ws ++ [b]) :
    ∃ init, xs = init ++ [b] ∧ init.filter p = ws := by
  rcases List.eq_nil_or_concat' xs with rfl | ⟨init, c, rfl⟩
  · cases hend
  · have hc : p c = true := by simpa using hend
    rw [List.filter_append, List.filter_cons_of_pos hc, List.filter_nil] at h
    obtain ⟨hinit, hlast⟩ := List.append_inj' h rfl
    obtain rfl := (List.cons.inj hlast).1
    exact ⟨init, rfl, hinit⟩

lemma span_singleton (hstart : xs.head?.any p = true) (hend : xs.getLast?.any p = true) (h : xs.filter p = [a]) :
    xs = [a] := by
  obtain ⟨rest, rfl, hrest⟩ := span_cons hstart h
  rcases List.eq_nil_or_concat' rest with rfl | ⟨init, c, rfl⟩
  · rfl
  · have hc : p c = true := by
      rw [← List.cons_append, List.getLast?_append] at hend
      simpa using hend
    have hmem : c ∈ (init ++ [c]).filter p := List.mem_filter.mpr ⟨by simp, hc⟩
    rw [hrest] at hmem
    cases hmem

end Spans

section Targets

variable {ts rest : List Lexeme}

lemma qualifiedRest_suffix (ts : List Lexeme) : qualifiedRest ts <:+ ts := by
  fun_induction qualifiedRest ts with
  | case1 dot t ts _ ih => exact ih.trans (List.suffix_append [dot, t] ts)
  | case2 => exact List.suffix_rfl
  | case3 => exact List.suffix_rfl

lemma qualifiedName_suffix (h : qualifiedName ts = some rest) : rest <:+ ts := by
  rw [qualifiedName.eq_def] at h
  split at h
  · split at h
    · rename_i t ts _
      obtain rfl := Option.some.inj h
      exact (qualifiedRest_suffix ts).trans (List.suffix_cons t ts)
    · cases h
  · cases h

lemma dropStar_suffix (ts : List Lexeme) : dropStar ts <:+ ts := by
  rw [dropStar.eq_def]
  split
  · split
    · exact List.suffix_cons ..
    · exact List.suffix_rfl
  · exact List.suffix_rfl

lemma starred_suffix (h : (qualifiedName ts).map dropStar = some rest) : rest <:+ ts := by
  obtain ⟨after, hafter, rfl⟩ := Option.map_eq_some_iff.mp h
  exact (dropStar_suffix after).trans (qualifiedName_suffix hafter)

lemma target_suffix (h : target ts = some rest) : rest <:+ ts := by
  rw [target.eq_def] at h
  split at h
  · rename_i only t ts
    split at h
    · split at h
      · split at h
        · rename_i close after hname
          split at h
          · obtain rfl := Option.some.inj h
            have hclose := (List.suffix_cons close after).trans (qualifiedName_suffix hname)
            exact hclose.trans (List.suffix_append [only, t] ts)
          · cases h
        · cases h
      · exact (starred_suffix h).trans (List.suffix_cons only (t :: ts))
    · exact starred_suffix h
  · exact starred_suffix h

lemma aliasedSet_iff : aliasedSet ts = true ↔
    ∃ after set rest, ts = after ++ set :: rest ∧ IsAlias after ∧ set.isKeyword "set" = true := by
  constructor
  · intro h
    rw [aliasedSet.eq_def] at h
    split at h
    · rename_i a ts
      rw [Bool.or_eq_true] at h
      rcases h with h | h
      · exact ⟨[], a, ts, rfl, .inl rfl, h⟩
      · split at h
        · rename_i b ts
          rw [Bool.or_eq_true, Bool.and_eq_true] at h
          rcases h with h | h
          · exact ⟨[a], b, ts, rfl, .inr (.inl ⟨a, rfl, h.1⟩), h.2⟩
          · split at h
            · rename_i c ts
              rw [Bool.and_eq_true, Bool.and_eq_true] at h
              exact ⟨[a, b], c, ts, rfl, .inr (.inr ⟨a, b, rfl, h.1⟩), h.2⟩
            · cases h
        · cases h
    · cases h
  · rintro ⟨after, set, rest, rfl, rfl | ⟨b, rfl, hb⟩ | ⟨a, b, rfl, ha, hb⟩, hset⟩
    · simp [aliasedSet, hset]
    · simp [aliasedSet, hset, hb]
    · simp [aliasedSet, hset, ha, hb]

end Targets

section Words

variable {c : Construct} {ts ws rest : List Lexeme}

lemma words_of_keywords (hc : c.found ts = true)
    (h : ∃ ss ∈ c.keywords, ∃ ws rest, ts = ws ++ rest ∧ AreKeywords ss ws) :
    ∃ ws rest, ts = ws ++ rest ∧ c.Words ws rest := by
  obtain ⟨ss, hss, ws, rest, rfl, hws⟩ := h
  refine ⟨ws, rest, rfl, ?_⟩
  cases c with
  | updateSet => cases hss
  | _ => exact ⟨hc, ss, hss, hws⟩

lemma two_keywords {s s' : String} {t u : Lexeme} (ht : t.isKeyword s = true) (hu : u.isKeyword s' = true) :
    AreKeywords [s, s'] [t, u] := .cons ht (.cons hu .nil)

lemma rowLock_keywords (h : rowLock ts = true) :
    ∃ ss ∈ Construct.rowLock.keywords, ∃ ws rest, ts = ws ++ rest ∧ AreKeywords ss ws := by
  rw [rowLock.eq_def] at h
  split at h
  · rename_i fr a ts
    simp only [Bool.and_eq_true, Bool.or_eq_true] at h
    obtain ⟨hf, (ha | ha) | h⟩ := h
    · exact ⟨_, by simp [Construct.keywords], [fr, a], ts, rfl, two_keywords hf ha⟩
    · exact ⟨_, by simp [Construct.keywords], [fr, a], ts, rfl, two_keywords hf ha⟩
    · cases ts with
      | nil => cases h
      | cons b ts =>
        simp only [Bool.and_eq_true, Bool.or_eq_true] at h
        rcases h with h | h
        · exact ⟨_, by simp [Construct.keywords], [fr, a, b], ts, rfl, .cons hf (two_keywords h.1 h.2)⟩
        · cases ts with
          | nil => cases h
          | cons c ts =>
            simp only [Bool.and_eq_true] at h
            exact ⟨_, by simp [Construct.keywords], [fr, a, b, c], ts, rfl,
              .cons hf (.cons h.1.1 (two_keywords h.1.2 h.2))⟩
  · cases h

lemma exists_words (h : c.found ts = true) : ∃ ws rest, ts = ws ++ rest ∧ c.Words ws rest := by
  cases c with
  | insertInto =>
    refine words_of_keywords h ⟨_, List.mem_singleton_self _, ?_⟩
    rw [Construct.found, insertInto.eq_def] at h
    split at h
    · rename_i insert into t ts
      simp only [Bool.and_eq_true] at h
      exact ⟨[insert, into], t :: ts, rfl, two_keywords h.1.1 h.1.2⟩
    · cases h
  | deleteFrom =>
    refine words_of_keywords h ⟨_, List.mem_singleton_self _, ?_⟩
    rw [Construct.found, deleteFrom.eq_def] at h
    split at h
    · rename_i delete frm ts
      simp only [Bool.and_eq_true] at h
      exact ⟨[delete, frm], ts, rfl, two_keywords h.1.1 h.1.2⟩
    · cases h
  | mergeInto =>
    refine words_of_keywords h ⟨_, List.mem_singleton_self _, ?_⟩
    rw [Construct.found, mergeInto.eq_def] at h
    split at h
    · rename_i merge into ts
      simp only [Bool.and_eq_true] at h
      exact ⟨[merge, into], ts, rfl, two_keywords h.1.1 h.1.2⟩
    · cases h
  | updateSet =>
    rw [Construct.found, updateSet.eq_def] at h
    split at h
    · rename_i update ts
      rw [Bool.and_eq_true, Option.any_eq_true] at h
      obtain ⟨hupdate, after, htarget, hset⟩ := h
      obtain ⟨names, set, rest, rfl, hnames, hset⟩ := aliasedSet_iff.mp hset
      obtain ⟨name, rfl⟩ := target_suffix htarget
      refine ⟨update :: (name ++ names) ++ [set], rest, by simp, update, name ++ names, set, names, rfl, hupdate, hset,
        hnames, ?_⟩
      rw [List.append_assoc]
      exact htarget
    · cases h
  | rowLock => exact words_of_keywords h (rowLock_keywords h)
  | selectInto =>
    refine words_of_keywords h ⟨_, List.mem_singleton_self _, ?_⟩
    rw [Construct.found, selectInto.eq_def] at h
    split at h
    · rename_i select ts
      rw [Bool.and_eq_true] at h
      exact ⟨[select], ts, rfl, .cons h.1 .nil⟩
    · cases h

lemma Construct.Words.found (h : c.Words ws rest) : c.found (ws ++ rest) = true := by
  cases c with
  | updateSet =>
    obtain ⟨update, middle, set, after, rfl, hupdate, hset, hafter, htarget⟩ := h
    have halias : aliasedSet (after ++ set :: rest) = true := aliasedSet_iff.mpr ⟨after, set, rest, rfl, hafter, hset⟩
    rw [Construct.found, List.append_assoc, List.cons_append, List.singleton_append, Postgres.updateSet, htarget,
      hupdate]
    exact halias
  | _ => exact h.1

lemma Construct.Words.ne_nil (h : c.Words ws rest) : ws ≠ [] := by
  rintro rfl
  cases c with
  | updateSet =>
    obtain ⟨update, middle, set, after, hnil, -⟩ := h
    cases hnil
  | _ =>
    obtain ⟨-, ss, hss, hws⟩ := h
    cases hws
    exact absurd hss (by decide)

end Words

lemma writes_eq (sql : String) : writes sql = true ↔
    ∃ ts ∈ (tokens sql.toList).tails, ∃ c : Construct, c.found ts = true := by
  rw [writes, List.any_eq_true]
  refine exists_congr (fun ts => and_congr_right (fun _ => ?_))
  simp only [Bool.or_eq_true]
  constructor
  · rintro (((((h | h) | h) | h) | h) | h)
    · exact ⟨.insertInto, h⟩
    · exact ⟨.deleteFrom, h⟩
    · exact ⟨.mergeInto, h⟩
    · exact ⟨.updateSet, h⟩
    · exact ⟨.rowLock, h⟩
    · exact ⟨.selectInto, h⟩
  · rintro ⟨c, h⟩
    cases c <;> simp_all [Construct.found]

lemma writes_iff (sql : String) : writes sql = true ↔ ∃ c pre span post, Occurs sql.toList c pre span post := by
  rw [writes_eq]
  constructor
  · rintro ⟨ts, hts, c, hc⟩
    obtain ⟨ws, rest, rfl, hws⟩ := exists_words hc
    obtain ⟨before, hbefore⟩ := (List.mem_tails ..).mp hts
    rw [← List.append_assoc] at hbefore
    obtain ⟨pre, span, post, hlex, hspan, hpost, hstart, hend⟩ := exists_span hbefore.symm hws.ne_nil
    exact ⟨c, pre, span, post, hlex, by rw [hspan, hpost]; exact hws, hstart, hend⟩
  · rintro ⟨c, pre, span, post, h⟩
    refine ⟨span.filter isToken ++ post.filter isToken, ?_, c, h.words.found⟩
    rw [List.mem_tails, tokens, h.lexed, List.append_assoc, List.filter_append, List.filter_append]
    exact List.suffix_append ..

end TheCargo.Db.Postgres
