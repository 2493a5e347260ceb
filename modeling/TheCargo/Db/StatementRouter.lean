import TheCargo.Foundation.PyString
import TheCargo.Foundation.Regex
import TheCargo.Foundation.Unicode

namespace TheCargo.Db.Routing

open Foundation

variable (unicode : Unicode)

-- Both expressions are compiled with `re.IGNORECASE`.
def keyword (s : String) : Regex Char :=
  .seqs (s.toList.map (fun c => .one (fun x => unicode.fold x = unicode.fold c)))

def blanks : Regex Char := .some1 isSpace

def readStatement : Regex Char :=
  .seqs [.many isSpace, .alts (["select", "with", "values", "show", "explain"].map (keyword unicode)), .boundary]

def transactionalSql : Regex Char :=
  .alts [
    .seqs [.boundary, keyword unicode "for", blanks, .alts [
      .seqs [keyword unicode "no", blanks, keyword unicode "key", blanks, keyword unicode "update"],
      keyword unicode "update",
      .seqs [keyword unicode "key", blanks, keyword unicode "share"],
      keyword unicode "share"], .boundary],
    .seqs [.boundary, keyword unicode "insert", blanks, keyword unicode "into", .boundary],
    .seqs [.boundary, keyword unicode "update", blanks, .some1 (fun c => !isSpace c), blanks,
      keyword unicode "set", .boundary],
    .seqs [.boundary, keyword unicode "delete", blanks, keyword unicode "from", .boundary],
    .seqs [.boundary, keyword unicode "merge", blanks, keyword unicode "into", .boundary],
    .seqs [.boundary, keyword unicode "create", blanks,
      .opt (.seqs [.alts (["temp", "temporary", "unlogged"].map (keyword unicode)), blanks]),
      keyword unicode "table", .boundary],
    .seqs [.boundary, keyword unicode "savepoint", .boundary],
    .seqs [.boundary, keyword unicode "lock", blanks, keyword unicode "table", .boundary]]

def transactionalFunctions : List String := [
  "pg_advisory_lock", "pg_advisory_lock_shared", "pg_advisory_unlock", "pg_advisory_unlock_all",
  "pg_advisory_xact_lock", "pg_advisory_xact_lock_shared", "pg_current_xact_id", "pg_notify",
  "pg_try_advisory_lock", "pg_try_advisory_lock_shared", "pg_try_advisory_xact_lock",
  "pg_try_advisory_xact_lock_shared", "set_config", "txid_current"]

structure StatementRouter where
  functions : List String

def StatementRouter.init (functions : List String) : StatementRouter :=
  ⟨transactionalFunctions ++ functions.map unicode.lower⟩

namespace StatementRouter

variable (router : StatementRouter)

def calls : Regex Char :=
  .seqs [.boundary, .alts (router.functions.map (keyword unicode)), .many isSpace, .one (· = '(')]

def sqlNeedsTransaction (sql : String) : Bool :=
  if !(readStatement unicode).match unicode.isWord sql.toList then true
  else (transactionalSql unicode).search unicode.isWord sql.toList ||
    (router.calls unicode).search unicode.isWord sql.toList

end StatementRouter

structure MisroutedStatementError where
  message : String
  deriving DecidableEq

def refuse (router : StatementRouter) (statement : String) : Except MisroutedStatementError Unit :=
  if router.sqlNeedsTransaction unicode statement then
    .error ⟨"statement needs a transaction but reached the read engine: " ++
      String.ofList (statement.toList.take 200)⟩
  else .ok ()

inductive Piece
  | keyword (s : String)
  | run
  deriving DecidableEq

-- The phrases of `_TRANSACTIONAL_SQL` one by one; `run` stands for any text without blanks.
def phrases : List (List Piece) := [
  [.keyword "for", .keyword "no", .keyword "key", .keyword "update"],
  [.keyword "for", .keyword "update"],
  [.keyword "for", .keyword "key", .keyword "share"],
  [.keyword "for", .keyword "share"],
  [.keyword "insert", .keyword "into"],
  [.keyword "update", .run, .keyword "set"],
  [.keyword "delete", .keyword "from"],
  [.keyword "merge", .keyword "into"],
  [.keyword "create", .keyword "temp", .keyword "table"],
  [.keyword "create", .keyword "temporary", .keyword "table"],
  [.keyword "create", .keyword "unlogged", .keyword "table"],
  [.keyword "create", .keyword "table"],
  [.keyword "savepoint"],
  [.keyword "lock", .keyword "table"]]

def Spells (s : String) (w : List Char) : Prop := w.map unicode.fold = s.toList.map unicode.fold

def Blank (w : List Char) : Prop := ∀ c ∈ w, isSpace c = true

def Piece.Spells : Piece → List Char → Prop
  | .keyword s, w => Routing.Spells unicode s w
  | .run, w => w ≠ [] ∧ ∀ c ∈ w, isSpace c = false

def Spaced : List Piece → List Char → Prop
  | [], w => w = []
  | [p], w => p.Spells unicode w
  | p :: ps, w => ∃ u g v, w = u ++ g ++ v ∧ p.Spells unicode u ∧ g ≠ [] ∧ Blank g ∧ Spaced ps v

def Piece.regex : Piece → Regex Char
  | .keyword s => Routing.keyword unicode s
  | .run => .some1 (fun c => !isSpace c)

def spaced : List Piece → Regex Char
  | [] => .empty
  | [p] => p.regex unicode
  | p :: ps => .seq (p.regex unicode) (.seq blanks (spaced ps))

def phrase (p : List Piece) : Regex Char := .seq .boundary (.seq (spaced unicode p) .boundary)

variable {unicode} {before after : Option Char} {w : List Char}

lemma transactionalSql_iff : Regex.Matches unicode.isWord (transactionalSql unicode) before w after ↔
    ∃ p ∈ phrases, Regex.Matches unicode.isWord (phrase unicode p) before w after := by
  simp only [phrases, List.exists_mem_cons_iff, List.not_mem_nil, false_and, exists_false, or_false,
    transactionalSql, phrase, spaced, Piece.regex, Regex.alts, Regex.seqs, Regex.opt, List.foldr, List.map,
    Regex.Matches, Regex.matches_fail, Regex.Language.alt_fail, Regex.Language.empty_seq,
    Regex.Language.seq_empty, Regex.Language.seq_assoc, Regex.Language.alt_seq, Regex.Language.seq_alt]
  simp only [Regex.Language.alt, or_assoc]

lemma some1_iff {p : Char → Bool} : Regex.Matches unicode.isWord (.some1 p) before w after ↔
    w ≠ [] ∧ ∀ c ∈ w, p c = true := by
  constructor
  · rintro ⟨u, v, rfl, ⟨c, rfl, hc⟩, hv⟩
    refine ⟨by simp, ?_⟩
    rintro d (_ | ⟨_, hd⟩)
    · exact hc
    · exact hv d hd
  · rintro ⟨hw, hp⟩
    obtain ⟨c, cs, rfl⟩ := List.exists_cons_of_ne_nil hw
    exact ⟨[c], cs, rfl, ⟨c, rfl, hp c List.mem_cons_self⟩, fun d hd => hp d (List.mem_cons_of_mem c hd)⟩

lemma letters_iff {cs : List Char} :
    Regex.Matches unicode.isWord (.seqs (cs.map (fun c => .one (fun x => unicode.fold x = unicode.fold c))))
      before w after ↔ w.map unicode.fold = cs.map unicode.fold := by
  induction cs generalizing before w with
  | nil => exact List.map_eq_nil_iff.symm
  | cons c cs ih =>
    constructor
    · rintro ⟨u, v, rfl, ⟨d, rfl, hd⟩, hv⟩
      rw [List.map_append, ih.mp hv, List.map_singleton, of_decide_eq_true hd]
      rfl
    · intro h
      obtain ⟨d, ds, rfl, hd, hds⟩ := List.map_eq_cons_iff.mp h
      exact ⟨[d], ds, rfl, ⟨d, rfl, decide_eq_true hd⟩, ih.mpr hds⟩

lemma keyword_iff {s : String} :
    Regex.Matches unicode.isWord (keyword unicode s) before w after ↔ Spells unicode s w :=
  letters_iff

lemma piece_iff {p : Piece} :
    Regex.Matches unicode.isWord (p.regex unicode) before w after ↔ p.Spells unicode w := by
  cases p with
  | keyword s => exact keyword_iff
  | run =>
    rw [Piece.regex, some1_iff]
    simp only [Piece.Spells, Bool.not_eq_true']

lemma spaced_iff {ps : List Piece} :
    Regex.Matches unicode.isWord (spaced unicode ps) before w after ↔ Spaced unicode ps w := by
  induction ps generalizing before w with
  | nil => exact Iff.rfl
  | cons p ps ih =>
    cases ps with
    | nil => exact piece_iff
    | cons q qs =>
      constructor
      · rintro ⟨u, _, rfl, hu, g, v, rfl, hg, hv⟩
        obtain ⟨hne, hblank⟩ := some1_iff.mp hg
        exact ⟨u, g, v, (List.append_assoc u g v).symm, piece_iff.mp hu, hne, hblank, ih.mp hv⟩
      · rintro ⟨u, g, v, rfl, hu, hne, hblank, hv⟩
        exact ⟨u, g ++ v, List.append_assoc u g v, piece_iff.mpr hu, g, v, rfl,
          some1_iff.mpr ⟨hne, hblank⟩, ih.mpr hv⟩

lemma phrase_iff {ps : List Piece} : Regex.Matches unicode.isWord (phrase unicode ps) before w after ↔
    Regex.AtBoundary unicode.isWord before (w.head?.or after) ∧ Spaced unicode ps w ∧
      Regex.AtBoundary unicode.isWord (w.getLast?.or before) after := by
  constructor
  · rintro ⟨_, _, rfl, ⟨rfl, hb⟩, u, _, rfl, hu, rfl, ha⟩
    simp only [List.append_nil, List.nil_append] at hb ⊢
    exact ⟨hb, spaced_iff.mp hu, ha⟩
  · rintro ⟨hb, hw, ha⟩
    exact ⟨[], w, rfl, ⟨rfl, hb⟩, w, [], (List.append_nil w).symm, spaced_iff.mpr hw, rfl, ha⟩

section Texts

variable (unicode) (router : StatementRouter) (sql : List Char)

def OpensAsRead : Prop := ∃ g u post, sql = g ++ u ++ post ∧ Blank g ∧
  (∃ s ∈ ["select", "with", "values", "show", "explain"], Spells unicode s u) ∧
    Regex.AtBoundary unicode.isWord (u.getLast?.or g.getLast?) post.head?

def HasPhrase : Prop := ∃ p ∈ phrases, ∃ pre w post, sql = pre ++ w ++ post ∧ Spaced unicode p w ∧
  Regex.AtBoundary unicode.isWord pre.getLast? (w.head?.or post.head?) ∧
    Regex.AtBoundary unicode.isWord (w.getLast?.or pre.getLast?) post.head?

def HasCall : Prop := ∃ f ∈ router.functions, ∃ pre u g post, sql = pre ++ (u ++ g ++ ['(']) ++ post ∧
  Spells unicode f u ∧ Blank g ∧ Regex.AtBoundary unicode.isWord pre.getLast? (u ++ g ++ ['(']).head?

end Texts

lemma readStatement_iff {sql : List Char} :
    (readStatement unicode).match unicode.isWord sql = true ↔ OpensAsRead unicode sql := by
  rw [Regex.match_iff]
  constructor
  · rintro ⟨_, post, rfl, g, _, rfl, hg, u, _, rfl, hu, _, _, rfl, ⟨rfl, hb⟩, rfl⟩
    obtain ⟨r, hr, hm⟩ := Regex.matches_alts.mp hu
    obtain ⟨s, hs, rfl⟩ := List.mem_map.mp hr
    refine ⟨g, u, post, by simp, hg, ⟨s, hs, keyword_iff.mp hm⟩, ?_⟩
    simpa using hb
  · rintro ⟨g, u, post, rfl, hg, ⟨s, hs, hu⟩, hb⟩
    refine ⟨g ++ u, post, rfl, g, u, rfl, hg, u, [], (List.append_nil u).symm, ?_, [], [], rfl, ⟨rfl, ?_⟩, rfl⟩
    · exact Regex.matches_alts.mpr ⟨_, List.mem_map.mpr ⟨s, hs, rfl⟩, keyword_iff.mpr hu⟩
    · simpa using hb

lemma search_phrases_iff {sql : List Char} :
    (transactionalSql unicode).search unicode.isWord sql = true ↔ HasPhrase unicode sql := by
  rw [Regex.search_iff]
  constructor
  · rintro ⟨pre, w, post, hs, hm⟩
    obtain ⟨p, hp, hm⟩ := transactionalSql_iff.mp hm
    obtain ⟨hb, hw, ha⟩ := phrase_iff.mp hm
    exact ⟨p, hp, pre, w, post, hs, hw, hb, ha⟩
  · rintro ⟨p, hp, pre, w, post, hs, hw, hb, ha⟩
    exact ⟨pre, w, post, hs, transactionalSql_iff.mpr ⟨p, hp, phrase_iff.mpr ⟨hb, hw, ha⟩⟩⟩

lemma search_calls_iff {router : StatementRouter} {sql : List Char} :
    (router.calls unicode).search unicode.isWord sql = true ↔ HasCall unicode router sql := by
  rw [Regex.search_iff]
  constructor
  · rintro ⟨pre, _, post, rfl, _, _, rfl, ⟨rfl, hb⟩, u, _, rfl, hu, g, _, rfl, hg, hopen⟩
    obtain ⟨_, _, rfl, ⟨c, rfl, hc⟩, rfl⟩ := hopen
    obtain ⟨r, hr, hm⟩ := Regex.matches_alts.mp hu
    obtain ⟨f, hf, rfl⟩ := List.mem_map.mp hr
    obtain rfl := of_decide_eq_true hc
    refine ⟨f, hf, pre, u, g, post, by simp, keyword_iff.mp hm, hg, ?_⟩
    simpa using hb
  · rintro ⟨f, hf, pre, u, g, post, rfl, hu, hg, hb⟩
    refine ⟨pre, u ++ g ++ ['('], post, rfl, [], u ++ g ++ ['('], rfl, ⟨rfl, ?_⟩, u, g ++ ['('], by simp, ?_, g,
      ['('], rfl, hg, ['('], [], rfl, ⟨'(', rfl, rfl⟩, rfl⟩
    · simpa using hb
    · exact Regex.matches_alts.mpr ⟨_, List.mem_map.mpr ⟨f, hf, rfl⟩, keyword_iff.mpr hu⟩

lemma sqlNeedsTransaction_iff {router : StatementRouter} {sql : String} :
    router.sqlNeedsTransaction unicode sql = true ↔
      ¬ OpensAsRead unicode sql.toList ∨ HasPhrase unicode sql.toList ∨ HasCall unicode router sql.toList := by
  rw [← readStatement_iff, ← search_phrases_iff, ← search_calls_iff, StatementRouter.sqlNeedsTransaction]
  cases (readStatement unicode).match unicode.isWord sql.toList <;> simp

lemma refuse_iff {router : StatementRouter} {sql : String} :
    refuse unicode router sql ≠ .ok () ↔ router.sqlNeedsTransaction unicode sql = true := by
  rw [refuse]
  cases router.sqlNeedsTransaction unicode sql <;> simp

end TheCargo.Db.Routing
