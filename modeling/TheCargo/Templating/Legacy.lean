import TheCargo.Foundation.Dict
import TheCargo.Foundation.Scan
import TheCargo.Templating.Registry

namespace TheCargo.Templating

open Foundation Foundation.Pattern
open scoped Computability

def legacyMapping : Dict String String where
  items := [
    ("customer_first_name", "customer.first_name"),
    ("customer_last_name", "customer.last_name"),
    ("customer_name", "customer.full_name"),
    ("customer_email", "customer.email"),
    ("customer_phone", "customer.phone | phone"),
    ("shipment_code", "shipment.code"),
    ("code", "shipment.code"),
    ("origin_city", "pickup.city"),
    ("origin_state", "pickup.state"),
    ("destination_city", "delivery.city"),
    ("destination_state", "delivery.state"),
    ("vehicle_year", "vehicles[0].year"),
    ("vehicle_make", "vehicles[0].make"),
    ("vehicle_model", "vehicles[0].model"),
    ("tariff", "shipment.tariff | currency"),
    ("first_available_date", "shipment.first_available_date | date_short"),
    ("agent_name", "agent.name")]
  nodup := by decide

def isLetter (c : Char) : Bool := ('a' ≤ c && c ≤ 'z') || ('A' ≤ c && c ≤ 'Z') || c = '_'

def isDigit (c : Char) : Bool := '0' ≤ c && c ≤ '9'

def isWord (c : Char) : Bool := isLetter c || isDigit c

def word : Pattern Char Unit := do
  one isLetter
  many isWord

def member : Pattern Char Unit := do
  one (· = '.')
  word

def index : Pattern Char Unit := do
  one (· = '[')
  one isDigit
  many isDigit
  one (· = ']')

def path : Pattern Char Unit := do
  word
  star (alt member index)

def filter : Pattern Char Unit := do
  many isSpace
  one (· = '|')
  many isSpace
  lazyMany (fun c => c ≠ '{' && c ≠ '}')

def doubleBraceLegacy : Pattern Char (List Char) := do
  exactly ['{', '{']
  many isSpace
  let key ← group word
  many isSpace
  exactly ['}', '}']
  pure key

def braced : Pattern Char (List Char × Option (List Char)) := do
  one (· = '{')
  many isSpace
  let key ← group path
  let filt ← opt (group filter)
  many isSpace
  one (· = '}')
  pure (key, filt)

def singleBraceLegacy : Pattern Char (List Char × Option (List Char)) := do
  notBehind (· = '{')
  let groups ← braced
  notAhead (· = '}')
  pure groups

def reference (x : String) : List Char := ['{', '{', ' '] ++ x.toList ++ [' ', '}', '}']

def replaceDouble (key : List Char) (_ : List Char) : List Char :=
  let key := strip (String.ofList key)
  reference ((legacyMapping.get? key).getD key)

def replaceSingle (groups : List Char × Option (List Char)) (matched : List Char) : List Char :=
  let key := strip (String.ofList groups.1)
  let filt := strip (String.ofList (groups.2.getD []))
  match legacyMapping.get? key with
  | some liquidPath => reference liquidPath
  | none =>
    if root key ∈ knownVarRoots then reference (key ++ (if filt ≠ "" then " " ++ filt else "")) else matched

def rewriteDouble (s : List Char) : List Char := sub doubleBraceLegacy replaceDouble 0 none s

def rewriteSingle (s : List Char) : List Char := sub singleBraceLegacy replaceSingle 0 none s

def legacyToLiquid (template : String) : String :=
  if template = "" then template else String.ofList (rewriteSingle (rewriteDouble template.toList))

def Blank (w : List Char) : Prop := ∀ c ∈ w, isSpace c = true

lemma blank_space : Blank [' '] := List.forall_mem_singleton.mpr (by decide)

def IsWord (w : List Char) : Prop := ∃ c u, w = c :: u ∧ isLetter c = true ∧ ∀ d ∈ u, isWord d = true

def Step : Language Char := words fun w =>
  (∃ u, w = '.' :: u ∧ IsWord u) ∨ ∃ ds, ds ≠ [] ∧ w = '[' :: (ds ++ [']']) ∧ ∀ d ∈ ds, isDigit d = true

def IsPath (w : List Char) : Prop := ∃ u v, w = u ++ v ∧ IsWord u ∧ v ∈ Step∗

def IsFilter (w : List Char) : Prop := ∃ l v, w = l ++ '|' :: v ∧ Blank l ∧ '{' ∉ v ∧ '}' ∉ v

def IsTail (w : List Char) : Prop := Blank w ∨ IsFilter w

lemma reads_word : Reads word (fun _ => words IsWord) := by
  have h : Reads word _ := (reads_one isLetter).seq (reads_many isWord)
  apply h.congr
  intro _
  ext w
  rw [Language.mem_mul]
  constructor
  · rintro ⟨_, ⟨c, rfl, hc⟩, u, hu, rfl⟩
    exact ⟨c, u, rfl, hc, hu⟩
  · rintro ⟨c, u, rfl, hc, hu⟩
    exact ⟨[c], ⟨c, rfl, hc⟩, u, hu, rfl⟩

lemma reads_letter (k : Char) : Reads (one (· = k)) (fun _ => words fun w => w = [k]) := by
  apply (reads_one _).congr
  intro _
  ext w
  constructor
  · rintro ⟨c, rfl, hc⟩
    rw [of_decide_eq_true hc]
    rfl
  · rintro rfl
    exact ⟨k, rfl, decide_eq_true rfl⟩

lemma reads_step : Reads (alt member index) (fun _ => Step) := by
  have hm : Reads member _ := (reads_letter '.').seq reads_word
  have hi : Reads index _ :=
    (reads_letter '[').seq ((reads_one isDigit).seq ((reads_many isDigit).seq (reads_letter ']')))
  apply (hm.alt hi).congr
  intro _
  ext w
  simp only [Language.mem_add, Language.mem_mul]
  constructor
  · rintro (⟨_, rfl, u, hu, rfl⟩ | ⟨_, rfl, _, ⟨_, ⟨d, rfl, hd⟩, _, ⟨ds, hds, _, rfl, rfl⟩, rfl⟩, rfl⟩)
    · exact Or.inl ⟨u, rfl, hu⟩
    · exact Or.inr ⟨d :: ds, List.cons_ne_nil d ds, rfl, List.forall_mem_cons.mpr ⟨hd, hds⟩⟩
  · rintro (⟨u, rfl, hu⟩ | ⟨ds, hne, rfl, hds⟩)
    · exact Or.inl ⟨['.'], rfl, u, hu, rfl⟩
    · obtain ⟨d, ds, rfl⟩ := List.exists_cons_of_ne_nil hne
      obtain ⟨hd, hds⟩ := List.forall_mem_cons.mp hds
      exact Or.inr ⟨['['], rfl, _, ⟨[d], ⟨d, rfl, hd⟩, _, ⟨ds, hds, [']'], rfl, rfl⟩, rfl⟩, rfl⟩

lemma nil_not_step : [] ∉ Step := by
  rintro (⟨u, h, _⟩ | ⟨ds, _, h, _⟩)
  · exact absurd h.symm (List.cons_ne_nil _ _)
  · exact absurd h.symm (List.cons_ne_nil _ _)

lemma reads_path : Reads path (fun _ => words IsPath) := by
  have h : Reads path _ := reads_word.seq (reads_star reads_step nil_not_step)
  apply h.congr
  intro _
  ext w
  rw [Language.mem_mul]
  constructor
  · rintro ⟨u, hu, v, hv, rfl⟩
    exact ⟨u, v, rfl, hu, hv⟩
  · rintro ⟨u, v, rfl, hu, hv⟩
    exact ⟨u, hu, v, hv, rfl⟩

lemma reads_filter : Reads filter (fun _ => words IsFilter) := by
  have h : Reads filter _ :=
    (reads_many isSpace).seq ((reads_letter '|').seq ((reads_many isSpace).seq (reads_lazyMany _)))
  apply h.congr
  intro _
  ext w
  simp only [Language.mem_mul]
  constructor
  · rintro ⟨l, hl, _, ⟨_, rfl, _, ⟨l', hl', v, hv, rfl⟩, rfl⟩, rfl⟩
    have hnot : ∀ k, isSpace k = false → (k ≠ '{' && k ≠ '}') = false → k ∉ l' ++ v := by
      intro k hspace hbrace hm
      rcases List.mem_append.mp hm with hm | hm
      · exact Bool.noConfusion (hspace.symm.trans (hl' k hm))
      · exact Bool.noConfusion (hbrace.symm.trans (hv k hm))
    exact ⟨l, l' ++ v, rfl, hl, hnot '{' (by decide) (by decide), hnot '}' (by decide) (by decide)⟩
  · rintro ⟨l, v, rfl, hl, hopen, hclose⟩
    refine ⟨l, hl, _, ⟨['|'], rfl, _, ⟨[], List.forall_mem_nil _, v, ?_, rfl⟩, rfl⟩, rfl⟩
    intro c hc
    have hne : c ≠ '{' := fun h => hopen (h ▸ hc)
    have hne' : c ≠ '}' := fun h => hclose (h ▸ hc)
    simp [hne, hne']

lemma reads_double : Reads doubleBraceLegacy (fun key => words fun w =>
    ∃ l l', Blank l ∧ IsWord key ∧ Blank l' ∧ w = ['{', '{'] ++ (l ++ (key ++ (l' ++ ['}', '}'])))) := by
  have h : Reads doubleBraceLegacy _ :=
    (reads_exactly ['{', '{']).bind fun _ => (reads_many isSpace).bind fun _ => reads_word.group.bind fun key =>
      (reads_many isSpace).bind fun _ => (reads_exactly ['}', '}']).bind fun _ => Reads.pure key
  apply h.congr
  intro key
  ext w
  simp only [mem_words, Language.mem_mul]
  constructor
  · rintro ⟨_, _, rfl, _, ⟨_, l, hl, _, ⟨_, _, ⟨rfl, _, hk⟩, _, ⟨_, l', hl', _, ⟨_, _, rfl, _, ⟨rfl, rfl⟩, rfl⟩, rfl⟩,
      rfl⟩, rfl⟩, rfl⟩
    exact ⟨l, l', hl, hk, hl', rfl⟩
  · rintro ⟨l, l', hl, hk, hl', rfl⟩
    exact ⟨(), _, rfl, _, ⟨(), l, hl, _, ⟨key, key, ⟨rfl, (), hk⟩, _, ⟨(), l', hl', _,
      ⟨(), _, rfl, [], ⟨rfl, rfl⟩, rfl⟩, rfl⟩, rfl⟩, rfl⟩, rfl⟩

lemma reads_braced : Reads braced (fun groups => words fun w =>
    ∃ l l', Blank l ∧ IsPath groups.1 ∧ (∀ t ∈ groups.2, IsFilter t) ∧ Blank l' ∧
      w = '{' :: (l ++ (groups.1 ++ (groups.2.getD [] ++ (l' ++ ['}']))))) := by
  have h : Reads braced _ :=
    (reads_letter '{').bind fun _ => (reads_many isSpace).bind fun _ => reads_path.group.bind fun key =>
      reads_filter.group.opt.bind fun filt => (reads_many isSpace).bind fun _ =>
        (reads_letter '}').bind fun _ => Reads.pure (key, filt)
  apply h.congr
  rintro ⟨key, filt⟩
  ext w
  simp only [mem_words, Language.mem_mul]
  constructor
  · rintro ⟨_, _, rfl, _, ⟨_, l, hl, _, ⟨_, _, ⟨rfl, _, hk⟩, _, ⟨_, t, ht, _, ⟨_, l', hl', _,
      ⟨_, _, rfl, _, ⟨hg, rfl⟩, rfl⟩, rfl⟩, rfl⟩, rfl⟩, rfl⟩, rfl⟩
    cases hg
    cases filt with
    | none =>
      obtain rfl : t = [] := ht
      exact ⟨l, l', hl, hk, by simp, hl', rfl⟩
    | some t' =>
      obtain ⟨rfl, _, ht⟩ := ht
      exact ⟨l, l', hl, hk, fun t h => Option.some.inj h ▸ ht, hl', rfl⟩
  · rintro ⟨l, l', hl, hk, ht, hl', rfl⟩
    refine ⟨(), _, rfl, _, ⟨(), l, hl, _, ⟨key, key, ⟨rfl, (), hk⟩, _, ⟨filt, filt.getD [], ?_, _,
      ⟨(), l', hl', _, ⟨(), _, rfl, [], ⟨rfl, rfl⟩, rfl⟩, rfl⟩, rfl⟩, rfl⟩, rfl⟩, rfl⟩
    cases filt with
    | none => rfl
    | some t => exact ⟨rfl, (), ht t rfl⟩

end TheCargo.Templating
