import TheCargo.Foundation.Json
import TheCargo.Models.Base

/-! A row of the webhook table as the values that its insert sends and its select gives back, one to a column. -/

namespace TheCargo.WebhookFormat

open Foundation Models

inductive Column
  | source
  | eventId
  | eventType
  | status
  | organizationId
  | receivedAt
  | eventTime
  | processedAt
  | headers
  | body
  | bodySizeBytes
  | lastError
  | subscriptionId
  | extra
  | version
  deriving DecidableEq

def columns : List Column :=
  [.source, .eventId, .eventType, .status, .organizationId, .receivedAt, .eventTime, .processedAt, .headers, .body,
    .bodySizeBytes, .lastError, .subscriptionId, .extra, .version]

-- The offset is `tzinfo`; a naive datetime has none.
structure DateTime where
  clock : Instant
  offset : Option ℤ
  deriving DecidableEq

inductive Cell
  | json (j : Json)
  | uuid (id : UUID)
  | datetime (t : DateTime)

namespace Cell

abbrev null : Cell := .json .null

abbrev str (s : String) : Cell := .json (.str s)

abbrev int (n : ℤ) : Cell := .json (.int n)

abbrev dict (d : Payload) : Cell := .json (.obj d.items)

def truthy : Cell → Bool
  | .json j => j.truthy
  | _ => true

def orElse (v default : Cell) : Cell := if v.truthy then v else default

def orNone (v : Cell) : Cell := v.orElse .null

def ifNone : Cell → Cell → Cell
  | .json .null, default => default
  | v, _ => v

def aware : Cell → Cell
  | .datetime ⟨clock, none⟩ => .datetime ⟨clock, some 0⟩
  | v => v

def uuidOrNone : Cell → Cell
  | .uuid id => .uuid id
  | .json j =>
    match UUID.ofJson j with
    | some id => .uuid id
    | none => .null
  | .datetime _ => .null

def isOrganization : Cell → Bool
  | .uuid _ => true
  | .json .null => true
  | _ => false

def asDict : Cell → Option Payload
  | .json (.obj items) => if h : (items.map Prod.fst).Nodup then some ⟨items, h⟩ else none
  | _ => none

end Cell

lemma uuidOrNone_isOrganization (v : Cell) : v.uuidOrNone.isOrganization = true := by
  cases v with
  | uuid id => rfl
  | datetime t => rfl
  | json j =>
    rw [Cell.uuidOrNone]
    split <;> rfl

structure WebhookRow where
  field : Column → Cell
  organization : (field .organizationId).isOrganization = true

def WebhookRow.init (data : Column → Cell) : WebhookRow where
  field := Function.update data .organizationId (data .organizationId).uuidOrNone
  organization := by
    rw [Function.update_self]
    exact uuidOrNone_isOrganization _

section Values

-- `dumps` is `json.dumps` with `default=str`; the other two are `json.loads` and `int` of a text that they take.
variable (dumps : Cell → String) (loads : String → Option Json) (parseInt : String → Option ℤ)

def pyInt : Cell → Option Cell
  | .json (.int n) => some (.int n)
  | .json (.bool b) => some (.int (if b then 1 else 0))
  | .json (.float q) => some (.int (Int.tdiv q.num q.den))
  | .json (.str s) => (parseInt s).map Cell.int
  | .uuid id => some (.int id.toNat)
  | _ => none

def WebhookRow.values (row : WebhookRow) : Option (List Cell) := do
  let bodySizeBytes ← pyInt parseInt ((row.field .bodySizeBytes).orElse (.int 0))
  let version ← pyInt parseInt (row.field .version)
  some [
    row.field .source,
    row.field .eventId,
    (row.field .eventType).orElse (.str ""),
    (row.field .status).orElse (.str "received"),
    row.field .organizationId,
    row.field .receivedAt,
    row.field .eventTime,
    row.field .processedAt,
    .str (dumps ((row.field .headers).orElse (.dict Dict.empty))),
    .str (dumps ((row.field .body).ifNone (.dict Dict.empty))),
    bodySizeBytes,
    (row.field .lastError).orElse (.str ""),
    (row.field .subscriptionId).orElse (.str ""),
    .str (dumps ((row.field .extra).orElse (.dict Dict.empty))),
    version]

/-- `_loads`; a value that is neither empty nor a text raises. -/
def loadsOf : Cell → Option Cell
  | .json (.str s) => some (.json (if s = "" then .obj [] else (loads s).getD (.obj [])))
  | v => if v.truthy then none else some (.dict Dict.empty)

def read : Column → Cell → Option Cell
  | .receivedAt, v => some v.aware
  | .eventTime, v => some v.aware
  | .processedAt, v => some v.aware
  | .headers, v => loadsOf loads v
  | .body, v => loadsOf loads v
  | .extra, v => loadsOf loads v
  | .lastError, v => some v.orNone
  | .subscriptionId, v => some v.orNone
  | _, v => some v

def fromValues (values : List Cell) : Option WebhookRow :=
  if values.length = columns.length then do
    let data ← (columns.zip values).mapM (fun e => (read loads e.1 e.2).map (Prod.mk e.1))
    some (WebhookRow.init (fun c => (lookup c data).getD .null))
  else none

def addOne : Cell → Option Cell
  | .json (.int n) => some (.int (n + 1))
  | .json (.bool b) => some (.int (if b then 2 else 1))
  | .json (.float q) => some (.json (.float (q + 1)))
  | _ => none

def namedExtra (changes : Dict Column Cell) : Option Payload :=
  ((changes.get? .extra).getD (.dict Dict.empty)).asDict

/-- `changed`: it raises where `extra` names no mapping, and where `version` is given twice. -/
def WebhookRow.changed (row : WebhookRow) (changes : Dict Column Cell) : Option WebhookRow := do
  let extra ← (row.field .extra).asDict
  let named ← namedExtra changes
  let version ← addOne (row.field .version)
  if (changes.get? .version).isSome then none
  else
    some (WebhookRow.init fun
      | .extra => .dict (extra.merge named)
      | .version => version
      | c => (changes.get? c).getD (row.field c))

def valueOf (c : Column) (values : List Cell) : Option Cell := lookup c (columns.zip values)

def WebhookRow.normal (row : WebhookRow) : WebhookRow where
  field
    | .status => (row.field .status).orElse (.str "received")
    | .body => (row.field .body).ifNone (.dict Dict.empty)
    | .lastError => (row.field .lastError).orNone
    | .subscriptionId => (row.field .subscriptionId).orNone
    | c => row.field c
  organization := row.organization

structure Storable (row : WebhookRow) : Prop where
  eventType : ∃ s, row.field .eventType = .str s
  headers : ∃ d : Payload, row.field .headers = .dict d
  body : ∃ j, row.field .body = .json j
  bodySizeBytes : ∃ n, row.field .bodySizeBytes = .int n
  extra : ∃ d : Payload, row.field .extra = .dict d
  version : ∃ n, row.field .version = .int n
  aware : ∀ c t, row.field c = .datetime t → t.offset ≠ none

def Undone (j : Json) : Prop := dumps (.json j) ≠ "" ∧ loads (dumps (.json j)) = some j

structure Alters (changes : Dict Column Cell) (values written : List Cell) : Prop where
  columns : ∀ c, c ≠ .extra → c ≠ .version → changes.get? c = none → valueOf c written = valueOf c values
  extra : ∃ held named merged : Payload,
    (∃ text, valueOf .extra values = some (.str text) ∧ loads text = some (.obj held.items)) ∧
    namedExtra changes = some named ∧ valueOf .extra written = some (.str (dumps (.dict merged))) ∧
    ∀ key, merged.get? key = (named.get? key).or (held.get? key)
  version : ∃ n, valueOf .version values = some (.int n) ∧ valueOf .version written = some (.int (n + 1))

def WebhookRow.written (row : WebhookRow) (bodySizeBytes version : Cell) : Column → Cell
  | .eventType => (row.field .eventType).orElse (.str "")
  | .status => (row.field .status).orElse (.str "received")
  | .headers => .str (dumps ((row.field .headers).orElse (.dict Dict.empty)))
  | .body => .str (dumps ((row.field .body).ifNone (.dict Dict.empty)))
  | .bodySizeBytes => bodySizeBytes
  | .lastError => (row.field .lastError).orElse (.str "")
  | .subscriptionId => (row.field .subscriptionId).orElse (.str "")
  | .extra => .str (dumps ((row.field .extra).orElse (.dict Dict.empty)))
  | .version => version
  | c => row.field c

variable {dumps loads parseInt} {row : WebhookRow}

lemma mem_columns (c : Column) : c ∈ columns := by
  cases c <;> decide

lemma values_eq {values : List Cell} : row.values dumps parseInt = some values ↔
    ∃ bodySizeBytes version, pyInt parseInt ((row.field .bodySizeBytes).orElse (.int 0)) = some bodySizeBytes ∧
      pyInt parseInt (row.field .version) = some version ∧
      columns.map (row.written dumps bodySizeBytes version) = values := by
  simp only [WebhookRow.values, bind, Option.bind_eq_some_iff, Option.some.injEq]
  constructor
  · rintro ⟨bodySizeBytes, hsize, version, hversion, rfl⟩
    exact ⟨bodySizeBytes, version, hsize, hversion, rfl⟩
  · rintro ⟨bodySizeBytes, version, hsize, hversion, rfl⟩
    exact ⟨bodySizeBytes, hsize, version, hversion, rfl⟩

lemma valueOf_map (f : Column → Cell) (c : Column) : valueOf c (columns.map f) = some (f c) := by
  have hzip : columns.zip (columns.map f) = columns.map (fun c => (c, f c)) := rfl
  rw [valueOf, hzip]
  exact lookup_map f (mem_columns c)

lemma uuidOrNone_eq {v : Cell} (h : v.isOrganization = true) : v.uuidOrNone = v := by
  cases v with
  | uuid id => rfl
  | datetime t => cases h
  | json j => cases j with
    | null => rfl
    | _ => cases h

lemma init_field (row : WebhookRow) : WebhookRow.init row.field = row := by
  obtain ⟨field, horganization⟩ := row
  simp only [WebhookRow.init, uuidOrNone_eq horganization, Function.update_eq_self]

lemma fromValues_map {f : Column → Cell} (h : ∀ c, read loads c (f c) = some (row.field c)) :
    fromValues loads (columns.map f) = some row := by
  have hzip : columns.zip (columns.map f) = columns.map (fun c => (c, f c)) := rfl
  have hread : ((fun e : Column × Cell => (read loads e.1 e.2).map (Prod.mk e.1)) ∘ fun c => (c, f c)) =
      fun c => pure (c, row.field c) := by
    funext c
    simp only [Function.comp, h, Option.map_some]
    rfl
  have hdata : (columns.zip (columns.map f)).mapM (fun e => (read loads e.1 e.2).map (Prod.mk e.1)) =
      some (columns.map (fun c => (c, row.field c))) := by
    rw [hzip, List.mapM_map, hread]
    exact List.mapM_pure
  rw [fromValues, if_pos (List.length_map _), hdata]
  simp only [Option.bind_eq_bind, Option.bind_some, lookup_map row.field (mem_columns _), Option.getD_some, init_field]

lemma asDict_dict (d : Payload) : (Cell.dict d).asDict = some d := dif_pos d.nodup

lemma aware_eq {v : Cell} (h : ∀ t, v = .datetime t → t.offset ≠ none) : v.aware = v := by
  cases v with
  | json j => rfl
  | uuid id => rfl
  | datetime t =>
    obtain ⟨clock, offset⟩ := t
    cases offset with
    | none => exact absurd rfl (h _ rfl)
    | some n => rfl

lemma orElse_truthy {v : Cell} (h : v.truthy = true) (default : Cell) : v.orElse default = v := if_pos h

lemma orElse_falsy {v : Cell} (h : v.truthy = false) (default : Cell) : v.orElse default = default :=
  if_neg (ne_true_of_eq_false h)

lemma orNone_orElse (v : Cell) : (v.orElse (.str "")).orNone = v.orNone := by
  cases hv : v.truthy with
  | true => rw [orElse_truthy hv]
  | false =>
    rw [orElse_falsy hv, Cell.orNone, Cell.orNone, orElse_falsy hv]
    rfl

lemma orElse_orNone (v : Cell) : v.orNone.orElse (.str "") = v.orElse (.str "") := by
  cases hv : v.truthy with
  | true => rw [Cell.orNone, orElse_truthy hv]
  | false =>
    rw [Cell.orNone, orElse_falsy hv, orElse_falsy hv]
    rfl

lemma orElse_orElse (v : Cell) {default : Cell} (h : default.truthy = true) :
    (v.orElse default).orElse default = v.orElse default := by
  cases hv : v.truthy with
  | true => rw [orElse_truthy hv, orElse_truthy hv]
  | false => rw [orElse_falsy hv, orElse_truthy h]

lemma ifNone_ifNone (v d : Cell) : (v.ifNone d).ifNone d = v.ifNone d := by
  cases v with
  | uuid id => rfl
  | datetime t => rfl
  | json j =>
    cases j with
    | null =>
      cases d with
      | json j => cases j <;> rfl
      | _ => rfl
    | _ => rfl

lemma loadsOf_dumps {j : Json} (h : Undone dumps loads j) :
    loadsOf loads (.str (dumps (.json j))) = some (.json j) := by
  rw [loadsOf, if_neg h.1, h.2, Option.getD_some]

lemma orElse_self {v default : Cell} (h : v.truthy = false → v = default) : v.orElse default = v := by
  cases hv : v.truthy with
  | true => exact orElse_truthy hv default
  | false => rw [orElse_falsy hv, h hv]

lemma orElse_empty (s : String) : (Cell.str s).orElse (.str "") = .str s :=
  orElse_self fun hs => congrArg Cell.str (of_not_not (of_decide_eq_false hs))

lemma orElse_zero (n : ℤ) : (Cell.int n).orElse (.int 0) = .int n :=
  orElse_self fun hn => congrArg Cell.int (of_not_not (of_decide_eq_false hn))

lemma orElse_dict (d : Payload) : (Cell.dict d).orElse (.dict Dict.empty) = .dict d := by
  obtain ⟨items, hnodup⟩ := d
  cases items <;> rfl

lemma read_written (hrow : Storable row)
    (hjson : ∀ c ∈ [Column.headers, .body, .extra], ∀ j, row.normal.field c = .json j → Undone dumps loads j)
    (c : Column) :
    read loads c (row.written dumps (row.field .bodySizeBytes) (row.field .version) c) = some (row.normal.field c) := by
  cases c with
  | eventType =>
    obtain ⟨s, hs⟩ := hrow.eventType
    simp only [read, WebhookRow.written, WebhookRow.normal, hs, orElse_empty]
  | receivedAt => exact congrArg some (aware_eq (hrow.aware .receivedAt))
  | eventTime => exact congrArg some (aware_eq (hrow.aware .eventTime))
  | processedAt => exact congrArg some (aware_eq (hrow.aware .processedAt))
  | headers =>
    obtain ⟨d, hd⟩ := hrow.headers
    have hundone := hjson .headers (by decide) (.obj d.items) hd
    simp only [read, WebhookRow.written, WebhookRow.normal, hd, orElse_dict]
    exact loadsOf_dumps hundone
  | body =>
    obtain ⟨j, hj⟩ := hrow.body
    obtain ⟨k, hk⟩ : ∃ k, (Cell.json j).ifNone (.dict Dict.empty) = .json k := by
      cases j <;> exact ⟨_, rfl⟩
    have hnormal : row.normal.field .body = .json k := by
      rw [← hk, ← hj]
      rfl
    have hundone := hjson .body (by decide) k hnormal
    simp only [read, WebhookRow.written, hj, hk, hnormal]
    exact loadsOf_dumps hundone
  | extra =>
    obtain ⟨d, hd⟩ := hrow.extra
    have hundone := hjson .extra (by decide) (.obj d.items) hd
    simp only [read, WebhookRow.written, WebhookRow.normal, hd, orElse_dict]
    exact loadsOf_dumps hundone
  | lastError => exact congrArg some (orNone_orElse _)
  | subscriptionId => exact congrArg some (orNone_orElse _)
  | _ => rfl

lemma normal_written (row : WebhookRow) (bodySizeBytes version : Cell) :
    row.normal.written dumps bodySizeBytes version = row.written dumps bodySizeBytes version := by
  funext c
  cases c with
  | status => exact orElse_orElse _ rfl
  | body => exact congrArg (fun v => Cell.str (dumps v)) (ifNone_ifNone _ _)
  | lastError => exact orElse_orNone _
  | subscriptionId => exact orElse_orNone _
  | _ => rfl

lemma values_some (hrow : Storable row) :
    row.values dumps parseInt =
      some (columns.map (row.written dumps (row.field .bodySizeBytes) (row.field .version))) := by
  obtain ⟨n, hn⟩ := hrow.bodySizeBytes
  obtain ⟨m, hm⟩ := hrow.version
  refine values_eq.mpr ⟨row.field .bodySizeBytes, row.field .version, ?_, ?_, rfl⟩
  · rw [hn, orElse_zero]
    rfl
  · rw [hm]
    rfl

lemma values_normal (row : WebhookRow) : row.normal.values dumps parseInt = row.values dumps parseInt := by
  rw [Option.ext_iff]
  intro values
  simp only [values_eq, normal_written]
  rfl

lemma changed_eq {changes : Dict Column Cell} {updated : WebhookRow} (h : row.changed changes = some updated) :
    ∃ held named version, (row.field .extra).asDict = some held ∧ namedExtra changes = some named ∧
      addOne (row.field .version) = some version ∧ updated.field .extra = .dict (held.merge named) ∧
      updated.field .version = version ∧
      ∀ c, c ≠ .extra → c ≠ .version → changes.get? c = none → updated.field c = row.field c := by
  obtain ⟨held, hheld, h⟩ := Option.bind_eq_some_iff.mp h
  obtain ⟨named, hnamed, h⟩ := Option.bind_eq_some_iff.mp h
  obtain ⟨version, hversion, h⟩ := Option.bind_eq_some_iff.mp h
  split at h
  · cases h
  · obtain rfl := Option.some.inj h
    refine ⟨held, named, version, hheld, hnamed, hversion, rfl, rfl, ?_⟩
    intro c hextra hversion hc
    by_cases horg : c = .organizationId
    · subst horg
      simp only [WebhookRow.init, Function.update_self, hc, Option.getD_none]
      exact uuidOrNone_eq row.organization
    · simp only [WebhookRow.init, Function.update_of_ne horg]
      cases c with
      | extra => exact absurd rfl hextra
      | version => exact absurd rfl hversion
      | _ => rw [hc, Option.getD_none]

lemma written_congr {a b : WebhookRow} {c : Column} (h : a.field c = b.field c) (bodySizeBytes version : Cell) :
    a.written dumps bodySizeBytes version c = b.written dumps bodySizeBytes version c := by
  cases c <;> simp only [WebhookRow.written, h]

lemma written_apart (row : WebhookRow) {c : Column} (hsize : c ≠ .bodySizeBytes) (hversion : c ≠ .version)
    (bodySizeBytes version bodySizeBytes' version' : Cell) :
    row.written dumps bodySizeBytes version c = row.written dumps bodySizeBytes' version' c := by
  cases c with
  | bodySizeBytes => exact absurd rfl hsize
  | version => exact absurd rfl hversion
  | _ => rfl

lemma changed_alters (hrow : Storable row)
    (hjson : ∀ c ∈ [Column.headers, .body, .extra], ∀ j, row.normal.field c = .json j → Undone dumps loads j)
    {changes : Dict Column Cell} {updated : WebhookRow} (hupdated : row.normal.changed changes = some updated)
    {values written : List Cell} (hvalues : row.values dumps parseInt = some values)
    (hwritten : updated.values dumps parseInt = some written) : Alters dumps loads changes values written := by
  obtain ⟨held, named, version, hheld, hnamed, hversion, hextra, hfield, hrest⟩ := changed_eq hupdated
  obtain ⟨d, hd⟩ := hrow.extra
  obtain ⟨n, hn⟩ := hrow.version
  obtain ⟨size, hsize⟩ := hrow.bodySizeBytes
  obtain rfl : d = held := Option.some.inj ((asDict_dict d).symm.trans ((congrArg Cell.asDict hd).symm.trans hheld))
  obtain rfl : Cell.int (n + 1) = version := Option.some.inj ((congrArg addOne hn).symm.trans hversion)
  obtain rfl := Option.some.inj ((values_some hrow).symm.trans hvalues)
  obtain ⟨size', version', hsize', hversion', rfl⟩ := values_eq.mp hwritten
  obtain rfl : Cell.int (n + 1) = version' := by
    rw [hfield] at hversion'
    exact Option.some.inj hversion'
  refine ⟨?_, ⟨d, named, d.merge named, ?_, hnamed, ?_, Dict.get?_merge d named⟩, n, ?_, ?_⟩
  · intro c hc hc' hnone
    have hsame := hrest c hc hc' hnone
    rw [valueOf_map, valueOf_map]
    by_cases hcsize : c = .bodySizeBytes
    · subst hcsize
      have hvalue : pyInt parseInt ((Cell.int size).orElse (.int 0)) = some size' := by
        rw [← hsize', hsame]
        exact congrArg (fun v => pyInt parseInt (v.orElse (.int 0))) hsize.symm
      rw [orElse_zero] at hvalue
      exact congrArg some ((Option.some.inj hvalue).symm.trans hsize.symm)
    · rw [written_congr hsame, normal_written, written_apart row hcsize hc']
  · have hundone := hjson .extra (by decide) (.obj d.items) hd
    refine ⟨dumps (.dict d), ?_, hundone.2⟩
    rw [valueOf_map]
    simp only [WebhookRow.written, hd, orElse_dict]
  · rw [valueOf_map]
    simp only [WebhookRow.written, hextra, orElse_dict]
  · rw [valueOf_map]
    exact congrArg some hn
  · exact valueOf_map _ _

theorem row_survives_storage (dumps : Cell → String) (loads : String → Option Json) (parseInt : String → Option ℤ)
    (row : WebhookRow) (hrow : Storable row)
    (hjson : ∀ c ∈ [Column.headers, .body, .extra], ∀ j, row.normal.field c = .json j → Undone dumps loads j) :
    ∃ values fetched, row.values dumps parseInt = some values ∧ fromValues loads values = some fetched ∧
      fetched = row.normal ∧ fetched.values dumps parseInt = some values ∧
      ∀ changes updated written, fetched.changed changes = some updated →
        updated.values dumps parseInt = some written → Alters dumps loads changes values written := by
  have hvalues : row.values dumps parseInt = _ := values_some hrow
  refine ⟨_, row.normal, hvalues, fromValues_map (read_written hrow hjson), rfl, ?_, ?_⟩
  · rw [values_normal, hvalues]
  · exact fun changes updated written hupdated hwritten => changed_alters hrow hjson hupdated hvalues hwritten

end Values

def answered : Payload := ⟨[("rc_call_id", .str "7")], by decide⟩

def answeredText : String := "\x7b\"rc_call_id\": \"7\"\x7d"

def dumpsAnswered : Cell → String
  | .json (.obj [("rc_call_id", .str "7")]) => answeredText
  | _ => "\x7b\x7d"

def loadsAnswered (s : String) : Option Json :=
  if s = answeredText then some (.obj answered.items) else if s = "\x7b\x7d" then some (.obj []) else none

def call : WebhookRow :=
  .init fun
    | .source => .str "ringcentral"
    | .eventId => .str "1"
    | .eventType => .str "call"
    | .status => .str ""
    | .receivedAt => .datetime ⟨1735689600000000, some 0⟩
    | .headers => .dict Dict.empty
    | .bodySizeBytes => .int 2
    | .lastError => .str ""
    | .extra => .dict answered
    | .version => .int 1
    | _ => .null

lemma call_storable : Storable call where
  eventType := ⟨"call", rfl⟩
  headers := ⟨Dict.empty, rfl⟩
  body := ⟨.null, rfl⟩
  bodySizeBytes := ⟨2, rfl⟩
  extra := ⟨answered, rfl⟩
  version := ⟨1, rfl⟩
  aware c t h := by
    cases c with
    | receivedAt =>
      obtain rfl := Cell.datetime.inj h
      nofun
    | _ => cases h

theorem a_call_survives_storage :
    ∃ values fetched updated written, call.values dumpsAnswered (fun _ => none) = some values ∧
      fromValues loadsAnswered values = some fetched ∧ fetched.field .status = .str "received" ∧
      fetched.values dumpsAnswered (fun _ => none) = some values ∧
      fetched.changed ⟨[(.lastError, .str "timeout")], by decide⟩ = some updated ∧
      updated.values dumpsAnswered (fun _ => none) = some written ∧
      Alters dumpsAnswered loadsAnswered ⟨[(.lastError, .str "timeout")], by decide⟩ values written := by
  have hjson : ∀ c ∈ [Column.headers, .body, .extra], ∀ j, call.normal.field c = .json j →
      Undone dumpsAnswered loadsAnswered j := by
    intro c hc j hj
    simp only [List.mem_cons, List.not_mem_nil, or_false] at hc
    rcases hc with rfl | rfl | rfl <;> obtain rfl := Cell.json.inj hj <;> exact ⟨by decide, rfl⟩
  obtain ⟨values, fetched, hvalues, hfetched, rfl, hsame, halters⟩ :=
    row_survives_storage dumpsAnswered loadsAnswered (fun _ => none) call call_storable hjson
  exact ⟨values, _, _, _, hvalues, hfetched, rfl, hsame, rfl, rfl, halters _ _ _ rfl rfl⟩

end TheCargo.WebhookFormat
