import TheCargo.Foundation.Fallible
import TheCargo.I18n

namespace TheCargo.Handlers

open Foundation I18n

structure JSONResponse where
  status : ℤ
  content : PyValue
  headers : List (String × String)

inductive Raised
  | format (e : FormatError)
  | json

inductive Loc
  | key (name : String)
  | index (n : ℤ)

def Loc.str : Loc → String
  | .key name => name
  | .index n => toString n

-- One of `exc.errors()`; what a missing entry stands for is the handler's business.
structure ValidationError where
  loc : List Loc
  msg : Option String
  type : Option String
  ctx : Params

structure AppException where
  status : ℤ
  code : String
  key : String
  params : Params
  detail : PyValue

structure HTTPException where
  status : ℤ
  detail : PyValue

def jsonResponse (status : ℤ) (content : PyValue) : Except Raised JSONResponse :=
  if content.encodable then .ok ⟨status, content, []⟩ else .error .json

def orFallback (translated : Option String) (fallback : PyValue) : PyValue :=
  match translated with
  | none => fallback
  | some text => if text = "" then fallback else .str text

variable (unicode : Unicode) (format : Format) (tables : Tables)

def message (key lang : String) (params : Params) (fallback : PyValue) : Except Raised PyValue :=
  match translate format tables key lang params with
  | .ok translated => .ok (orFallback translated fallback)
  | .error e => .error (.format e)

def envelope (code key lang : String) (params : Params) (fallback : PyValue) : Except Raised Params := do
  let message ← message format tables key lang params fallback
  pure [(.str "code", .str code), (.str "key", .str key), (.str "message", message), (.str "params", .dict params),
    (.str "detail", message)]

def classifyValidationError (msg typ loc : String) (ctx : Params) : String × String × Params :=
  let field : PyValue × PyValue := (.str "field", .str loc)
  let lower := unicode.lower msg
  if msg = "Field required" ∨ msg = "Missing required field" then
    ("FIELD_REQUIRED", "validation.field_required", [field])
  else if contains "valid email" lower then ("EMAIL_INVALID", "validation.email_invalid", [field])
  else if contains "min_length" typ then
    ("MIN_LENGTH", "validation.min_length", [field, (.str "min", ctx.get "min_length")])
  else if contains "max_length" typ then
    ("MAX_LENGTH", "validation.max_length", [field, (.str "max", ctx.get "max_length")])
  else if contains "Value error" msg then
    let reason := if contains "Value error, " msg then (split "Value error, " msg).getLastD "" else msg
    ("VALUE_ERROR", "validation.value_error", [field, (.str "reason", .str reason)])
  else if contains "pattern" typ then ("PATTERN_MISMATCH", "validation.pattern_mismatch", [field])
  else if contains "greater_than" typ then
    ("TOO_SMALL", "validation.too_small", [field, (.str "limit", ctx.get "gt")])
  else if contains "less_than" typ then
    ("TOO_LARGE", "validation.too_large", [field, (.str "limit", ctx.get "lt")])
  else ("INVALID", "validation.invalid_value", [field, (.str "reason", .str msg)])

def ValidationError.path (err : ValidationError) : String :=
  ".".intercalate ((err.loc.filter (fun x => match x with | .key name => name ≠ "body" | .index _ => true)).map Loc.str)

def ValidationError.classify (err : ValidationError) : String × String × Params :=
  classifyValidationError unicode (err.msg.getD "") (err.type.getD "value_error") err.path err.ctx

def formatValidationError (lang : String) (err : ValidationError) : Except Raised PyValue := do
  let (code, key, params) := err.classify unicode
  let message ← message format tables key lang params (.str (err.msg.getD "Invalid"))
  pure (.dict [(.str "loc", .str err.path), (.str "code", .str code), (.str "key", .str key),
    (.str "message", message), (.str "params", .dict params)])

def formatValidationErrors (lang : String) : List ValidationError → Except Raised (List PyValue)
  | [] => pure []
  | err :: errors => do
    let item ← formatValidationError unicode format tables lang err
    let items ← formatValidationErrors lang errors
    pure (item :: items)

def validationExceptionHandler (acceptLanguage : Option String) (errors : List ValidationError) :
    Except Raised JSONResponse := do
  let lang := getLanguage unicode acceptLanguage
  let content ←
    envelope format tables "VALIDATION_ERROR" "validation.multiple_errors" lang [] (.str "Validation failed")
  let items ← formatValidationErrors unicode format tables lang errors
  jsonResponse 422 (.dict (content ++ [(.str "errors", .list items)]))

def AppException.fallback (exc : AppException) : PyValue :=
  match exc.detail with
  | .str detail => .str detail
  | _ => .str exc.key

def appExceptionHandler (acceptLanguage : Option String) (exc : AppException) : Except Raised JSONResponse := do
  let lang := getLanguage unicode acceptLanguage
  let content ← envelope format tables exc.code exc.key lang exc.params exc.fallback
  jsonResponse exc.status (.dict content)

def detailFallback (detail : Params) : PyValue :=
  if (detail.get "detail").truthy then detail.get "detail"
  else if (detail.get "message").truthy then detail.get "message"
  else if (detail.get "error").truthy then detail.get "error"
  else .str "Error"

def detailParams (detail : Params) : Params :=
  detail.filter (fun p => match p.1 with | .str name => name ∉ ["detail", "message", "error"] | _ => true)

def HTTPException.fallback (exc : HTTPException) : PyValue :=
  match exc.detail with
  | .dict detail => detailFallback detail
  | .str detail => .str detail
  | _ => .str "Error"

def HTTPException.params (exc : HTTPException) : Params :=
  match exc.detail with
  | .dict detail => detailParams detail
  | _ => []

def httpKey (status : ℤ) : String := "common.http_" ++ toString status

def httpExceptionHandler (acceptLanguage : Option String) (exc : HTTPException) : Except Raised JSONResponse := do
  let lang := getLanguage unicode acceptLanguage
  let code := "HTTP_" ++ toString exc.status
  let content ← envelope format tables code (httpKey exc.status) lang exc.params exc.fallback
  jsonResponse exc.status (.dict content)

def Answers (status : ℤ) : Except Raised JSONResponse → Prop
  | .ok response => response.status = status
  | .error _ => False

instance decidableAnswers (status : ℤ) : (outcome : Except Raised JSONResponse) → Decidable (Answers status outcome)
  | .ok response => inferInstanceAs (Decidable (response.status = status))
  | .error _ => inferInstanceAs (Decidable False)

def Speaks (key lang : String) (params : Params) : Prop :=
  ∃ text, translate format tables key lang params = .ok (some text) ∧ text ≠ ""

/-- The entry of `ctx` that the parameters of an error show. -/
def shownBound (code : String) : Option String :=
  if code = "MIN_LENGTH" then some "min_length"
  else if code = "MAX_LENGTH" then some "max_length"
  else if code = "TOO_SMALL" then some "gt"
  else if code = "TOO_LARGE" then some "lt"
  else none

def Encodable (params : Params) : Prop := ∀ p ∈ params, p.1.isKey = true ∧ p.2.encodable = true

structure ValidationError.Presentable (lang : String) (err : ValidationError) : Prop where
  fills : Fills format tables (err.classify unicode).2.1 lang (err.classify unicode).2.2
  bound : ∀ name, shownBound (err.classify unicode).1 = some name → (err.ctx.get name).encodable = true

structure AppException.Presentable (lang : String) (exc : AppException) : Prop where
  fills : Fills format tables exc.key lang exc.params
  params : Encodable exc.params

structure HTTPException.Presentable (lang : String) (exc : HTTPException) : Prop where
  fills : Fills format tables (httpKey exc.status) lang exc.params
  params : Encodable exc.params
  fallback : Speaks format tables (httpKey exc.status) lang exc.params ∨ exc.fallback.encodable = true

variable {unicode format tables}

lemma answers_iff {status : ℤ} {x : Except Raised JSONResponse} :
    Answers status x ↔ ∃ response, x = .ok response ∧ response.status = status := by
  cases x <;> simp [Answers]

lemma answers_bind {α : Type} {status : ℤ} {x : Except Raised α} {f : α → Except Raised JSONResponse} :
    Answers status (x >>= f) ↔ ∃ a, x = .ok a ∧ Answers status (f a) := by
  simp only [answers_iff, bind_ok_iff]
  constructor
  · rintro ⟨response, ⟨a, ha, hf⟩, hstatus⟩
    exact ⟨a, ha, response, hf, hstatus⟩
  · rintro ⟨a, ha, response, hf, hstatus⟩
    exact ⟨response, ⟨a, ha, hf⟩, hstatus⟩

lemma answers_jsonResponse {status : ℤ} {content : PyValue} :
    Answers status (jsonResponse status content) ↔ content.encodable = true := by
  rw [jsonResponse]
  split <;> simp_all [Answers]

lemma message_ok_iff {key lang : String} {params : Params} {fallback m : PyValue} :
    message format tables key lang params fallback = .ok m ↔
      ∃ translated, translate format tables key lang params = .ok translated ∧ m = orFallback translated fallback := by
  rw [message]
  cases translate format tables key lang params with
  | error e => simp
  | ok translated => simp [eq_comm]

lemma orFallback_encodable (translated : Option String) (fallback : PyValue) :
    (orFallback translated fallback).encodable = true ↔
      (∃ text, translated = some text ∧ text ≠ "") ∨ fallback.encodable = true := by
  cases translated with
  | none => simp [orFallback]
  | some text => by_cases h : text = "" <;> simp [orFallback, h]

lemma message_encodable_iff {key lang : String} {params : Params} {fallback : PyValue} :
    (∃ m, message format tables key lang params fallback = .ok m ∧ m.encodable = true) ↔
      Fills format tables key lang params ∧
        (Speaks format tables key lang params ∨ fallback.encodable = true) := by
  rw [← translate_ok_iff]
  constructor
  · rintro ⟨m, hm, hencodable⟩
    obtain ⟨translated, htranslated, rfl⟩ := message_ok_iff.mp hm
    refine ⟨⟨translated, htranslated⟩, ?_⟩
    rcases (orFallback_encodable translated fallback).mp hencodable with ⟨text, rfl, hne⟩ | hfallback
    · exact Or.inl ⟨text, htranslated, hne⟩
    · exact Or.inr hfallback
  · rintro ⟨⟨translated, htranslated⟩, hspeaks⟩
    refine ⟨_, message_ok_iff.mpr ⟨translated, htranslated, rfl⟩, (orFallback_encodable translated fallback).mpr ?_⟩
    rcases hspeaks with ⟨text, htext, hne⟩ | hfallback
    · have hsame := Except.ok.inj (htranslated.symm.trans htext)
      exact Or.inl ⟨text, hsame, hne⟩
    · exact Or.inr hfallback

lemma encodable_params {params : Params} : (PyValue.dict params).encodable = true ↔ Encodable params :=
  PyValue.encodable_dict

lemma answers_envelope {status : ℤ} {code key lang : String} {params : Params} {fallback : PyValue} :
    Answers status (envelope format tables code key lang params fallback >>= fun content =>
        jsonResponse status (.dict content)) ↔
      Fills format tables key lang params ∧ Encodable params ∧
        (Speaks format tables key lang params ∨ fallback.encodable = true) := by
  have hcontent (m : PyValue) :
      (PyValue.dict [(.str "code", .str code), (.str "key", .str key), (.str "message", m),
        (.str "params", .dict params), (.str "detail", m)]).encodable = true ↔
        Encodable params ∧ m.encodable = true := by
    rw [← encodable_params]
    simp only [PyValue.encodable_dict_cons, PyValue.encodable_dict_nil, PyValue.encodable_str]
    tauto
  rw [envelope, bind_assoc, answers_bind]
  simp only [pure_bind, answers_jsonResponse, hcontent]
  rw [and_left_comm, ← message_encodable_iff]
  constructor
  · rintro ⟨m, hm, hparams, hencodable⟩
    exact ⟨hparams, m, hm, hencodable⟩
  · rintro ⟨hparams, m, hm, hencodable⟩
    exact ⟨m, hm, hparams, hencodable⟩

lemma encodable_field {loc name : String} {v : PyValue} :
    Encodable [(.str "field", .str loc), (.str name, v)] ↔ v.encodable = true := by
  rw [← encodable_params]
  simp only [PyValue.encodable_dict_cons, PyValue.encodable_dict_nil, PyValue.encodable_str, true_and, and_true]

def Shows (ctx : Params) (classified : String × String × Params) : Prop :=
  Encodable classified.2.2 ↔ ∀ name, shownBound classified.1 = some name → (ctx.get name).encodable = true

lemma shows_bound {code key bound name loc : String} (hcode : shownBound code = some bound) (ctx : Params) :
    Shows ctx (code, key, [(.str "field", .str loc), (.str name, ctx.get bound)]) := by
  rw [Shows, encodable_field, hcode]
  simp only [Option.some.injEq, forall_eq']

lemma shows_none {code key : String} {params : Params} (hcode : shownBound code = none) (hparams : Encodable params)
    (ctx : Params) : Shows ctx (code, key, params) := by
  rw [Shows, hcode]
  exact iff_of_true hparams nofun

lemma Shows.ite {ctx : Params} {a b : String × String × Params} {p : Prop} [Decidable p] (ha : Shows ctx a)
    (hb : Shows ctx b) : Shows ctx (if p then a else b) := by
  split
  · exact ha
  · exact hb

lemma classify_encodable {msg typ loc : String} {ctx : Params} :
    Encodable (classifyValidationError unicode msg typ loc ctx).2.2 ↔
      ∀ name, shownBound (classifyValidationError unicode msg typ loc ctx).1 = some name →
        (ctx.get name).encodable = true := by
  have hfield : Encodable [(.str "field", .str loc)] :=
    encodable_params.mp (PyValue.encodable_dict_cons.mpr ⟨PyValue.encodable_str _, PyValue.encodable_dict_nil⟩)
  have hreason (reason : String) : Encodable [(.str "field", .str loc), (.str "reason", .str reason)] :=
    encodable_field.mpr (PyValue.encodable_str reason)
  change Shows ctx (classifyValidationError unicode msg typ loc ctx)
  rw [classifyValidationError]
  refine .ite (shows_none rfl hfield ctx) (.ite (shows_none rfl hfield ctx) (.ite (shows_bound rfl ctx)
    (.ite (shows_bound rfl ctx) (.ite (shows_none rfl (hreason _) ctx) (.ite (shows_none rfl hfield ctx) ?_)))))
  exact .ite (shows_bound rfl ctx) (.ite (shows_bound rfl ctx) (shows_none rfl (hreason _) ctx))

lemma formatValidationError_ok_iff {lang : String} {err : ValidationError} :
    (∃ item, formatValidationError unicode format tables lang err = .ok item ∧ item.encodable = true) ↔
      err.Presentable unicode format tables lang := by
  have hbound : Encodable (err.classify unicode).2.2 ↔ ∀ name, shownBound (err.classify unicode).1 = some name →
      (err.ctx.get name).encodable = true := classify_encodable
  have hpresentable : err.Presentable unicode format tables lang ↔
      Fills format tables (err.classify unicode).2.1 lang (err.classify unicode).2.2 ∧
        Encodable (err.classify unicode).2.2 := by
    rw [hbound]
    exact ⟨fun h => ⟨h.fills, h.bound⟩, fun h => ⟨h.1, h.2⟩⟩
  rw [hpresentable, formatValidationError]
  rcases err.classify unicode with ⟨code, key, params⟩
  have hcontent (m : PyValue) :
      (PyValue.dict [(.str "loc", .str err.path), (.str "code", .str code), (.str "key", .str key),
        (.str "message", m), (.str "params", .dict params)]).encodable = true ↔
        m.encodable = true ∧ Encodable params := by
    rw [← encodable_params]
    simp only [PyValue.encodable_dict_cons, PyValue.encodable_dict_nil, PyValue.encodable_str, true_and, and_true]
  have hmessage : (∃ m, message format tables key lang params (.str (err.msg.getD "Invalid")) = .ok m ∧
      m.encodable = true) ↔ Fills format tables key lang params := by
    rw [message_encodable_iff, PyValue.encodable_str]
    simp
  rw [← hmessage]
  constructor
  · rintro ⟨item, hitem, hencodable⟩
    obtain ⟨m, hm, hpure⟩ := bind_ok_iff.mp hitem
    obtain rfl := Except.ok.inj hpure
    obtain ⟨hm', hparams⟩ := (hcontent m).mp hencodable
    exact ⟨⟨m, hm, hm'⟩, hparams⟩
  · rintro ⟨⟨m, hm, hm'⟩, hparams⟩
    exact ⟨_, bind_ok_iff.mpr ⟨m, hm, rfl⟩, (hcontent m).mpr ⟨hm', hparams⟩⟩

lemma formatValidationErrors_ok_iff {lang : String} {errors : List ValidationError} :
    (∃ items, formatValidationErrors unicode format tables lang errors = .ok items ∧
        (PyValue.list items).encodable = true) ↔
      ∀ err ∈ errors, err.Presentable unicode format tables lang := by
  induction errors with
  | nil => simp [formatValidationErrors, pure, Except.pure, PyValue.encodable_list]
  | cons err errors ih =>
    rw [List.forall_mem_cons, ← ih, ← formatValidationError_ok_iff, formatValidationErrors]
    constructor
    · rintro ⟨items, hitems, hencodable⟩
      obtain ⟨item, hitem, hitems⟩ := bind_ok_iff.mp hitems
      obtain ⟨rest, hrest, hpure⟩ := bind_ok_iff.mp hitems
      obtain rfl := Except.ok.inj hpure
      rw [PyValue.encodable_list, List.forall_mem_cons] at hencodable
      exact ⟨⟨item, hitem, hencodable.1⟩, rest, hrest, PyValue.encodable_list.mpr hencodable.2⟩
    · rintro ⟨⟨item, hitem, hencodable⟩, rest, hrest, hencodables⟩
      refine ⟨item :: rest, bind_ok_iff.mpr ⟨item, hitem, bind_ok_iff.mpr ⟨rest, hrest, rfl⟩⟩, ?_⟩
      exact PyValue.encodable_list.mpr (List.forall_mem_cons.mpr ⟨hencodable, PyValue.encodable_list.mp hencodables⟩)

lemma validation_answers_iff (acceptLanguage : Option String) (errors : List ValidationError) :
    Answers 422 (validationExceptionHandler unicode format tables acceptLanguage errors) ↔
      ∀ err ∈ errors, err.Presentable unicode format tables (getLanguage unicode acceptLanguage) := by
  let lang := getLanguage unicode acceptLanguage
  obtain ⟨m, hm, hm'⟩ : ∃ m, message format tables "validation.multiple_errors" lang [] (.str "Validation failed") =
      .ok m ∧ m.encodable = true :=
    message_encodable_iff.mpr ⟨fills_nil _ _, Or.inr (PyValue.encodable_str _)⟩
  have hencodable (items : List PyValue) :
      (PyValue.dict ([(.str "code", .str "VALIDATION_ERROR"), (.str "key", .str "validation.multiple_errors"),
        (.str "message", m), (.str "params", .dict []), (.str "detail", m)] ++
          [(.str "errors", .list items)])).encodable = true ↔ (PyValue.list items).encodable = true := by
    simp only [List.cons_append, List.nil_append, PyValue.encodable_dict_cons, PyValue.encodable_dict_nil,
      PyValue.encodable_str, hm', true_and, and_true]
  rw [← formatValidationErrors_ok_iff, validationExceptionHandler, envelope, hm]
  change Answers 422 (formatValidationErrors unicode format tables lang errors >>= _) ↔ _
  simp only [answers_bind, answers_jsonResponse]
  exact exists_congr (fun items => and_congr_right (fun _ => hencodable items))

lemma app_answers_iff (acceptLanguage : Option String) (exc : AppException) :
    Answers exc.status (appExceptionHandler unicode format tables acceptLanguage exc) ↔
      exc.Presentable format tables (getLanguage unicode acceptLanguage) := by
  have hfallback : exc.fallback.encodable = true := by
    rw [AppException.fallback]
    split <;> exact PyValue.encodable_str _
  rw [appExceptionHandler, answers_envelope]
  constructor
  · rintro ⟨hfills, hparams, _⟩
    exact ⟨hfills, hparams⟩
  · intro h
    exact ⟨h.fills, h.params, Or.inr hfallback⟩

lemma http_answers_iff (acceptLanguage : Option String) (exc : HTTPException) :
    Answers exc.status (httpExceptionHandler unicode format tables acceptLanguage exc) ↔
      exc.Presentable format tables (getLanguage unicode acceptLanguage) := by
  rw [httpExceptionHandler, answers_envelope]
  constructor
  · rintro ⟨hfills, hparams, hfallback⟩
    exact ⟨hfills, hparams, hfallback⟩
  · intro h
    exact ⟨h.fills, h.params, h.fallback⟩

theorem handlers_answer_iff (unicode : Unicode) (format : Format) (tables : Tables) (acceptLanguage : Option String) :
    (∀ errors, Answers 422 (validationExceptionHandler unicode format tables acceptLanguage errors) ↔
      ∀ err ∈ errors, err.Presentable unicode format tables (getLanguage unicode acceptLanguage)) ∧
    (∀ exc : AppException, Answers exc.status (appExceptionHandler unicode format tables acceptLanguage exc) ↔
      exc.Presentable format tables (getLanguage unicode acceptLanguage)) ∧
    ∀ exc : HTTPException, Answers exc.status (httpExceptionHandler unicode format tables acceptLanguage exc) ↔
      exc.Presentable format tables (getLanguage unicode acceptLanguage) :=
  ⟨validation_answers_iff acceptLanguage, app_answers_iff acceptLanguage, http_answers_iff acceptLanguage⟩

theorem a_decimal_bound_is_not_answered :
    ¬Answers 422 (validationExceptionHandler Unicode.ascii (fun text _ => .ok text) (fun _ => Dict.empty) none
      [⟨[.key "body", .key "price"], some "Input should be greater than 0.5", some "greater_than",
        [(.str "gt", .other true)]⟩]) := by
  decide +kernel

end TheCargo.Handlers
