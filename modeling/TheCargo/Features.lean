import TheCargo.Foundation.Json
import TheCargo.Foundation.PyString
import TheCargo.Foundation.Runs
import TheCargo.Foundation.Updates

/-! What a subscription switches on: the cached entitlements of an organization, and what stands in for them. -/

namespace TheCargo.Features

open Foundation Foundation.Runs

def phoneOrgType : String := "phone"

-- the keys of `FEATURES`
def features : List String :=
  ["phone", "os", "recording", "ai", "ivr", "analytics", "campaign", "api", "power_dialer", "supervisor"]

structure Entitlements where
  plan : Json
  status : Json
  features : Json
  paymentModel : Json

def isStr (s : String) : Json → Bool
  | .str t => t = s
  | _ => false

/-- `key in value`, or nothing where the operator raises. -/
def contains (key : String) : Json → Option Bool
  | .obj fields => some ((fields.map Prod.fst).contains key)
  | .arr xs => some (xs.any (isStr key))
  | .str s => some (Foundation.contains key s)
  | _ => none

def Entitlements.active (e : Entitlements) : Bool :=
  ["active", "trialing", "past_due"].any (fun status => isStr status e.status)

def Entitlements.has (e : Entitlements) (key : String) : Option Bool := contains key e.features

def allFeatures : Entitlements :=
  ⟨.str "broker", .str "active", .obj (features.map (fun key => (key, .null))), .null⟩

def noFeatures : Entitlements := ⟨.str "unknown", .str "unavailable", .obj [], .null⟩

/-- The entitlements in a reply of billing, or nothing where building them raises. -/
def Entitlements.ofReply : Json → Option Entitlements
  | .obj fields => do
    let plan ← lookup "plan" fields
    let status ← lookup "status" fields
    let features ← lookup "features" fields
    some ⟨plan, status, features, (lookup "payment_model" fields).getD .null⟩
  | _ => none

def typeOf : Json → Option Json
  | .obj fields =>
    let kind := (lookup "type" fields).getD .null
    some (if kind.truthy then kind else .str "broker")
  | _ => none

def outageFallback : Option Json → Entitlements
  | none => allFeatures
  | some kind => if isStr phoneOrgType kind then noFeatures else allFeatures

def entitlementsKey (organizationId : String) : String := "org:ent:" ++ organizationId

def orgTypeKey (organizationId : String) : String := "org:type:" ++ organizationId

inductive Request
  | entitlements
  | hasFeature (key : String)
  | orgType

inductive Answer
  | entitlements (e : Entitlements)
  | feature (has : Bool)
  | orgType (kind : Json)
  | raised

-- What a call awaits.
inductive Phase
  | cacheGet
  | billing
  | cacheSet (data : Json)
  | typeGet
  | auth
  | typeSet (kind : Json)
  | returned (answer : Answer)

structure Call where
  organizationId : String
  request : Request
  phase : Phase

-- JSON texts stand as the values they are read back as; `replies` is what billing has answered so far.
structure World where
  redis : String → Option Json
  calls : ℕ → Option Call
  replies : List (String × Json)

-- A service that does not answer raises. A write that raises after Redis took it counts as answered.
inductive Event
  | enter (i : ℕ) (organizationId : String) (request : Request)
  | redis (i : ℕ) (answers : Bool)
  | billing (i : ℕ) (reply : Option Json)
  | auth (i : ℕ) (reply : Option Json)
  | expire (key : String)

def Request.first : Request → Phase
  | .orgType => .typeGet
  | _ => .cacheGet

def Request.answer (e : Entitlements) : Request → Answer
  | .hasFeature key =>
    if e.active then
      match e.has key with
      | some has => .feature has
      | none => .raised
    else .feature false
  | _ => .entitlements e

def Request.answerReply (data : Json) (request : Request) : Answer :=
  match Entitlements.ofReply data with
  | some e => request.answer e
  | none => .raised

def Request.answerType : Option Json → Request → Answer
  | some kind, .orgType => .orgType kind
  | none, .orgType => .raised
  | kind, request => request.answer (outageFallback kind)

def World.become (w : World) (i : ℕ) (c : Call) : World := { w with calls := Function.update w.calls i (some c) }

def World.get (w : World) (answers : Bool) (key : String) : Option Json := if answers then w.redis key else none

def World.setex (w : World) (answers : Bool) (key : String) (value : Json) : World :=
  if answers then { w with redis := Function.update w.redis key (some value) } else w

def useRedis (w : World) (answers : Bool) (c : Call) : Option (World × Phase) :=
  match c.phase with
  | .cacheGet =>
    match w.get answers (entitlementsKey c.organizationId) with
    | none => some (w, .billing)
    | some data => some (w, .returned (c.request.answerReply data))
  | .cacheSet data =>
    some (w.setex answers (entitlementsKey c.organizationId) data, .returned (c.request.answerReply data))
  | .typeGet =>
    match w.get answers (orgTypeKey c.organizationId) with
    | none => some (w, .auth)
    | some kind => some (w, .returned (c.request.answerType (some kind)))
  | .typeSet kind =>
    some (w.setex answers (orgTypeKey c.organizationId) kind, .returned (c.request.answerType (some kind)))
  | _ => none

variable (isPhone : String → Bool)

def names (organizationId : String) (reply : Json) : Bool :=
  !isPhone organizationId || (typeOf reply).any (isStr phoneOrgType)

def step (w : World) : Event → Option World
  | .enter i organizationId request =>
    match w.calls i with
    | none => some (w.become i ⟨organizationId, request, request.first⟩)
    | some _ => none
  | .redis i answers => do
    let c ← w.calls i
    let (v, phase) ← useRedis w answers c
    some (v.become i { c with phase := phase })
  | .billing i reply =>
    match w.calls i, reply with
    | some ⟨organizationId, request, .billing⟩, some data =>
      some ({ w with replies := w.replies ++ [(organizationId, data)] }.become i
        ⟨organizationId, request, .cacheSet data⟩)
    | some ⟨organizationId, request, .billing⟩, none => some (w.become i ⟨organizationId, request, .typeGet⟩)
    | _, _ => none
  | .auth i reply =>
    match w.calls i with
    | some ⟨organizationId, request, .auth⟩ =>
      if reply.all (names isPhone organizationId) then
        match reply.bind typeOf with
        | some kind => some (w.become i ⟨organizationId, request, .typeSet kind⟩)
        | none => some (w.become i ⟨organizationId, request, .returned (request.answerType none)⟩)
      else none
    | _ => none
  | .expire key => some { w with redis := Function.update w.redis key none }

def start : World := ⟨fun _ => none, fun _ => none, []⟩

def Given (w : World) (organizationId key : String) : Prop :=
  ∃ reply e, (organizationId, reply) ∈ w.replies ∧ Entitlements.ofReply reply = some e ∧ e.has key = some true

def Bought (w : World) : Prop :=
  ∀ i organizationId key, isPhone organizationId = true →
    w.calls i = some ⟨organizationId, .hasFeature key, .returned (.feature true)⟩ → Given w organizationId key

def TypeKnown (w : World) : Event → Prop
  | .auth i none =>
    ∀ organizationId key, isPhone organizationId = true →
      w.calls i = some ⟨organizationId, .hasFeature key, .auth⟩ → key ∈ features → Given w organizationId key
  | _ => True

def Sound (w : World) (c : Call) : Prop :=
  match c.phase with
  | .cacheSet data => (c.organizationId, data) ∈ w.replies
  | .typeSet kind => isPhone c.organizationId = true → isStr phoneOrgType kind = true
  | .returned answer =>
    ∀ key, isPhone c.organizationId = true → c.request = .hasFeature key → answer = .feature true →
      Given w c.organizationId key
  | _ => True

structure Kept (w : World) : Prop where
  entitlements : ∀ organizationId data, w.redis (entitlementsKey organizationId) = some data →
    (organizationId, data) ∈ w.replies
  types : ∀ organizationId kind, isPhone organizationId = true → w.redis (orgTypeKey organizationId) = some kind →
    isStr phoneOrgType kind = true
  calls : ∀ i c, w.calls i = some c → Sound isPhone w c

variable {isPhone} {w v : World} {organizationId key : String}

lemma entitlementsKey_inj {a b : String} (h : entitlementsKey a = entitlementsKey b) : a = b :=
  (String.append_right_inj _).mp h

lemma orgTypeKey_inj {a b : String} (h : orgTypeKey a = orgTypeKey b) : a = b := (String.append_right_inj _).mp h

lemma entitlementsKey_ne_orgTypeKey (a b : String) : entitlementsKey a ≠ orgTypeKey b := by
  intro h
  have hlist := congrArg (fun s => s.toList[4]?) h
  simp [entitlementsKey, orgTypeKey] at hlist

lemma answer_feature {e : Entitlements} (h : Request.answer e (.hasFeature key) = .feature true) :
    e.active = true ∧ e.has key = some true := by
  rw [Request.answer] at h
  cases hactive : e.active with
  | false => simp [hactive] at h
  | true =>
    rw [hactive, if_pos rfl] at h
    cases hhas : e.has key with
    | none => simp [hhas] at h
    | some has =>
      rw [hhas] at h
      exact ⟨rfl, congrArg some (Answer.feature.inj h)⟩

lemma answerReply_feature {data : Json} (h : Request.answerReply data (.hasFeature key) = .feature true) :
    ∃ e, Entitlements.ofReply data = some e ∧ e.has key = some true := by
  rw [Request.answerReply] at h
  cases hdata : Entitlements.ofReply data with
  | none => simp [hdata] at h
  | some e =>
    rw [hdata] at h
    exact ⟨e, rfl, (answer_feature h).2⟩

lemma answerType_phone {kind : Json} (hkind : isStr phoneOrgType kind = true) :
    Request.answerType (some kind) (.hasFeature key) = .feature false := by
  simp only [Request.answerType, outageFallback, hkind, if_true, Request.answer]
  rfl

lemma answerType_none (key : String) :
    Request.answerType none (.hasFeature key) = .feature (decide (key ∈ features)) := by
  have hkeys : (features.map (fun key => (key, Json.null))).map Prod.fst = features := rfl
  have hhas : allFeatures.has key = some (decide (key ∈ features)) := by
    rw [Entitlements.has, allFeatures, contains, hkeys, List.contains_eq_mem]
  have hactive : allFeatures.active = true := rfl
  simp only [Request.answerType, outageFallback, Request.answer, hactive, if_true, hhas]

lemma Given.mono (h : Given w organizationId key) (hv : w.replies ⊆ v.replies) : Given v organizationId key := by
  obtain ⟨reply, e, hreply, he⟩ := h
  exact ⟨reply, e, hv hreply, he⟩

lemma Sound.mono {c : Call} (h : Sound isPhone w c) (hv : w.replies ⊆ v.replies) : Sound isPhone v c := by
  obtain ⟨organizationId, request, phase⟩ := c
  cases phase with
  | cacheSet data => exact hv h
  | returned answer => exact fun key hphone hrequest hanswer => (h key hphone hrequest hanswer).mono hv
  | typeSet kind => exact h
  | _ => trivial

lemma Kept.become (h : Kept isPhone w) (i : ℕ) {c : Call} (hc : Sound isPhone w c) : Kept isPhone (w.become i c) := by
  refine ⟨h.entitlements, h.types, fun j d hd => ?_⟩
  rcases Updates.update_eq hd with ⟨_, hcd⟩ | hd
  · obtain rfl := Option.some.inj hcd
    exact hc.mono (List.Subset.refl _)
  · exact (h.calls j d hd).mono (List.Subset.refl _)

lemma Kept.reply (h : Kept isPhone w) (reply : String × Json) :
    Kept isPhone { w with replies := w.replies ++ [reply] } := by
  have hsub : w.replies ⊆ w.replies ++ [reply] := List.subset_append_left _ _
  exact ⟨fun a data hdata => hsub (h.entitlements a data hdata), h.types, fun i c hc => (h.calls i c hc).mono hsub⟩

lemma Kept.expire (h : Kept isPhone w) (key : String) :
    Kept isPhone { w with redis := Function.update w.redis key none } := by
  have hheld {k : String} {value : Json} (hk : Function.update w.redis key none k = some value) :
      w.redis k = some value := (Updates.update_eq hk).resolve_left nofun
  exact ⟨fun a data hdata => h.entitlements a data (hheld hdata),
    fun a kind hphone hkind => h.types a kind hphone (hheld hkind), h.calls⟩

lemma setex_replies (w : World) (answers : Bool) (key : String) (value : Json) :
    (w.setex answers key value).replies = w.replies := by
  rw [World.setex]
  split <;> rfl

lemma subset_setex (w : World) (answers : Bool) (key : String) (value : Json) :
    w.replies ⊆ (w.setex answers key value).replies := by
  rw [setex_replies]
  exact List.Subset.refl _

lemma setex_calls (w : World) (answers : Bool) (key : String) (value : Json) :
    (w.setex answers key value).calls = w.calls := by
  rw [World.setex]
  split <;> rfl

lemma setex_redis {answers : Bool} {k : String} {value data : Json}
    (h : (w.setex answers key value).redis k = some data) : (k = key ∧ data = value) ∨ w.redis k = some data := by
  rw [World.setex] at h
  split at h
  · exact (Updates.update_eq h).imp_left (fun hk => ⟨hk.1, (Option.some.inj hk.2).symm⟩)
  · exact Or.inr h

lemma Kept.setex (h : Kept isPhone w) (answers : Bool) {value : Json}
    (hentitlements : ∀ a, entitlementsKey a = key → (a, value) ∈ w.replies)
    (htypes : ∀ a, orgTypeKey a = key → isPhone a = true → isStr phoneOrgType value = true) :
    Kept isPhone (w.setex answers key value) := by
  refine ⟨fun a data hdata => ?_, fun a kind hphone hkind => ?_, fun i c hc => ?_⟩
  · rw [setex_replies]
    rcases setex_redis hdata with ⟨hkey, rfl⟩ | hdata
    · exact hentitlements a hkey
    · exact h.entitlements a data hdata
  · rcases setex_redis hkind with ⟨hkey, rfl⟩ | hkind
    · exact htypes a hkey hphone
    · exact h.types a kind hphone hkind
  · rw [setex_calls] at hc
    exact (h.calls i c hc).mono (subset_setex ..)

lemma get_held {answers : Bool} {value : Json} (h : w.get answers key = some value) : w.redis key = some value := by
  rw [World.get] at h
  split at h
  · exact h
  · cases h

lemma sound_reply {organizationId : String} {request : Request} {data : Json}
    (hdata : (organizationId, data) ∈ w.replies) :
    Sound isPhone w ⟨organizationId, request, .returned (request.answerReply data)⟩ := by
  rintro key _ rfl hanswer
  obtain ⟨e, he, hhas⟩ := answerReply_feature hanswer
  exact ⟨data, e, hdata, he, hhas⟩

lemma sound_type {organizationId : String} {request : Request} {kind : Json}
    (hkind : isPhone organizationId = true → isStr phoneOrgType kind = true) :
    Sound isPhone w ⟨organizationId, request, .returned (request.answerType (some kind))⟩ := by
  rintro key hphone rfl hanswer
  exact absurd ((answerType_phone (hkind hphone)).symm.trans hanswer) nofun

lemma Kept.setEntitlements (h : Kept isPhone w) (answers : Bool) {organizationId : String} {data : Json}
    (hdata : (organizationId, data) ∈ w.replies) :
    Kept isPhone (w.setex answers (entitlementsKey organizationId) data) := by
  apply h.setex
  · intro a ha
    rwa [entitlementsKey_inj ha]
  · intro a ha
    exact absurd ha.symm (entitlementsKey_ne_orgTypeKey _ _)

lemma Kept.setType (h : Kept isPhone w) (answers : Bool) {organizationId : String} {kind : Json}
    (hkind : isPhone organizationId = true → isStr phoneOrgType kind = true) :
    Kept isPhone (w.setex answers (orgTypeKey organizationId) kind) := by
  apply h.setex
  · intro a ha
    exact absurd ha (entitlementsKey_ne_orgTypeKey _ _)
  · intro a ha
    rwa [orgTypeKey_inj ha]

lemma Kept.useRedis (h : Kept isPhone w) {i : ℕ} {c : Call} (hc : w.calls i = some c) {answers : Bool} {phase : Phase}
    (hv : Features.useRedis w answers c = some (v, phase)) :
    Kept isPhone v ∧ Sound isPhone v { c with phase := phase } := by
  have hsound := h.calls i c hc
  obtain ⟨organizationId, request, before⟩ := c
  cases before with
  | cacheGet =>
    rw [Features.useRedis] at hv
    cases hget : w.get answers (entitlementsKey organizationId) with
    | none =>
      simp only [hget] at hv
      obtain ⟨rfl, rfl⟩ := Prod.mk.inj (Option.some.inj hv)
      exact ⟨h, trivial⟩
    | some data =>
      simp only [hget] at hv
      obtain ⟨rfl, rfl⟩ := Prod.mk.inj (Option.some.inj hv)
      exact ⟨h, sound_reply (h.entitlements _ _ (get_held hget))⟩
  | cacheSet data =>
    obtain ⟨rfl, rfl⟩ := Prod.mk.inj (Option.some.inj hv)
    exact ⟨h.setEntitlements answers hsound, (sound_reply hsound).mono (subset_setex ..)⟩
  | typeGet =>
    rw [Features.useRedis] at hv
    cases hget : w.get answers (orgTypeKey organizationId) with
    | none =>
      simp only [hget] at hv
      obtain ⟨rfl, rfl⟩ := Prod.mk.inj (Option.some.inj hv)
      exact ⟨h, trivial⟩
    | some kind =>
      simp only [hget] at hv
      obtain ⟨rfl, rfl⟩ := Prod.mk.inj (Option.some.inj hv)
      exact ⟨h, sound_type (fun hphone => h.types _ _ hphone (get_held hget))⟩
  | typeSet kind =>
    obtain ⟨rfl, rfl⟩ := Prod.mk.inj (Option.some.inj hv)
    have hsent : Sound isPhone w ⟨organizationId, request, .returned (request.answerType (some kind))⟩ :=
      sound_type hsound
    exact ⟨h.setType answers hsound, hsent.mono (subset_setex ..)⟩
  | billing => cases hv
  | auth => cases hv
  | returned answer => cases hv

lemma Kept.auth (h : Kept isPhone w) {i : ℕ} {request : Request}
    (hc : w.calls i = some ⟨organizationId, request, .auth⟩) {reply : Option Json}
    (hknown : TypeKnown isPhone w (.auth i reply)) (hv : step isPhone w (.auth i reply) = some v) : Kept isPhone v := by
  rw [step, hc] at hv
  dsimp only at hv
  split at hv
  · rename_i hnames
    cases reply with
    | none =>
      obtain rfl := Option.some.inj hv
      refine h.become i ?_
      rintro key hphone rfl hanswer
      have hkey : key ∈ features := of_decide_eq_true (Answer.feature.inj ((answerType_none key).symm.trans hanswer))
      exact hknown organizationId key hphone hc hkey
    | some data =>
      have hnames : names isPhone organizationId data = true := hnames
      cases htype : typeOf data with
      | none =>
        simp only [Option.bind_some, htype] at hv
        obtain rfl := Option.some.inj hv
        refine h.become i ?_
        intro key hphone
        simp [names, htype, hphone] at hnames
      | some kind =>
        simp only [Option.bind_some, htype] at hv
        obtain rfl := Option.some.inj hv
        refine h.become i ?_
        intro hphone
        simpa [names, htype, hphone] using hnames
  · cases hv

lemma Kept.step (h : Kept isPhone w) {e : Event} (hknown : TypeKnown isPhone w e)
    (hv : Features.step isPhone w e = some v) : Kept isPhone v := by
  cases e with
  | enter i organizationId request =>
    rw [Features.step] at hv
    split at hv
    · obtain rfl := Option.some.inj hv
      exact h.become i (by cases request <;> trivial)
    · cases hv
  | redis i answers =>
    obtain ⟨c, hc, hv⟩ := Option.bind_eq_some_iff.mp hv
    obtain ⟨⟨u, phase⟩, hu, hv⟩ := Option.bind_eq_some_iff.mp hv
    obtain rfl := Option.some.inj hv
    obtain ⟨hkept, hsound⟩ := h.useRedis hc hu
    exact hkept.become i hsound
  | billing i reply =>
    cases hc : w.calls i with
    | none => simp [Features.step, hc] at hv
    | some c =>
      obtain ⟨organizationId, request, phase⟩ := c
      cases phase with
      | billing =>
        cases reply with
        | none =>
          simp only [Features.step, hc] at hv
          obtain rfl := Option.some.inj hv
          exact h.become i trivial
        | some data =>
          simp only [Features.step, hc] at hv
          obtain rfl := Option.some.inj hv
          exact (h.reply (organizationId, data)).become i (List.mem_append_right _ (List.mem_singleton_self _))
      | _ => simp [Features.step, hc] at hv
  | auth i reply =>
    cases hc : w.calls i with
    | none => simp [Features.step, hc] at hv
    | some c =>
      obtain ⟨organizationId, request, phase⟩ := c
      cases phase with
      | auth => exact h.auth hc hknown hv
      | _ => simp [Features.step, hc] at hv
  | expire key =>
    obtain rfl := Option.some.inj hv
    exact h.expire key

lemma kept_start : Kept isPhone start := ⟨nofun, nofun, nofun⟩

lemma Kept.bought (h : Kept isPhone w) : Bought isPhone w :=
  fun i _ key hphone hc => h.calls i _ hc key hphone rfl rfl

lemma Kept.bought_iff (h : Kept isPhone w) (e : Event) :
    (∀ v, Features.step isPhone w e = some v → Bought isPhone v) ↔ TypeKnown isPhone w e := by
  constructor
  · intro hbought
    cases e with
    | auth i reply =>
      cases reply with
      | none =>
        intro organizationId key hphone hc hkey
        have hv : Features.step isPhone w (.auth i none) =
            some (w.become i ⟨organizationId, .hasFeature key, .returned (.feature true)⟩) := by
          rw [Features.step, hc]
          simp [answerType_none, hkey]
        exact hbought _ hv i organizationId key hphone (Function.update_self ..)
      | some data => trivial
    | _ => trivial
  · exact fun hknown v hv => (h.step hknown hv).bought

theorem only_what_billing_gave_iff (isPhone : String → Bool) (events : List Event) :
    (∀ past w, past <+: events → run (step isPhone) start past = some w → Bought isPhone w) ↔
      Along (step isPhone) (TypeKnown isPhone) start events := by
  rw [always_iff kept_start.bought]
  refine along_congr (fun w e hw => hw.bought_iff e) (fun w e v hw hok hv => ?_) kept_start
  exact hw.step ((hw.bought_iff e).mp hok) hv

theorem an_outage_gives_what_was_not_bought :
    ∃ w, run (step fun _ => true) start [.enter 0 "acme" (.hasFeature "ai"), .redis 0 true, .billing 0 none,
        .redis 0 true, .auth 0 none] = some w ∧ ¬Bought (fun _ => true) w := by
  refine ⟨_, rfl, fun h => ?_⟩
  obtain ⟨reply, e, hreply, _⟩ := h 0 "acme" "ai" rfl rfl
  exact absurd hreply List.not_mem_nil

end TheCargo.Features
