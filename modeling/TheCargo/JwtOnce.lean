import TheCargo.Models.Base

/-! One decoding of a bearer token for all the readers of a request. -/

namespace TheCargo.JwtOnce

open Models

structure Key where
  token : String
  secret : String
  algorithm : String
  deriving DecidableEq, Repr

/-- One call of `decode_once`; without a scope the caller has no request at hand. -/
structure Read where
  key : Key
  now : Instant
  hasScope : Bool
  deriving DecidableEq

-- `jwt.decode` under a key; a token that is valid now may have expired a moment later.
variable {ε π : Type*} (decode : Instant → Key → Except ε π)

/-- What the scope holds under `_SCOPE_KEY` -/
abbrev Slot (π : Type*) := Option (Key × π)

def hit (slot : Slot π) (read : Read) : Option π :=
  if read.hasScope then (slot.filter (fun cached => cached.1 = read.key)).map Prod.snd else none

def decodeOnce (slot : Slot π) (read : Read) : Except ε π × Slot π :=
  match hit slot read with
  | some payload => (.ok payload, slot)
  | none =>
    match decode read.now read.key with
    | .ok payload => (.ok payload, if read.hasScope then some (read.key, payload) else slot)
    | .error e => (.error e, slot)

structure Served (ε π : Type*) where
  read : Read
  answer : Except ε π
  verified : Bool

def Served.failed (g : Served ε π) : Bool := !g.answer.toBool

def answerTo (slot : Slot π) (read : Read) : Served ε π :=
  ⟨read, (decodeOnce decode slot read).1, (hit slot read).isNone⟩

def serve (slot : Slot π) : List Read → List (Served ε π)
  | [] => []
  | read :: reads => answerTo decode slot read :: serve (decodeOnce decode slot read).2 reads

variable {decode} {slot : Slot π} {read : Read} {payload : π}

lemma hit_eq_some : hit slot read = some payload ↔ read.hasScope = true ∧ slot = some (read.key, payload) := by
  cases slot with
  | none => simp [hit]
  | some cached =>
    obtain ⟨key, known⟩ := cached
    rw [hit]
    by_cases hk : key = read.key
    · simp [hk, Option.filter]
    · simp [hk, Option.filter]

lemma decodeOnce_hit (h : hit slot read = some payload) : decodeOnce decode slot read = (.ok payload, slot) := by
  rw [decodeOnce, h]

lemma decodeOnce_miss (h : hit slot read = none) : (decodeOnce decode slot read).1 = decode read.now read.key := by
  rw [decodeOnce, h]
  cases decode read.now read.key <;> rfl

def Known (decode : Instant → Key → Except ε π) (before : List Read) (slot : Slot π) : Prop :=
  ∀ cached ∈ slot, ∃ first ∈ before, first.key = cached.1 ∧ decode first.now first.key = .ok cached.2

lemma Known.next {before : List Read} (h : Known decode before slot) (read : Read) :
    Known decode (before ++ [read]) (decodeOnce decode slot read).2 := by
  have hold : Known decode (before ++ [read]) slot := by
    intro cached hcached
    obtain ⟨first, hfirst, hsame⟩ := h cached hcached
    exact ⟨first, List.mem_append_left _ hfirst, hsame⟩
  cases hh : hit slot read with
  | some payload =>
    rw [decodeOnce_hit hh]
    exact hold
  | none =>
    rw [decodeOnce, hh]
    cases hd : decode read.now read.key with
    | error e => exact hold
    | ok payload =>
      cases hs : read.hasScope with
      | false => exact hold
      | true =>
        intro cached hcached
        obtain rfl : (read.key, payload) = cached := Option.some.inj hcached
        exact ⟨read, List.mem_append_right _ List.mem_cons_self, rfl, hd⟩

def Sound (decode : Instant → Key → Except ε π) (before : List Read) (read : Read) : Except ε π → Prop
  | .ok payload => ∃ first ∈ before ++ [read], first.key = read.key ∧ decode first.now first.key = .ok payload
  | .error e => decode read.now read.key = .error e

lemma Known.sound {before : List Read} (h : Known decode before slot) (read : Read) :
    Sound decode before read (decodeOnce decode slot read).1 := by
  cases hh : hit slot read with
  | some payload =>
    rw [decodeOnce_hit hh]
    obtain ⟨first, hfirst, hkey, hd⟩ := h _ (hit_eq_some.mp hh).2
    exact ⟨first, List.mem_append_left _ hfirst, hkey, hd⟩
  | none =>
    rw [decodeOnce_miss hh]
    cases hd : decode read.now read.key with
    | ok payload => exact ⟨read, List.mem_append_right _ List.mem_cons_self, rfl, hd⟩
    | error e => exact hd

lemma serve_sound {reads before : List Read} (h : Known decode before slot) {past rest : List (Served ε π)}
    {g : Served ε π} (hs : serve decode slot reads = past ++ g :: rest) :
    Sound decode (before ++ past.map Served.read) g.read g.answer := by
  induction reads generalizing slot before past with
  | nil => exact absurd hs (List.append_ne_nil_of_right_ne_nil past (List.cons_ne_nil g rest)).symm
  | cons read reads ih =>
    rw [serve] at hs
    cases past with
    | nil =>
      obtain ⟨rfl, -⟩ := List.cons.inj hs
      rw [List.map_nil, List.append_nil]
      exact h.sound read
    | cons earlier past =>
      obtain ⟨rfl, htail⟩ := List.cons.inj hs
      have hrest := ih (h.next read) htail
      rwa [List.append_assoc, List.singleton_append] at hrest

lemma serve_reads (slot : Slot π) (reads : List Read) : (serve decode slot reads).map Served.read = reads := by
  induction reads generalizing slot with
  | nil => rfl
  | cons read reads ih => rw [serve, List.map_cons, ih, answerTo]

lemma serve_back {reads : List Read} {past rest : List (Served ε π)} (hs : serve decode slot reads = past ++ rest) :
    ∃ held, rest = serve decode held (rest.map Served.read) := by
  induction past generalizing slot reads with
  | nil => exact ⟨slot, by rw [List.nil_append] at hs; rw [← hs, serve_reads]⟩
  | cons g past ih =>
    cases reads with
    | nil => cases hs
    | cons read reads => exact ih (List.cons.inj hs).2

lemma serve_front {reads : List Read} {span later : List (Served ε π)}
    (hs : serve decode slot reads = span ++ later) : span = serve decode slot (span.map Served.read) := by
  induction span generalizing slot reads with
  | nil => rfl
  | cons g span ih =>
    cases reads with
    | nil => cases hs
    | cons read reads =>
      obtain ⟨rfl, htail⟩ := List.cons.inj hs
      exact congrArg _ (ih htail)

section OneKey

variable {key : Key} {reads : List Read}

def KeepsFirst (served : List (Served ε π)) : Prop :=
  ∀ past g later payload, served = past ++ g :: later → g.answer = .ok payload → ∀ g' ∈ later, g'.answer = .ok payload

lemma keepsFirst_of_all {served : List (Served ε π)} (h : ∀ g ∈ served, g.answer = .ok payload) :
    KeepsFirst served := by
  rintro past g later payload' rfl hg g' hg'
  have hsame := hg.symm.trans (h g (by simp))
  rw [hsame]
  exact h g' (by simp [hg'])

lemma KeepsFirst.cons_failed {served : List (Served ε π)} (h : KeepsFirst served) {g : Served ε π} {e : ε}
    (hg : g.answer = .error e) : KeepsFirst (g :: served) := by
  intro past first later payload hs hfirst
  cases past with
  | nil =>
    obtain ⟨rfl, -⟩ := List.cons.inj hs
    rw [hg] at hfirst
    cases hfirst
  | cons earlier past => exact h past first later payload (List.cons.inj hs).2 hfirst

lemma serve_held (decode : Instant → Key → Except ε π) (payload : π)
    (h : ∀ read ∈ reads, read.key = key ∧ read.hasScope = true) :
    (∀ g ∈ serve decode (some (key, payload)) reads, g.answer = .ok payload) ∧
      (serve decode (some (key, payload)) reads).countP Served.verified = 0 := by
  induction reads with
  | nil => exact ⟨fun _ hg => absurd hg List.not_mem_nil, rfl⟩
  | cons read reads ih =>
    obtain ⟨rfl, hscope⟩ := h read List.mem_cons_self
    have hhit : hit (some (read.key, payload)) read = some payload := hit_eq_some.mpr ⟨hscope, rfl⟩
    obtain ⟨hrest, hnone⟩ := ih (fun later hl => h later (List.mem_cons_of_mem read hl))
    have hanswer : answerTo decode (some (read.key, payload)) read = ⟨read, .ok payload, false⟩ := by
      rw [answerTo, decodeOnce_hit hhit, hhit]
      rfl
    rw [serve, hanswer, decodeOnce_hit hhit]
    exact ⟨List.forall_mem_cons.mpr ⟨rfl, hrest⟩, hnone⟩

lemma serve_first (slot : Slot π) (h : ∀ read ∈ reads, read.key = key ∧ read.hasScope = true) :
    (serve decode slot reads).countP Served.verified ≤ (serve decode slot reads).countP Served.failed + 1 ∧
      KeepsFirst (serve decode slot reads) := by
  induction reads generalizing slot with
  | nil =>
    exact ⟨Nat.zero_le _, fun past g later _ hs =>
      absurd hs (List.append_ne_nil_of_right_ne_nil past (List.cons_ne_nil g later)).symm⟩
  | cons read reads ih =>
    obtain ⟨rfl, hscope⟩ := h read List.mem_cons_self
    have hrest : ∀ later ∈ reads, later.key = read.key ∧ later.hasScope = true :=
      fun later hl => h later (List.mem_cons_of_mem read hl)
    cases hhit : hit slot read with
    | some payload =>
      obtain ⟨-, rfl⟩ := hit_eq_some.mp hhit
      obtain ⟨hheld, hnone⟩ := serve_held decode payload h
      exact ⟨by rw [hnone]; exact Nat.zero_le _, keepsFirst_of_all hheld⟩
    | none =>
      cases hd : decode read.now read.key with
      | error e =>
        have hfails : answerTo decode slot read = ⟨read, .error e, true⟩ := by
          rw [answerTo, decodeOnce_miss hhit, hd, hhit]
          rfl
        obtain ⟨hcount, hkept⟩ := ih (decodeOnce decode slot read).2 hrest
        rw [serve, hfails]
        constructor
        · have hverified : Served.verified (⟨read, .error e, true⟩ : Served ε π) = true := rfl
          have hfailed : Served.failed (⟨read, .error e, true⟩ : Served ε π) = true := rfl
          rw [List.countP_cons_of_pos hverified, List.countP_cons_of_pos hfailed]
          omega
        · exact hkept.cons_failed rfl
      | ok payload =>
        have hfills : answerTo decode slot read = ⟨read, .ok payload, true⟩ := by
          rw [answerTo, decodeOnce_miss hhit, hd, hhit]
          rfl
        have hholds : (decodeOnce decode slot read).2 = some (read.key, payload) := by
          rw [decodeOnce, hhit, hd, hscope]
          rfl
        obtain ⟨hheld, hnone⟩ := serve_held decode payload hrest
        rw [serve, hfills, hholds]
        constructor
        · have hverified : Served.verified (⟨read, .ok payload, true⟩ : Served ε π) = true := rfl
          rw [List.countP_cons_of_pos hverified, hnone]
          omega
        · exact keepsFirst_of_all (List.forall_mem_cons.mpr ⟨rfl, hheld⟩)

lemma serve_agree (hkey : ∀ read ∈ reads, read.key = key ∧ read.hasScope = true)
    {before after : List (Served ε π)} {g g' : Served ε π}
    (hs : serve decode none reads = before ++ g :: after) (hg : g' ∈ before) (hok : g'.answer = .ok payload) :
    g.answer = .ok payload := by
  obtain ⟨past, between, rfl⟩ := List.append_of_mem hg
  have hkept := (serve_first none hkey).2 past g' (between ++ g :: after) payload (by simpa using hs) hok
  exact hkept g (by simp)

end OneKey

theorem decoded_once (decode : Instant → Key → Except ε π) (reads : List Read) :
    (∀ past g later, serve decode none reads = past ++ g :: later →
        Sound decode (past.map Served.read) g.read g.answer) ∧
      ∀ past span later key, serve decode none reads = past ++ (span ++ later) →
        (∀ g ∈ span, g.read.key = key ∧ g.read.hasScope = true) →
        span.countP Served.verified ≤ span.countP Served.failed + 1 ∧ KeepsFirst span := by
  constructor
  · intro past g later hs
    have hnothing : Known decode [] (none : Slot π) := fun _ hc => absurd hc (by simp)
    exact serve_sound hnothing hs
  · intro past span later key hs hkey
    obtain ⟨held, hrest⟩ := serve_back hs
    have hspan := serve_front hrest.symm
    have hreads : ∀ read ∈ span.map Served.read, read.key = key ∧ read.hasScope = true := List.forall_mem_map.mpr hkey
    rw [hspan]
    exact serve_first held hreads

def signedKey : Key := ⟨"t", "s", "HS256"⟩

def otherKey : Key := ⟨"t", "p", "HS256"⟩

def expiring (now : Instant) (key : Key) : Except String ℕ :=
  if key = signedKey ∧ (now : ℤ) < 10 then .ok 7 else .error "invalid"

def mixedReads : List Read := [⟨otherKey, 0, true⟩, ⟨signedKey, 9, true⟩, ⟨signedKey, 11, true⟩]

def refused : Served String ℕ := ⟨⟨otherKey, 0, true⟩, .error "invalid", true⟩

def givenTwice : List (Served String ℕ) := [⟨⟨signedKey, 9, true⟩, .ok 7, true⟩, ⟨⟨signedKey, 11, true⟩, .ok 7, false⟩]

theorem given_after_expiry : serve expiring none mixedReads = [refused] ++ (givenTwice ++ []) ∧
    givenTwice.countP Served.verified ≤ givenTwice.countP Served.failed + 1 ∧ KeepsFirst givenTwice :=
  ⟨rfl, (decoded_once expiring mixedReads).2 [refused] givenTwice [] signedKey rfl (by simp [givenTwice])⟩

end TheCargo.JwtOnce
