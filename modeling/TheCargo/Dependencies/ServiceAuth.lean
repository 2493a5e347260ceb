import TheCargo.Dependencies.CurrentUser
import TheCargo.Foundation.Hex

/-! The company that a service tells the services it calls. -/

namespace TheCargo.Dependencies.ServiceAuth

open Foundation Models Db.CompanyScope CurrentUser Middleware.OrgLimit

def hyphenated (hex : List Char) : List Char :=
  hex.take 8 ++ '-' :: (hex.drop 8).take 4 ++ '-' :: (hex.drop 12).take 4 ++ '-' :: (hex.drop 16).take 4 ++
    '-' :: hex.drop 20

def uuidText (id : UUID) : String := String.ofList (hyphenated (hexOf 32 id.toNat))

def theOrganization : String := "organization"

def verifyServiceAuth (serviceSecret : String) (secret : Option String) : Except Failure Unit :=
  let secret := secret.getD ""
  if serviceSecret = "" ∨ secret = "" then .error (.http 403 "Invalid service secret")
  else
    match compareDigest secret serviceSecret with
    | none => .error .raised
    | some true => .ok ()
    | some false => .error (.http 403 "Invalid service secret")

def companyHeader : CompanyRef → Option String
  | .any => none
  | .of none => some theOrganization
  | .of (some company) => some (uuidText company)

def companyFromHeader (active : CompanyRef) (xCompanyId : Option String) : Except Failure CompanyRef :=
  match xCompanyId with
  | none => .ok active
  | some header =>
    if header = "" then .ok active
    else if header = theOrganization then .ok (.of none)
    else
      match UUID.parse header with
      | none => .error (.http 400 "Invalid company")
      | some company => .ok (.of (some company))

-- A service with its secret, the secret that its caller sends, and the company it acts as before it calls on.
structure Hop where
  serviceSecret : String
  secret : Option String
  actsAs : Option CompanyRef

/-- The company a service acts for on behalf of its caller; its request begins with nobody's. -/
def call (active : CompanyRef) (hop : Hop) : Except Failure CompanyRef := do
  verifyServiceAuth hop.serviceSecret hop.secret
  companyFromHeader .any (companyHeader active)

def chain (active : CompanyRef) : List Hop → Except Failure (List CompanyRef)
  | [] => .ok []
  | hop :: hops => do
    let company ← call active hop
    let companies ← chain (hop.actsAs.getD company) hops
    return company :: companies

def callers (active : CompanyRef) : List Hop → List CompanyRef
  | [] => []
  | hop :: hops => active :: callers (hop.actsAs.getD active) hops

lemma without_absent {sub cs : List Char} (h : ∀ c, sub.head? = some c → c ∉ cs) (hsub : sub ≠ []) :
    without sub 0 cs = cs := by
  induction cs with
  | nil => rfl
  | cons c cs ih =>
    obtain ⟨d, sub, rfl⟩ := List.exists_cons_of_ne_nil hsub
    have hne : d ≠ c := fun he => h d rfl (he ▸ List.mem_cons_self)
    have hrest := ih (fun e he hm => h e he (List.mem_cons_of_mem c hm))
    rw [without, if_neg (by simp [hne]), hrest]

lemma mem_hyphenated {hex : List Char} {c : Char} (h : c ∈ hyphenated hex) : c = '-' ∨ c ∈ hex := by
  simp only [hyphenated, List.mem_append, List.mem_cons] at h
  rcases h with (((h | h | h) | h | h) | h | h) | h | h
  · exact .inr (List.mem_of_mem_take h)
  · exact .inl h
  · exact .inr (List.mem_of_mem_drop (List.mem_of_mem_take h))
  · exact .inl h
  · exact .inr (List.mem_of_mem_drop (List.mem_of_mem_take h))
  · exact .inl h
  · exact .inr (List.mem_of_mem_drop (List.mem_of_mem_take h))
  · exact .inl h
  · exact .inr (List.mem_of_mem_drop h)

lemma filter_hyphenated {hex : List Char} (h : '-' ∉ hex) : (hyphenated hex).filter (· ≠ '-') = hex := by
  have hkept : ∀ part : List Char, part.Sublist hex → part.filter (· ≠ '-') = part := by
    intro part hpart
    refine List.filter_eq_self.mpr (fun c hc => decide_eq_true ?_)
    rintro rfl
    exact h (hpart.subset hc)
  have hmark : ∀ part : List Char, ('-' :: part).filter (· ≠ '-') = part.filter (· ≠ '-') := fun part => by simp
  have hgroup : ∀ n, ((hex.drop n).take 4).Sublist hex :=
    fun n => (List.take_sublist 4 _).trans (List.drop_sublist n hex)
  have hjoin : ∀ n, (hex.drop n).take 4 ++ hex.drop (n + 4) = hex.drop n := by
    intro n
    rw [← List.drop_drop]
    exact List.take_append_drop 4 _
  simp only [hyphenated, List.filter_append, hmark]
  rw [hkept _ (List.take_sublist 8 hex), hkept _ (hgroup 8), hkept _ (hgroup 12), hkept _ (hgroup 16),
    hkept _ (List.drop_sublist 20 hex)]
  rw [List.append_assoc, hjoin 16, List.append_assoc, hjoin 12, List.append_assoc, hjoin 8, List.take_append_drop]

lemma parse_uuidText (id : UUID) : UUID.parse (uuidText id) = some id := by
  have hdigit : ∀ d < 16, Nat.digitChar d ≠ '-' ∧ Nat.digitChar d ≠ 'u' ∧ Nat.digitChar d ≠ '{' ∧
      Nat.digitChar d ≠ '}' := by decide
  have hplain := forall_hexOf (p := fun c => c ≠ '-' ∧ c ≠ 'u' ∧ c ≠ '{' ∧ c ≠ '}') hdigit (k := 32) (n := id.toNat)
  have hfilter := filter_hyphenated (fun hm => (hplain _ hm).1 rfl)
  have hmarks : ∀ c ∈ hyphenated (hexOf 32 id.toNat), c ≠ 'u' ∧ c ≠ '{' ∧ c ≠ '}' := by
    intro c hc
    rcases mem_hyphenated hc with rfl | hc
    · decide
    · exact (hplain c hc).2
  have hwithout : ∀ sub : List Char, sub.head? = some 'u' →
      without sub 0 (hyphenated (hexOf 32 id.toNat)) = hyphenated (hexOf 32 id.toNat) := by
    intro sub hsub
    refine without_absent (fun c hc hm => ?_) (by rintro rfl; simp at hsub)
    exact (hmarks c hm).1 (Option.some.inj (hc.symm.trans hsub))
  have hbare := stripBy_self (s := hyphenated (hexOf 32 id.toNat)) (p := fun c => c = '{' || c = '}')
    (fun c hc => by simp [hmarks c (List.mem_of_head? hc)]) (fun c hc => by simp [hmarks c (List.mem_of_getLast? hc)])
  have hnat := hexInt_hexOf (k := 32) (n := id.toNat) (by decide) id.isLt
  simp only [UUID.parse, uuidText, String.toList_ofList]
  rw [hwithout "urn:".toList rfl, hwithout "uuid:".toList rfl]
  simp only [stripBy] at hbare
  rw [hbare, hfilter, if_pos (length_hexOf 32 id.toNat), hnat, Option.bind_some, if_pos ⟨by omega, by omega⟩]
  simp

lemma companyFromHeader_companyHeader (active : CompanyRef) :
    companyFromHeader .any (companyHeader active) = .ok active := by
  cases active with
  | any => rfl
  | of company =>
    cases company with
    | none => rfl
    | some id =>
      have hread := parse_uuidText id
      have hempty : uuidText id ≠ "" := by
        intro he
        have hnone : UUID.parse "" = none := rfl
        exact absurd (hread.symm.trans (he ▸ hnone)) (by simp)
      have hword : uuidText id ≠ theOrganization := by
        intro he
        have hnone : UUID.parse theOrganization = none := rfl
        exact absurd (hread.symm.trans (he ▸ hnone)) (by simp)
      simp only [companyHeader, companyFromHeader, if_neg hempty, if_neg hword, hread]

lemma call_eq_ok {active company : CompanyRef} {hop : Hop} : call active hop = .ok company ↔
    verifyServiceAuth hop.serviceSecret hop.secret = .ok () ∧ company = active := by
  rw [call, bind_ok_iff, companyFromHeader_companyHeader]
  constructor
  · rintro ⟨⟨⟩, hverified, h⟩
    exact ⟨hverified, (Except.ok.inj h).symm⟩
  · rintro ⟨hverified, rfl⟩
    exact ⟨(), hverified, rfl⟩

def billing : Hop := ⟨"s1", some "s1", some (.of none)⟩

def notifier : Hop := ⟨"s2", some "s2", none⟩

end TheCargo.Dependencies.ServiceAuth
