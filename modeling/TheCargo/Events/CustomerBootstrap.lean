import TheCargo.Events.CustomerSync
import TheCargo.Foundation.Paging
import TheCargo.Foundation.Runs

/-! The customers a service fetches when it starts, over every number of starts that fail or complete. -/

namespace TheCargo.Events.CustomerBootstrap

open Foundation Models Utils.Phone CustomerSync

def pageSize : ℕ := 1000
def cappedSize : ℕ := 5000

-- The shipment service names a customer by its id; `data` is the rest of the object.
structure Customer where
  id : UUID
  data : Payload

def Customer.key (c : Customer) : ℕ := c.id.toNat

structure Service where
  customers : List Customer
  sorted : customers.Pairwise (fun a b => a.key < b.key)

abbrev Rows := Dict UUID CustomerReplica

/-- One start: the request that fails, counted from zero, and the page served to a request without `after_id`. -/
structure Start (service : Service) where
  failAt : Option ℕ
  capped : List Customer
  held : capped ⊆ service.customers
  few : capped.length ≤ cappedSize

structure Ran where
  rows : Rows
  completed : Bool

variable (phonenumbers : PhoneNumbers)

def record (c : Customer) : Option (UUID × CustomerReplica) :=
  (newReplica phonenumbers c.data).map (fun replica => (c.id, replica))

def insertMissing (rows : Rows) (record : UUID × CustomerReplica) : Rows :=
  if (rows.get? record.1).isSome then rows else rows.set record.1 record.2

/-- `_store`, or `none` where a record cannot be built or inserted -/
def store (rows : Rows) (page : List Customer) : Option Rows :=
  ((page.filter (fun c => namesOrganization c.data)).mapM (record phonenumbers)).map
    (fun records => records.foldl insertMissing rows)

variable (service : Service)

def Service.page (afterId : UUID) (limit : ℕ) : List Customer :=
  Paging.page Customer.key afterId.toNat limit service.customers

def paging (failAt : Option ℕ) (afterId : UUID) (rows : Rows) : Ran :=
  if failAt = some 0 then ⟨rows, false⟩
  else
    match _hlast : (service.page afterId pageSize).getLast? with
    | none => ⟨rows, true⟩
    | some last =>
      match store phonenumbers rows (service.page afterId pageSize) with
      | none => ⟨rows, false⟩
      | some rows =>
        if last.id = afterId ∨ (service.page afterId pageSize).length < pageSize then ⟨rows, true⟩
        else paging (failAt.map (· - 1)) last.id rows
termination_by (Paging.after Customer.key afterId.toNat service.customers).length
decreasing_by exact Paging.after_last_shorter _hlast

variable {service}

def bootstrap (rows : Rows) (start : Start service) : Ran :=
  if rows.items.isEmpty then paging phonenumbers service start.failAt 0 rows
  else if start.failAt = some 0 then ⟨rows, false⟩
  else
    match store phonenumbers rows start.capped with
    | none => ⟨rows, false⟩
    | some rows => ⟨rows, true⟩

structure Boot where
  rows : Rows
  completed : Bool

def step (b : Boot) (start : Start service) : Option Boot :=
  let ran := bootstrap phonenumbers b.rows start
  some ⟨ran.rows, b.completed || ran.completed⟩

def unseeded : Boot := ⟨Dict.empty, false⟩

def Holds (rows : Rows) (id : UUID) : Prop := (rows.get? id).isSome = true

instance (rows : Rows) (id : UUID) : Decidable (Holds rows id) :=
  inferInstanceAs (Decidable ((rows.get? id).isSome = true))

def Filled (service : Service) (b : Boot) : Prop :=
  b.completed = true → ∀ c ∈ service.customers, namesOrganization c.data = true → Holds b.rows c.id

def Reaches (b : Boot) (start : Start service) : Prop :=
  if b.rows.items.isEmpty then ∀ c ∈ service.customers, namesOrganization c.data = true → c.id ≠ 0
  else start.failAt ≠ some 0 → ∀ c ∈ service.customers, namesOrganization c.data = true →
    Holds b.rows c.id ∨ c ∈ start.capped

variable {phonenumbers} {rows stored : Rows} {page : List Customer} {id : UUID}

lemma holds_insertMissing (rows : Rows) (record : UUID × CustomerReplica) :
    Holds (insertMissing rows record) id ↔ Holds rows id ∨ record.1 = id := by
  rw [insertMissing]
  split
  · rename_i hsome
    constructor
    · exact Or.inl
    · rintro (h | rfl)
      · exact h
      · exact hsome
  · rw [Holds, Dict.get?_set]
    split
    · rename_i heq
      simp [heq]
    · rename_i hne
      simp [hne, Holds]

lemma holds_foldl (records : List (UUID × CustomerReplica)) (rows : Rows) :
    Holds (records.foldl insertMissing rows) id ↔ Holds rows id ∨ id ∈ records.map Prod.fst := by
  induction records generalizing rows with
  | nil => simp
  | cons r records ih =>
    rw [List.foldl_cons, ih, holds_insertMissing, List.map_cons, List.mem_cons, or_assoc]
    have heq : r.1 = id ↔ id = r.1 := eq_comm
    rw [heq]

lemma record_id {c : Customer} {r : UUID × CustomerReplica} (h : record phonenumbers c = some r) : r.1 = c.id := by
  obtain ⟨replica, _, rfl⟩ := Option.map_eq_some_iff.mp h
  rfl

lemma record_ids {cs : List Customer} {records : List (UUID × CustomerReplica)}
    (h : cs.mapM (record phonenumbers) = some records) : records.map Prod.fst = cs.map Customer.id := by
  induction cs generalizing records with
  | nil =>
    obtain rfl := Option.some.inj h
    rfl
  | cons c cs ih =>
    rw [List.mapM_cons] at h
    obtain ⟨r, hr, h⟩ := Option.bind_eq_some_iff.mp h
    obtain ⟨rs, hrs, h⟩ := Option.bind_eq_some_iff.mp h
    obtain rfl := Option.some.inj h
    rw [List.map_cons, List.map_cons, ih hrs, record_id hr]

lemma holds_store (h : store phonenumbers rows page = some stored) :
    Holds stored id ↔ Holds rows id ∨ ∃ c ∈ page, namesOrganization c.data = true ∧ c.id = id := by
  obtain ⟨records, hrecords, rfl⟩ := Option.map_eq_some_iff.mp h
  rw [holds_foldl, record_ids hrecords]
  simp [and_assoc]

lemma mapM_record {cs : List Customer} (h : ∀ c ∈ cs, (newReplica phonenumbers c.data).isSome = true) :
    ∃ records, cs.mapM (record phonenumbers) = some records := by
  induction cs with
  | nil => exact ⟨[], rfl⟩
  | cons c cs ih =>
    obtain ⟨replica, hc⟩ := Option.isSome_iff_exists.mp (h c List.mem_cons_self)
    obtain ⟨records, hrecords⟩ := ih (fun c' hc' => h c' (List.mem_cons_of_mem c hc'))
    refine ⟨(c.id, replica) :: records, ?_⟩
    rw [List.mapM_cons, hrecords, record, hc]
    rfl

lemma store_isSome (phonenumbers : PhoneNumbers) (rows : Rows)
    (h : ∀ c ∈ page, namesOrganization c.data = true → (newReplica phonenumbers c.data).isSome = true) :
    ∃ stored, store phonenumbers rows page = some stored := by
  have hall : ∀ c ∈ page.filter (fun c => namesOrganization c.data),
      (newReplica phonenumbers c.data).isSome = true := by
    intro c hc
    obtain ⟨hc, hnames⟩ := List.mem_filter.mp hc
    exact h c hc hnames
  obtain ⟨records, hrecords⟩ := mapM_record hall
  exact ⟨_, by rw [store, hrecords]; rfl⟩

lemma isEmpty_of_holds (h : Holds rows id) : rows.items.isEmpty = false := by
  rw [Bool.eq_false_iff]
  intro hempty
  rw [Holds, Dict.get?, List.isEmpty_iff.mp hempty] at h
  simp [lookup] at h

lemma bootstrap_stored {start : Start service} (hrows : rows.items.isEmpty = false) (hanswered : start.failAt ≠ some 0)
    (hstored : store phonenumbers rows start.capped = some stored) :
    bootstrap phonenumbers rows start = ⟨stored, true⟩ := by
  rw [bootstrap, hrows, if_neg Bool.false_ne_true, if_neg hanswered, hstored]

lemma paging_keeps (failAt : Option ℕ) (afterId : UUID) (rows : Rows) (h : Holds rows id) :
    Holds (paging phonenumbers service failAt afterId rows).rows id := by
  fun_induction paging phonenumbers service failAt afterId rows with
  | case1 => exact h
  | case2 => exact h
  | case3 => exact h
  | case4 failAt afterId rows hfail last hlast rows' hstore hbreak => exact (holds_store hstore).mpr (Or.inl h)
  | case5 failAt afterId rows hfail last hlast rows' hstore hbreak ih =>
    exact ih ((holds_store hstore).mpr (Or.inl h))

lemma paging_fetches (failAt : Option ℕ) (afterId : UUID) (rows : Rows) {c : Customer} (hc : c ∈ service.customers)
    (hnames : namesOrganization c.data = true) (hafter : afterId.toNat < c.key)
    (h : (paging phonenumbers service failAt afterId rows).completed = true) :
    Holds (paging phonenumbers service failAt afterId rows).rows c.id := by
  have hmem : ∀ k : UUID, k.toNat < c.key → c ∈ Paging.after Customer.key k.toNat service.customers :=
    fun k hk => Paging.mem_after.mpr ⟨hc, hk⟩
  fun_induction paging phonenumbers service failAt afterId rows with
  | case1 => simp at h
  | case2 failAt afterId rows hfail hlast =>
    have hnil : service.page afterId pageSize = [] := List.getLast?_eq_none_iff.mp hlast
    have hshort : (service.page afterId pageSize).length < pageSize := by
      rw [hnil]
      decide
    have hin := hmem afterId hafter
    rw [← Paging.page_short hshort] at hin
    rw [Service.page] at hnil
    rw [hnil] at hin
    simp at hin
  | case3 => simp at h
  | case4 failAt afterId rows hfail last hlast rows' hstore hbreak =>
    rcases hbreak with heq | hshort
    · have hlt := (Paging.mem_page (List.mem_of_getLast? hlast)).2
      rw [Customer.key, heq] at hlt
      exact absurd hlt (lt_irrefl _)
    · have hin := hmem afterId hafter
      rw [← Paging.page_short hshort] at hin
      exact (holds_store hstore).mpr (Or.inr ⟨c, hin, hnames, rfl⟩)
  | case5 failAt afterId rows hfail last hlast rows' hstore hbreak ih =>
    rcases Paging.after_page service.sorted hlast (hmem afterId hafter) with hin | hin
    · exact paging_keeps _ _ _ ((holds_store hstore).mpr (Or.inr ⟨c, hin, hnames, rfl⟩))
    · exact ih (Paging.mem_after.mp hin).2 h

lemma bootstrap_keeps (start : Start service) (h : Holds rows id) :
    Holds (bootstrap phonenumbers rows start).rows id := by
  rw [bootstrap, isEmpty_of_holds h, if_neg (by simp)]
  split
  · exact h
  · split
    · exact h
    · rename_i hstore
      exact (holds_store hstore).mpr (Or.inl h)

lemma bootstrap_fills {b : Boot} {start : Start service} (hreaches : Reaches b start)
    (h : (bootstrap phonenumbers b.rows start).completed = true) {c : Customer} (hc : c ∈ service.customers)
    (hnames : namesOrganization c.data = true) : Holds (bootstrap phonenumbers b.rows start).rows c.id := by
  rw [Reaches] at hreaches
  rw [bootstrap] at h ⊢
  split at h
  · rename_i hempty
    rw [if_pos hempty] at hreaches ⊢
    refine paging_fetches _ _ _ hc hnames ?_ h
    apply Nat.pos_of_ne_zero
    intro hzero
    exact hreaches c hc hnames (BitVec.eq_of_toNat_eq hzero)
  · rename_i hempty
    rw [if_neg hempty] at hreaches ⊢
    split at h
    · simp at h
    · rename_i hfail
      rw [if_neg hfail]
      split at h
      · simp at h
      · rename_i rows' hstore
        rcases hreaches hfail c hc hnames with hold | hin
        · exact (holds_store hstore).mpr (Or.inl hold)
        · exact (holds_store hstore).mpr (Or.inr ⟨c, hin, hnames, rfl⟩)

lemma step_filled (b : Boot) (start : Start service) (b' : Boot) (hb : Filled service b)
    (hreaches : Reaches b start) (h : step phonenumbers b start = some b') : Filled service b' := by
  obtain rfl := Option.some.inj h
  intro hcompleted c hc hnames
  rcases (Bool.or_eq_true _ _).mp hcompleted with hbefore | hnow
  · exact bootstrap_keeps start (hb hbefore c hc hnames)
  · exact bootstrap_fills hreaches hnow hc hnames

theorem restarts_fill (phonenumbers : PhoneNumbers) (service : Service) (starts : List (Start service)) (b : Boot)
    (h : Runs.run (step phonenumbers) unseeded starts = some b)
    (hreaches : Runs.Along (step phonenumbers) Reaches unseeded starts) : Filled service b :=
  Runs.run_along step_filled (by simp [Filled, unseeded]) hreaches h

def pair : Service := ⟨[⟨7, ann⟩, ⟨9, ann⟩], by decide⟩

def twoStarts : List (Start pair) :=
  [⟨some 0, [], List.nil_subset _, by decide⟩, ⟨none, [], List.nil_subset _, by decide⟩]

theorem second_start_fills :
    ∃ b, Runs.run (step noPhoneNumbers) unseeded twoStarts = some b ∧ b.completed = true ∧ Filled pair b := by
  have hnil : ∀ c ∈ pair.customers, namesOrganization c.data = true → c.id ≠ 0 := by decide
  have hrun : (Runs.run (step noPhoneNumbers) unseeded twoStarts).map Boot.completed = some true := by decide +kernel
  obtain ⟨b, hb, hcompleted⟩ := Option.map_eq_some_iff.mp hrun
  refine ⟨b, hb, hcompleted, restarts_fill noPhoneNumbers pair twoStarts b hb ⟨?_, ?_⟩⟩
  · rw [Reaches, if_pos (by decide)]
    exact hnil
  · rintro b hb
    obtain rfl := Option.some.inj hb
    refine ⟨?_, fun _ _ => trivial⟩
    rw [Reaches, if_pos (by decide +kernel)]
    exact hnil

-- One customer in a thousand has an organization: few enough for the one `INSERT` of a page.
def crowd (n : ℕ) : List Customer :=
  (List.range n).map (fun i => ⟨BitVec.ofNat 128 (i + 1), if i % 1000 = 0 then ann else Dict.empty⟩)

lemma mem_crowd {n : ℕ} (hn : n < 10000) {c : Customer} (h : c ∈ crowd n) : 0 < c.key ∧ c.key ≤ n := by
  obtain ⟨i, hi, rfl⟩ := List.mem_map.mp h
  have hlt := List.mem_range.mp hi
  simp only [Customer.key, BitVec.toNat_ofNat]
  omega

lemma crowd_sorted {n : ℕ} (hn : n < 10000) : (crowd n).Pairwise (fun a b => a.key < b.key) := by
  apply List.pairwise_map.mpr
  refine List.pairwise_lt_range.imp_of_mem ?_
  intro i j hi hj hij
  have hlt := List.mem_range.mp hj
  simp only [Customer.key, BitVec.toNat_ofNat]
  omega

lemma take_crowd {m n : ℕ} (h : m ≤ n) : (crowd n).take m = crowd m := by
  rw [crowd, ← List.map_take, List.take_range, Nat.min_eq_left h, crowd]

lemma length_crowd (n : ℕ) : (crowd n).length = n := by rw [crowd, List.length_map, List.length_range]

lemma crowd_recorded {n : ℕ} {c : Customer} (h : c ∈ crowd n) (hnames : namesOrganization c.data = true) :
    (newReplica noPhoneNumbers c.data).isSome = true := by
  obtain ⟨i, _, rfl⟩ := List.mem_map.mp h
  dsimp only at hnames ⊢
  split at hnames
  · rename_i hi
    rw [if_pos hi]
    decide
  · exact absurd hnames (by decide)

def holding {n : ℕ} (hn : n < 10000) : Service := ⟨crowd n, crowd_sorted hn⟩

lemma first_page {n : ℕ} (hn : n < 10000) (h : pageSize ≤ n) : (holding hn).page 0 pageSize = crowd pageSize := by
  have hzero : (0 : UUID).toNat = 0 := rfl
  have hall : Paging.after Customer.key 0 (crowd n) = crowd n := by
    apply List.filter_eq_self.mpr
    intro c hc
    exact decide_eq_true (mem_crowd hn hc).1
  simp only [Service.page, Paging.page, holding, hzero, hall, take_crowd h]

lemma paging_interrupted {n : ℕ} (hn : n < 10000) (h : pageSize ≤ n) {rows : Rows}
    (hstore : store noPhoneNumbers Dict.empty (crowd pageSize) = some rows) :
    paging noPhoneNumbers (holding hn) (some 1) 0 Dict.empty = ⟨rows, false⟩ := by
  have hlength : (crowd pageSize).length = pageSize := length_crowd _
  obtain ⟨last, hlast⟩ : ∃ last, (crowd pageSize).getLast? = some last := by
    rw [List.getLast?_eq_getElem?, hlength]
    exact ⟨_, List.getElem?_eq_getElem (by rw [hlength]; decide)⟩
  have hpos := (mem_crowd (by decide) (List.mem_of_getLast? hlast)).1
  have hid : last.id ≠ 0 := by
    intro hzero
    rw [Customer.key, hzero] at hpos
    exact absurd hpos (by decide)
  rw [paging, if_neg (by decide)]
  split
  · rename_i hnone
    rw [first_page hn h, hlast] at hnone
    exact absurd hnone (by simp)
  · rename_i last' hlast'
    rw [first_page hn h, hlast] at hlast'
    obtain rfl := Option.some.inj hlast'
    rw [first_page hn h, hstore]
    simp only [hid, hlength, lt_irrefl, or_self, if_false]
    rw [paging, if_pos (by decide)]

def failing {n : ℕ} (hn : n < 10000) : Start (holding hn) := ⟨some 1, [], List.nil_subset _, Nat.zero_le _⟩

def capped {n : ℕ} (hn : n < 10000) (h : cappedSize ≤ n) : Start (holding hn) :=
  ⟨none, crowd cappedSize, take_crowd h ▸ List.take_subset _ _, (length_crowd _).le⟩

lemma capped_page {n : ℕ} (hn : n < 10000) (h : cappedSize ≤ n) : (capped hn h).capped = crowd cappedSize := by
  rw [capped]

lemma not_holds_last {rows stored : Rows} {n : ℕ} (hn : n < 10000) (h : cappedSize < n)
    (hfirst : store noPhoneNumbers Dict.empty (crowd pageSize) = some rows)
    (hsecond : store noPhoneNumbers rows (crowd cappedSize) = some stored) :
    ¬ Holds stored (BitVec.ofNat 128 n) := by
  have hkey : ∀ c : Customer, c.id = BitVec.ofNat 128 n → c.key = n := by
    intro c hc
    rw [Customer.key, hc, BitVec.toNat_ofNat]
    exact Nat.mod_eq_of_lt (by omega)
  rw [holds_store hsecond, holds_store hfirst]
  rintro ((hempty | ⟨c, hc, _, hid⟩) | ⟨c, hc, _, hid⟩)
  · exact absurd hempty (by simp [Holds, Dict.get?, Dict.empty, lookup])
  · have hle := (mem_crowd (by decide) hc).2
    rw [hkey c hid] at hle
    exact absurd (h.trans_le hle) (by decide)
  · have hle := (mem_crowd (by decide) hc).2
    rw [hkey c hid] at hle
    exact absurd (h.trans_le hle) (lt_irrefl _)

lemma interrupted_misses {n : ℕ} (hn : n < 10000) (h : cappedSize < n) (hlast : (n - 1) % 1000 = 0) :
    ∃ b, Runs.run (step noPhoneNumbers) unseeded [failing hn, capped hn h.le] = some b ∧ b.completed = true ∧
      ¬ Filled (holding hn) b := by
  have hpage : pageSize ≤ n := le_trans (by decide) h.le
  have hann : namesOrganization ann = true := by decide
  obtain ⟨rows, hrows⟩ := store_isSome noPhoneNumbers Dict.empty (fun c hc => crowd_recorded (n := pageSize) hc)
  obtain ⟨stored, hstored⟩ := store_isSome noPhoneNumbers rows (fun c hc => crowd_recorded (n := cappedSize) hc)
  have hone : Holds rows 1 :=
    (holds_store hrows).mpr (Or.inr ⟨⟨1, ann⟩, List.mem_map.mpr ⟨0, List.mem_range.mpr (by decide), rfl⟩, hann, rfl⟩)
  have hfails : bootstrap noPhoneNumbers Dict.empty (failing hn) = ⟨rows, false⟩ := by
    rw [bootstrap, if_pos (by decide)]
    exact paging_interrupted hn hpage hrows
  have hanswered : (capped hn h.le).failAt ≠ some 0 := Option.some_ne_none 0 |>.symm
  have hcompletes : bootstrap noPhoneNumbers rows (capped hn h.le) = ⟨stored, true⟩ := by
    apply bootstrap_stored (isEmpty_of_holds hone) hanswered
    rw [capped_page]
    exact hstored
  refine ⟨⟨stored, true⟩, ?_, rfl, ?_⟩
  · simp only [Runs.run, step, unseeded, hfails, hcompletes, Option.bind_some, Bool.or_true]
  · intro hfilled
    have hmem : (⟨BitVec.ofNat 128 n, ann⟩ : Customer) ∈ crowd n :=
      List.mem_map.mpr ⟨n - 1, List.mem_range.mpr (by omega), by rw [if_pos hlast, Nat.sub_add_cancel (by omega)]⟩
    exact not_holds_last hn h hrows hstored (hfilled rfl _ hmem hann)

theorem interrupted_bootstrap_stays_short :
    ∃ b, Runs.run (step noPhoneNumbers) unseeded
        [failing (n := 6001) (by decide), capped (n := 6001) (by decide) (by decide)] = some b ∧
      b.completed = true ∧ ¬ Filled (holding (n := 6001) (by decide)) b :=
  interrupted_misses (by decide) (by decide) (by decide)

end TheCargo.Events.CustomerBootstrap
