import TheCargo.Foundation.Json
import TheCargo.Foundation.TtlCache

/-! What a process remembers of the organizations: their types, their timezones, and the list of them. -/

namespace TheCargo.Clients.OrgCaches

open Foundation Foundation.TtlCache

def ttlSeconds : ℚ := 300

inductive Remembered
  | orgTypeSync
  | orgTimezoneSync
  | organizations

/-- `(resp.json() or {}).get(name)`; nothing where it raises. -/
def field (name : String) (said : Json) : Option Json :=
  if said.truthy then
    match said with
    | .obj fields => some ((lookup name fields).getD .null)
    | _ => none
  else some .null

/-- The value that is kept and returned; nothing where the caller gets an error instead. -/
def Remembered.read : Remembered → Json → Option Json
  | .orgTypeSync, said => (field "type" said).map (fun value => if value.truthy then value else .str "broker")
  | .orgTimezoneSync, said => (field "timezone" said).bind (fun tz => if tz.truthy then some tz else none)
  | .organizations, said => some said

-- The key is the organization; the list has a single one.
abbrev World := TtlCache.World (Option String) Json Json

abbrev Op := TtlCache.Op (Option String) Json

def step (cache : Remembered) : World → Op → Option World := TtlCache.step ttlSeconds cache.read

theorem answers_are_recent (cache : Remembered) (latency : ℚ) (ops : List Op) (w : World)
    (hprompt : Runs.Along (step cache) (Prompt latency) start ops) (h : Runs.run (step cache) start ops = some w) :
    (∀ r ∈ w.returned, ∃ s, Rests cache.read w.answered r s ∧ r.2.1 ≤ s + (ttlSeconds + latency)) ∧
      (∀ key storedAt value, w.entries.get? key = some (storedAt, value) →
        ∃ s, Rests cache.read w.answered (key, storedAt, value) s ∧ storedAt ≤ s + latency) ∧
      ∀ key, w.raised.countP (fun r => r.1 = key) + w.loads.countP (fun load => load.key = key) ≤
        w.asked.countP (fun a => a.1 = key) := by
  have hbounded := bounded_run (by norm_num [ttlSeconds]) hprompt h
  refine ⟨hbounded.returned, fun key storedAt value hentry => ?_, requested_run h⟩
  obtain ⟨-, s, hs, hrests⟩ := hbounded.entry key storedAt value hentry
  exact ⟨s, hrests, hs⟩

def carrier : Json := .obj [("type", .str "carrier")]

-- A second caller is served from memory, a third asks again and learns that the type has changed.
def typeChanges : List Op :=
  [.ask (some "7") 1, .answer 0 carrier 2, .store 0 3, .ask (some "7") 300, .ask (some "7") 304,
    .answer 0 (.obj []) 305, .store 0 306]

theorem type_changes_recent : ∃ w, Runs.run (step .orgTypeSync) start typeChanges = some w ∧
    w.returned.map (fun r => r.2.1) = [3, 300, 306] ∧
    (∀ r ∈ w.returned, ∃ s, Rests (Remembered.read .orgTypeSync) w.answered r s ∧ r.2.1 ≤ s + (ttlSeconds + 1)) ∧
      (∀ key storedAt value, w.entries.get? key = some (storedAt, value) →
        ∃ s, Rests (Remembered.read .orgTypeSync) w.answered (key, storedAt, value) s ∧ storedAt ≤ s + 1) ∧
      ∀ key, w.raised.countP (fun r => r.1 = key) + w.loads.countP (fun load => load.key = key) ≤
        w.asked.countP (fun a => a.1 = key) := by
  have htimes : (Runs.run (step .orgTypeSync) start typeChanges).map (fun w => w.returned.map (fun r => r.2.1)) =
      some [3, 300, 306] := by decide +kernel
  obtain ⟨w, hr, hw⟩ := Option.map_eq_some_iff.mp htimes
  exact ⟨w, hr, hw, answers_are_recent .orgTypeSync 1 typeChanges w (by decide +kernel) hr⟩

theorem answers_never_go_back (cache : Remembered) (ops : List Op) (w : World)
    (halone : Runs.Along (step cache) (Alone ttlSeconds) start ops) (h : Runs.run (step cache) start ops = some w)
    (key : Option String) :
    ∃ moments : List ℚ, List.Forall₂ (Rests cache.read w.answered) (returnedOf key w) moments ∧
      moments.Pairwise (· ≤ ·) :=
  returned_forward halone h key

theorem type_changes_forward : ∃ w, Runs.run (step .orgTypeSync) start typeChanges = some w ∧
    ∃ moments : List ℚ,
      List.Forall₂ (Rests (Remembered.read .orgTypeSync) w.answered) (returnedOf (some "7") w) moments ∧
      moments.Pairwise (· ≤ ·) := by
  have hsome : (Runs.run (step .orgTypeSync) start typeChanges).isSome = true := by decide +kernel
  obtain ⟨w, hr⟩ := Option.isSome_iff_exists.mp hsome
  exact ⟨w, hr, answers_never_go_back .orgTypeSync typeChanges w (by decide +kernel) hr (some "7")⟩

end TheCargo.Clients.OrgCaches
