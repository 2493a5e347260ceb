import TheCargo.LeadFields.Hits

namespace TheCargo.LeadFields

open Foundation

def Hit.Overlaps (g h : Hit) : Prop := g.start < h.stop ∧ h.start < g.stop

def Hit.Leads (g h : Hit) : Prop := g.start < h.start ∨ g.start = h.start ∧ h.norm.length ≤ g.norm.length

structure GreedyCover (found kept : List Hit) : Prop where
  increasing : kept.Pairwise (fun g h => g.start < h.start)
  disjoint : kept.Pairwise (fun g h => g.stop ≤ h.start)
  cover : ∃ discarded, (kept ++ discarded).Perm found ∧ ∀ h ∈ discarded, ∃ g ∈ kept, g.Overlaps h ∧ g.Leads h

variable {found : List Hit} {g h : Hit}

lemma leads_of_order (hle : g.order ≤ h.order) : g.Leads h := by
  rcases Prod.Lex.le_iff.mp hle with hlt | ⟨heq, hlength⟩
  · exact .inl hlt
  · exact .inr ⟨heq, hlength⟩

lemma greedyCover_keep (hproper : ∀ h ∈ found, h.start < h.stop) :
    GreedyCover found (keep Hit.start Hit.stop 0 (sortedBy Hit.order found)) := by
  have hsorted : ∀ h ∈ sortedBy Hit.order found, h.start < h.stop :=
    fun h hh => hproper h ((List.mem_insertionSort _).mp hh)
  have hkept : ∀ h ∈ keep Hit.start Hit.stop 0 (sortedBy Hit.order found), h.start < h.stop :=
    fun h hh => hsorted h ((keep_sublist _ _).subset hh)
  have hapart : (keep Hit.start Hit.stop 0 (sortedBy Hit.order found)).Pairwise (fun g h => g.stop ≤ h.start) :=
    keep_apart (fun h hh => (hsorted h hh).le)
  have hperm := keep_append_skipped_perm Hit.start Hit.stop 0 (sortedBy Hit.order found)
  refine ⟨hapart.imp_of_mem (fun hg _ hle => (hkept _ hg).trans_le hle), hapart,
    skipped Hit.start Hit.stop 0 (sortedBy Hit.order found), hperm.trans (List.perm_insertionSort _ found), ?_⟩
  intro h hh
  rcases skipped_covered (sortedBy_pairwise (f := Hit.order) found) h hh with hlt | ⟨g, hg, hlt, hle⟩
  · exact absurd hlt (Nat.not_lt_zero _)
  · have hleads := leads_of_order hle
    have hstart : g.start ≤ h.start := hleads.elim Nat.le_of_lt (fun heq => heq.1.le)
    have hstop := hsorted h (hperm.subset (List.mem_append_right _ hh))
    exact ⟨g, hg, ⟨by omega, hlt⟩, hleads⟩

theorem scanLabels_greedyCover (chars : Characters) (text : List Char) (labels : List (String × List String))
    (indexByLabel : Dict (String × String) ℤ) :
    (allHits chars indexByLabel (chars.lower text) labels = none ∧
        scanLabels chars text labels indexByLabel = none) ∨
      ∃ found kept, allHits chars indexByLabel (chars.lower text) labels = some found ∧
        scanLabels chars text labels indexByLabel = some kept ∧ GreedyCover found kept := by
  rw [scanLabels]
  cases hhits : allHits chars indexByLabel (chars.lower text) labels with
  | none => exact .inl ⟨rfl, rfl⟩
  | some found =>
    exact .inr ⟨found, _, rfl, rfl, greedyCover_keep (fun h hh => (allHits_at hhits hh).start_lt_stop)⟩

end TheCargo.LeadFields
