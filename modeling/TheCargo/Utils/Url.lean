import TheCargo.Foundation.Partition

namespace TheCargo.Utils

open Foundation

abbrev Text := List Char

def schemeEnd : Text := [':', '/', '/']

def redactCredentials (url : Text) : Text :=
  if '@' ∉ url then url
  else
    let (scheme, rest) := partition schemeEnd url
    let (_, hostPart) := partition ['@'] rest
    scheme ++ schemeEnd ++ ['*', '*', '*', '@'] ++ hostPart

def connection (scheme credentials host : Text) : Text := scheme ++ schemeEnd ++ credentials ++ '@' :: host

def fromAt (s : Text) : Text := s.dropWhile (fun c => c ≠ '@')

/-- What stands in a scheme after a `://` of its own, up to the end of the `://` that follows the scheme. -/
def extra (scheme : Text) : Text :=
  if schemeEnd <:+: scheme then (partition schemeEnd scheme).2 ++ schemeEnd else []

variable {scheme s c : Text}

lemma fromAt_nil (h : '@' ∉ s) : fromAt s = [] :=
  List.dropWhile_eq_nil_iff.mpr fun _ hc => decide_eq_true fun heq => h (heq ▸ hc)

lemma fromAt_append (h : '@' ∉ s) (t : Text) : fromAt (s ++ t) = fromAt t :=
  List.dropWhile_append_of_pos fun _ hc => decide_eq_true fun heq => h (heq ▸ hc)

lemma fromAt_append_of_mem (h : '@' ∈ s) (t : Text) : fromAt (s ++ t) = fromAt s ++ t := by
  have hne : (s.dropWhile (fun c => c ≠ '@')).isEmpty = false := by
    rw [List.isEmpty_eq_false_iff, ne_eq, List.dropWhile_eq_nil_iff]
    exact fun hall => of_decide_eq_true (hall '@' h) rfl
  rw [fromAt, List.dropWhile_append, hne]
  rfl

lemma fromAt_at (s : Text) : fromAt s = [] ∨ ∃ t, fromAt s = '@' :: t := by
  by_cases h : '@' ∈ s
  · obtain ⟨a, b, rfl, ha⟩ := List.eq_append_cons_of_mem h
    exact .inr ⟨b, by rw [fromAt_append ha]; rfl⟩
  · exact .inl (fromAt_nil h)

lemma drop_fromAt_inj (s t host : Text) :
    (fromAt s ++ '@' :: host).drop 1 = (fromAt t ++ '@' :: host).drop 1 ↔ fromAt s = fromAt t := by
  have hcons : ∀ s, ∃ r, fromAt s ++ '@' :: host = '@' :: r := by
    intro s
    rcases fromAt_at s with h | ⟨r, h⟩
    · exact ⟨host, by rw [h, List.nil_append]⟩
    · exact ⟨r ++ '@' :: host, by rw [h, List.cons_append]⟩
  obtain ⟨r, hr⟩ := hcons s
  obtain ⟨q, hq⟩ := hcons t
  constructor
  · intro h
    rw [hr, hq, List.drop_one, List.drop_one, List.tail_cons, List.tail_cons] at h
    exact List.append_cancel_right (by rw [hr, hq, h])
  · intro h
    rw [h]

lemma unbordered_schemeEnd : Unbordered schemeEnd := by
  decide

lemma partition_connection (scheme credentials host : Text) :
    partition schemeEnd (connection scheme credentials host) =
      ((partition schemeEnd scheme).1, extra scheme ++ credentials ++ '@' :: host) := by
  have hne : schemeEnd ≠ [] := List.cons_ne_nil _ _
  rw [connection, List.append_assoc, List.append_assoc, partition_append hne unbordered_schemeEnd, extra]
  split
  · rw [List.append_assoc, List.append_assoc]
  · rename_i h
    rw [partition_none h, List.nil_append]

lemma redactCredentials_connection (scheme credentials host : Text) :
    redactCredentials (connection scheme credentials host) =
      (partition schemeEnd scheme).1 ++ schemeEnd ++ ['*', '*', '*', '@'] ++
        (fromAt (extra scheme ++ credentials) ++ '@' :: host).drop 1 := by
  have hat : '@' ∈ connection scheme credentials host := List.mem_append_right _ List.mem_cons_self
  have hhost : fromAt (extra scheme ++ credentials ++ '@' :: host) =
      fromAt (extra scheme ++ credentials) ++ '@' :: host := by
    by_cases h : '@' ∈ extra scheme ++ credentials
    · exact fromAt_append_of_mem h _
    · rw [fromAt_append h, fromAt_nil h]
      rfl
  rw [redactCredentials, if_neg (not_not_intro hat), partition_connection]
  simp only [partition_singleton]
  rw [← hhost, fromAt]

lemma mem_extra : '@' ∈ extra scheme ↔ '@' ∈ (partition schemeEnd scheme).2 := by
  rw [extra]
  split
  · rw [List.mem_append, or_iff_left (by decide)]
  · rename_i h
    rw [partition_none h]

theorem redactCredentials_eq_iff (scheme credentials₁ credentials₂ host : Text) :
    redactCredentials (connection scheme credentials₁ host) = redactCredentials (connection scheme credentials₂ host) ↔
      credentials₁ = credentials₂ ∨
        '@' ∉ (partition schemeEnd scheme).2 ∧ fromAt credentials₁ = fromAt credentials₂ := by
  rw [redactCredentials_connection, redactCredentials_connection, List.append_cancel_left_eq, drop_fromAt_inj,
    ← mem_extra]
  by_cases h : '@' ∈ extra scheme
  · rw [fromAt_append_of_mem h, fromAt_append_of_mem h, List.append_cancel_left_eq]
    exact ⟨.inl, fun hor => hor.elim id fun hand => absurd h hand.1⟩
  · rw [fromAt_append h, fromAt_append h]
    exact ⟨fun heq => .inr ⟨h, heq⟩, fun hor => hor.elim (congrArg fromAt) And.right⟩

theorem redactCredentials_shows :
    ¬ ∀ scheme credentials₁ credentials₂ host : Text, '@' ∉ host → '/' ∉ credentials₁ → '/' ∉ credentials₂ →
      redactCredentials (connection scheme credentials₁ host) =
        redactCredentials (connection scheme credentials₂ host) := by
  intro h
  have heq := h "mongodb".toList "u:p@1".toList "u:p@2".toList "db".toList (by decide) (by decide) (by decide)
  exact absurd heq (by decide)

end TheCargo.Utils
