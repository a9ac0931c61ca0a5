import Rpsiod.Config.Site

/-!
# The header fields of a configuration (`split_key_value`)

A line below `headers.add` is cut at its first colon, and both parts are copied and trimmed.

* `configuredHeader`: the pair that a line adds.
* `configuredHeader_name`: **its name is not empty and has no colon**.
-/

namespace Rpsiod

open ListSearch

/-- `split_key_value`, with the sizes of its caller's buffers. -/
def splitKeyValue (keyLen valueLen : ℕ) (line : Bytes) : Option (Bytes × Bytes) :=
  match splitFirst 58 line with
  | none => none
  | some (before, after) =>
      let key := trim (safeCopy keyLen before)
      if key = [] then none else some (key, trim (safeCopy valueLen after))

/-- `append_header_add` on a line of `parse_sites_file`; `apply_site_value` passes over an empty
value. -/
def configuredHeader (line : Bytes) : Option (Bytes × Bytes) :=
  match splitKeyValue 128 1024 line with
  | none => none
  | some (key, value) =>
      if value = [] then none else some (safeCopy 128 key, safeCopy 512 value)

/-- The fields that the site adds come from lines of a configuration. -/
def Site.Configured (site : Site) : Prop :=
  ∀ pair ∈ site.headersAdd, ∃ line,
    configuredHeader line = some (pair.name.bytes, pair.value.bytes)

theorem mem_of_mem_trim {c : UInt8} {text : Bytes} (h : c ∈ trim text) : c ∈ text := by
  have hstrip : ∀ c ∈ (text.dropWhile isspace).rdropWhile isspace, c ∈ text := fun c hc =>
    (List.dropWhile_suffix _).subset ((List.rdropWhile_prefix _ _).subset hc)
  unfold trim at h
  dsimp only at h
  split_ifs at h
  · exact hstrip c (List.mem_of_mem_tail (List.mem_of_mem_dropLast h))
  · exact hstrip c h

/-- **The name that a line gives**: it is not empty, and has no colon. -/
theorem configuredHeader_name {line name value : Bytes}
    (h : configuredHeader line = some (name, value)) : name ≠ [] ∧ 58 ∉ name := by
  unfold configuredHeader splitKeyValue at h
  cases hsplit : splitFirst 58 line with
  | none =>
      rw [hsplit] at h
      cases h
  | some parts =>
      obtain ⟨before, after⟩ := parts
      obtain ⟨-, hcolon⟩ := splitFirst_eq_some_iff.mp hsplit
      rw [hsplit] at h
      dsimp only at h
      split_ifs at h with hkey
      · dsimp only at h
        split_ifs at h
        obtain ⟨rfl, -⟩ := Prod.mk.inj (Option.some.inj h)
        constructor
        · unfold safeCopy
          intro hnil
          rcases List.take_eq_nil_iff.mp hnil with hzero | hnone
          · exact absurd hzero (by decide)
          · exact hkey hnone
        · intro hmem
          exact hcolon (List.mem_of_mem_take (mem_of_mem_trim (List.mem_of_mem_take hmem)))

theorem Site.Configured.name {site : Site} (h : site.Configured) {pair : HeaderPair}
    (hpair : pair ∈ site.headersAdd) : pair.name.bytes ≠ [] ∧ 58 ∉ pair.name.bytes := by
  obtain ⟨line, hline⟩ := h pair hpair
  exact configuredHeader_name hline

end Rpsiod
