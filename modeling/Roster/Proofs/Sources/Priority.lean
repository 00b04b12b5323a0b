import Roster.Proofs.Sources.Setting

/-! Which source decides: for every setting on its own the environment, then the file, then the configuration itself. -/
namespace Roster

open Document Sources

variable {root d : Document} {es : List (String × Document)} {s t : Setting} {c : Configuration} {keys : List String}

/-- A tree at some place that sets settings and nothing else: a value that the setting of this place takes, or a table on
the way to settings. -/
inductive Sets : List String → Document → Prop
  | value {s : Setting} {d : Document} : s.Takes d → Sets s.keys d
  | table {keys : List String} {es : List (String × Document)} (s : Setting) : keys <+: s.keys → keys ≠ s.keys →
    (∀ e ∈ es, Sets (keys ++ [e.1]) e.2) → Sets keys (.table es)

/-- A file that sets settings and nothing else. -/
def SetsOnly (es : List (String × Document)) : Prop := Sets [] (.table es)

theorem Sets.of_at? {before : List String} {e : Document} (h : Sets before d) (he : at? keys d = some e) :
    Sets (before ++ keys) e := by
  induction keys generalizing before d with
  | nil =>
    rw [List.append_nil]
    exact Option.some.inj he ▸ h
  | cons key keys ih =>
    obtain ⟨inner, hinner, hrest⟩ := Option.bind_eq_some_iff.mp he
    have hmem := mem_of_lookup? hinner
    cases h with
    | value htakes =>
      cases d with
      | table es => exact absurd rfl (Setting.ne_table_of_takes htakes es)
      | _ => exact nomatch hmem
    | table s hpre hne hes =>
      rw [List.append_cons]
      exact ih (hes _ hmem) hrest

theorem SetsOnly.of_at? (h : SetsOnly es) (hd : at? keys (.table es) = some d) :
    ∃ s : Setting, (s.keys = keys ∧ s.Takes d) ∨ (keys <+: s.keys ∧ keys ≠ s.keys ∧ IsTable d) := by
  cases Sets.of_at? h hd with
  | @value s _ htakes => exact ⟨s, .inl ⟨rfl, htakes⟩⟩
  | @table _ inner s hpre hne _ => exact ⟨s, .inr ⟨hpre, hne, inner, rfl⟩⟩

theorem SetsOnly.tidy (h : SetsOnly es) (hdistinct : Distinct (.table es)) : Tidy (.table es) := by
  refine tidy_of_distinct hdistinct fun keys d hd key hkey => ?_
  obtain ⟨s, ⟨rfl, -⟩ | ⟨hpre, -, -⟩⟩ := h.of_at? hd
  · exact s.plain_of_mem_keys key hkey
  · exact s.plain_of_mem_keys key (hpre.subset hkey)

theorem SetsOnly.clear (h : SetsOnly es) (hkeys : keys <+: s.keys) : Clear keys (.table es) := by
  rintro before after d rfl hafter hd
  obtain ⟨t, ⟨ht, -⟩ | ⟨-, -, htable⟩⟩ := h.of_at? hd
  · have hts : t = s := Setting.eq_of_prefix (ht ▸ (List.prefix_append before after).trans hkeys)
    subst hts
    have hlen := hkeys.length_le
    rw [ht, List.length_append] at hlen
    have hpos := List.length_pos_iff.mpr hafter
    omega
  · exact htable

theorem SetsOnly.takes (h : SetsOnly es) (hd : at? s.keys (.table es) = some d) : s.Takes d := by
  obtain ⟨t, ⟨ht, htakes⟩ | ⟨hpre, hproper, -⟩⟩ := h.of_at? hd
  · exact Setting.keys_injective ht ▸ htakes
  · exact absurd (congrArg Setting.keys (Setting.eq_of_prefix hpre)) hproper

theorem at?_put_setting (s t : Setting) (d root : Document) :
    at? t.keys (put s.keys d root) = if s = t then some d else at? t.keys root := by
  split
  · next heq => exact heq ▸ at?_put_same s.plain_of_mem_keys d root
  · next hne =>
    exact at?_put_other s.plain_of_mem_keys (fun h => hne (Setting.eq_of_prefix h))
      (fun h => hne (Setting.eq_of_prefix h).symm) d root

theorem Proper.put (h : Proper root) (hd : s.Takes d) : Proper (put s.keys d root) := by
  constructor
  · obtain ⟨e, he, htable⟩ := at?_put_around s.plain_of_mem_keys List.nil_prefix s.keys_ne_nil.symm d root
    exact Option.some.inj he ▸ htable
  · intro t e he
    rw [at?_put_setting] at he
    split at he
    · next heq => exact heq ▸ Option.some.inj he ▸ hd
    · exact h.takes t e he
  · intro keys hkeys e he
    have hinside := Setting.not_prefix_of_mem_sections hkeys s
    by_cases hpre : keys <+: s.keys
    · have hne : keys ≠ s.keys := fun heq => hinside (heq ▸ List.prefix_rfl)
      obtain ⟨f, hf, htable⟩ := at?_put_around s.plain_of_mem_keys hpre hne d root
      exact Option.some.inj (hf.symm.trans he) ▸ htable
    · rw [at?_put_other s.plain_of_mem_keys hinside hpre] at he
      exact h.sections keys hkeys e he
  · intro e he
    rw [at?_put_other s.plain_of_mem_keys s.not_prefix_filter.1 s.not_prefix_filter.2] at he
    exact h.filter e he

theorem distinct_of_entries {file : ConfigFile} (h : file.entries = .ok es) : Distinct (.table es) := by
  cases file with
  | missing => exact nomatch h
  | present name content =>
    dsimp only [ConfigFile.entries] at h
    split at h
    · split at h
      · next heq => exact Except.ok.inj h ▸ Toml.distinct_of_parse heq
      · exact nomatch h
    · exact nomatch h

namespace Configuration

end Configuration

end Roster
