import Mathlib.Data.List.Induction
import Roster.Proofs.Filter

/-! Filters built piece by piece. A service given again loses all its earlier requirements, while inside the requirements of a
service what is given again adds to what was there. -/
namespace Roster

/-- A piece of the requirements of a service: patterns for the locality, or for the value of a metadata key. -/
inductive Requirement
  | locality (patterns : List String)
  | metadata (key : String) (patterns : List String)
  deriving DecidableEq, Repr

/-! Requirements of a service -/

namespace ServiceFilter

def require (f : ServiceFilter) : Requirement → ServiceFilter
  | .locality patterns => f.withLocality patterns
  | .metadata key patterns => f.withMetadata key patterns

/-- Piece after piece, from no requirements at all. -/
def ofRequirements (rs : List Requirement) : ServiceFilter := rs.foldl require {}

variable {f : ServiceFilter} {m : Member} {rs : List Requirement} {key other pattern : String} {patterns : List String}

@[simp] theorem ofRequirements_nil : ofRequirements [] = {} := rfl

@[simp] theorem ofRequirements_append_singleton (rs : List Requirement) (r : Requirement) :
    ofRequirements (rs ++ [r]) = (ofRequirements rs).require r := by
  simp [ofRequirements]

theorem mem_withMetadata : other ∈ (f.withMetadata key patterns).metadata ↔ key = other ∨ other ∈ f.metadata := by
  simp [withMetadata, MetadataFilter.add, Std.ExtTreeMap.mem_insert]

theorem getD_withMetadata : (f.withMetadata key patterns).metadata.getD other [] =
    if key = other then f.metadata.getD other [] ++ patterns else f.metadata.getD other [] := by
  by_cases h : key = other
  · simp [withMetadata, MetadataFilter.add, h]
  · simp [withMetadata, MetadataFilter.add, Std.ExtTreeMap.getD_insert, h]

/-- Without a pattern for the locality, be it with an empty list of them, any will do. -/
theorem acceptsLocality_iff_getD {locality : String} :
    f.acceptsLocality locality = true ↔
      (∀ p, p ∉ f.locality.getD []) ∨ ∃ p ∈ f.locality.getD [], Glob.Fits p locality := by
  rw [acceptsLocality_iff]
  cases f.locality with
  | none => simp
  | some patterns => simp [List.eq_nil_iff_forall_not_mem]

theorem accepts_metadata_iff_getD : f.metadata.accepts m = true ↔
    ∀ key, key ∈ f.metadata →
      ∃ value, m.metadata[key]? = some value ∧ ∃ p ∈ f.metadata.getD key [], Glob.Fits p value := by
  rw [MetadataFilter.accepts_iff]
  refine forall_congr' fun key => ?_
  simp only [Std.ExtTreeMap.mem_iff_isSome_getElem?, Std.ExtTreeMap.getD_eq_getD_getElem?]
  cases f.metadata[key]? <;> simp

/-! The patterns of all pieces together -/

theorem mem_locality_ofRequirements :
    pattern ∈ (ofRequirements rs).locality.getD [] ↔ ∃ patterns, .locality patterns ∈ rs ∧ pattern ∈ patterns := by
  induction rs using List.reverseRecOn with
  | nil => simp
  | append_singleton rs r ih =>
    cases r with
    | locality patterns => simp [require, withLocality, ih, or_and_right, exists_or]
    | metadata key patterns => simp [require, withMetadata, ih]

theorem mem_keys_ofRequirements : key ∈ (ofRequirements rs).metadata ↔ ∃ patterns, .metadata key patterns ∈ rs := by
  induction rs using List.reverseRecOn with
  | nil => simp
  | append_singleton rs r ih =>
    cases r with
    | locality patterns => simp [require, withLocality, ih]
    | metadata other patterns =>
      simp only [ofRequirements_append_singleton, require, mem_withMetadata, ih, List.mem_append, List.mem_singleton,
        Requirement.metadata.injEq, exists_or, exists_and_left, exists_eq, and_true]
      rw [or_comm, eq_comm]

theorem mem_metadata_ofRequirements : pattern ∈ (ofRequirements rs).metadata.getD key [] ↔
    ∃ patterns, .metadata key patterns ∈ rs ∧ pattern ∈ patterns := by
  induction rs using List.reverseRecOn with
  | nil => simp
  | append_singleton rs r ih =>
    cases r with
    | locality patterns => simp [require, withLocality, ih]
    | metadata other patterns =>
      rw [ofRequirements_append_singleton, require, getD_withMetadata]
      by_cases h : other = key
      · simp [h, ih, or_and_right, exists_or]
      · simp [h, ih, Ne.symm h]

/-- A pattern of one of some lists is one of the patterns of them all. -/
theorem exists_pattern_iff {given : List String → Prop} {fits : String → Prop} :
    (∃ p, (∃ patterns, given patterns ∧ p ∈ patterns) ∧ fits p) ↔
      ∃ patterns, given patterns ∧ ∃ p ∈ patterns, fits p := by
  constructor
  · rintro ⟨p, ⟨patterns, hgiven, hp⟩, hfits⟩
    exact ⟨patterns, hgiven, p, hp, hfits⟩
  · rintro ⟨patterns, hgiven, p, hp, hfits⟩
    exact ⟨p, ⟨patterns, hgiven, hp⟩, hfits⟩

/-- What is accepted depends on the pieces only, not on their order or on how the patterns are divided among them. -/
theorem accepts_ofRequirements_iff : (ofRequirements rs).accepts m = true ↔
    ((∀ patterns, .locality patterns ∈ rs → patterns = []) ∨
      ∃ patterns, .locality patterns ∈ rs ∧ ∃ p ∈ patterns, Glob.Fits p m.locality) ∧
    ∀ key patterns, .metadata key patterns ∈ rs → ∃ value, m.metadata[key]? = some value ∧
      ∃ patterns, .metadata key patterns ∈ rs ∧ ∃ p ∈ patterns, Glob.Fits p value := by
  rw [accepts_iff, acceptsLocality_iff_getD, accepts_metadata_iff_getD]
  simp only [mem_locality_ofRequirements, mem_keys_ofRequirements, mem_metadata_ofRequirements, exists_pattern_iff,
    forall_exists_index]
  have hnone : (∀ p, ¬ ∃ patterns, .locality patterns ∈ rs ∧ p ∈ patterns) ↔
      ∀ patterns, .locality patterns ∈ rs → patterns = [] := by
    simp only [List.eq_nil_iff_forall_not_mem, not_exists, not_and]
    exact ⟨fun h patterns hmem p => h p patterns hmem, fun h p patterns hmem => h patterns hmem p⟩
  rw [hnone]

/-- More patterns for a key that is required already: what was accepted still is. -/
theorem accepts_withMetadata_of_mem (hkey : key ∈ f.metadata) (h : f.accepts m = true) :
    (f.withMetadata key patterns).accepts m = true := by
  rw [accepts_iff, accepts_metadata_iff_getD] at h ⊢
  refine ⟨h.1, fun other hother => ?_⟩
  have hmem : other ∈ f.metadata := (mem_withMetadata.mp hother).elim (fun heq => heq ▸ hkey) id
  obtain ⟨value, hvalue, p, hp, hfits⟩ := h.2 other hmem
  refine ⟨value, hvalue, p, ?_, hfits⟩
  rw [getD_withMetadata]
  split
  · exact List.mem_append_left patterns hp
  · exact hp

/-- A key that was not required: what is accepted was accepted before. -/
theorem accepts_of_withMetadata (hkey : key ∉ f.metadata) (h : (f.withMetadata key patterns).accepts m = true) :
    f.accepts m = true := by
  rw [accepts_iff, accepts_metadata_iff_getD] at h ⊢
  refine ⟨h.1, fun other hother => ?_⟩
  have hne : key ≠ other := fun heq => hkey (heq ▸ hother)
  have hrequired := h.2 other (mem_withMetadata.mpr (.inr hother))
  rwa [getD_withMetadata, if_neg hne] at hrequired

end ServiceFilter

/-! Entries of a filter -/

namespace Filter

/-- The requirements of the last pair with the service. -/
def latest? (pairs : List (String × ServiceFilter)) (service : String) : Option ServiceFilter :=
  (pairs.reverse.find? (·.1 = service)).map (·.2)

def chained (pairs : List (String × ServiceFilter)) : Filter := pairs.foldl (fun f e => f.withService e.1 e.2) ∅

/-- One pair after the other, with what each of them replaced. -/
def replaceAll (f : Filter) : List (String × ServiceFilter) → List (Option ServiceFilter) × Filter
  | [] => ([], f)
  | e :: rest =>
    let (replaced, f) := f.replace e.1 e.2
    let (others, f) := f.replaceAll rest
    (replaced :: others, f)

variable {pairs before : List (String × ServiceFilter)} {service : String}

theorem ofPairs_eq_chained (pairs : List (String × ServiceFilter)) : ofPairs pairs = chained pairs :=
  Std.ExtTreeMap.ofList_eq_foldl

theorem ofPairs_append_singleton (pairs : List (String × ServiceFilter)) (e : String × ServiceFilter) :
    ofPairs (pairs ++ [e]) = (ofPairs pairs).insert e.1 e.2 := by
  simp [ofPairs_eq_chained, chained, withService]

theorem getElem?_ofPairs : (ofPairs pairs)[service]? = latest? pairs service := by
  induction pairs using List.reverseRecOn with
  | nil => simp [ofPairs_eq_chained, chained, latest?]
  | append_singleton pairs e ih =>
    rw [ofPairs_append_singleton, Std.ExtTreeMap.getElem?_insert, ih]
    by_cases h : e.1 = service <;> simp [latest?, h]

theorem replaceAll_ofPairs (before pairs : List (String × ServiceFilter)) :
    (ofPairs before).replaceAll pairs =
      (pairs.mapIdx fun i e => latest? (before ++ pairs.take i) e.1, ofPairs (before ++ pairs)) := by
  induction pairs generalizing before with
  | nil => simp [replaceAll]
  | cons e pairs ih =>
    simp only [replaceAll, replace, ← ofPairs_append_singleton, getElem?_ofPairs, ih]
    simp [List.mapIdx_cons]

/-- However the pairs are put together, they make one filter, in which the last pair with a service stands for it as a whole, and
what a pair replaces is what the last one before it with its service gave. Inside the requirements of a service the pieces add
up: a place is asked for by all patterns for it together, a key by all patterns for that key together. So more patterns for a
key required already turn no member down, and a key not required yet lets no member in. -/
theorem built_alike (groups : List (String × List Requirement)) :
    let pairs := groups.map fun g => (g.1, ServiceFilter.ofRequirements g.2)
    (chained pairs = ofPairs pairs ∧ ((∅ : Filter).replaceAll pairs).2 = ofPairs pairs ∧
      ∀ entries : Keyed ServiceFilter, (∀ service : String, entries[service]? = latest? pairs service) →
        ofMap entries = ofPairs pairs) ∧
    (∀ service : String, (ofPairs pairs)[service]? = latest? pairs service) ∧
    ((∅ : Filter).replaceAll pairs).1 = pairs.mapIdx (fun i e => latest? (pairs.take i) e.1) ∧
    (∀ (rs : List Requirement) (m : Member), (ServiceFilter.ofRequirements rs).accepts m = true ↔
      ((∀ patterns, .locality patterns ∈ rs → patterns = []) ∨
        ∃ patterns, .locality patterns ∈ rs ∧ ∃ p ∈ patterns, Glob.Fits p m.locality) ∧
      ∀ key patterns, .metadata key patterns ∈ rs → ∃ value, m.metadata[key]? = some value ∧
        ∃ patterns, .metadata key patterns ∈ rs ∧ ∃ p ∈ patterns, Glob.Fits p value) ∧
    ∀ (f : ServiceFilter) (m : Member) (key : String) (patterns : List String),
      (key ∈ f.metadata → f.accepts m = true → (f.withMetadata key patterns).accepts m = true) ∧
        (key ∉ f.metadata → (f.withMetadata key patterns).accepts m = true → f.accepts m = true) := by
  intro pairs
  have hreplace : (∅ : Filter).replaceAll pairs = (pairs.mapIdx fun i e => latest? (pairs.take i) e.1, ofPairs pairs) :=
    replaceAll_ofPairs [] pairs
  refine ⟨⟨(ofPairs_eq_chained pairs).symm, by rw [hreplace], fun entries hentries => ?_⟩, fun service => getElem?_ofPairs,
    by rw [hreplace], fun rs m => ServiceFilter.accepts_ofRequirements_iff, fun f m key patterns =>
      ⟨ServiceFilter.accepts_withMetadata_of_mem, ServiceFilter.accepts_of_withMetadata⟩⟩
  apply Std.ExtTreeMap.ext_getElem?
  intro service
  rw [getElem?_ofPairs]
  exact hentries service

/-- A service given twice, and a key given twice for it. -/
theorem web_given_twice :
    let first := [Requirement.locality ["eu-*"], .metadata "zone" ["1"], .metadata "zone" ["2"]]
    let web := ServiceFilter.ofRequirements first
    let last : ServiceFilter := { metadata := Std.ExtTreeMap.ofList [("zone", ["3"])] }
    let pairs := [("web", web), ("db", {}), ("web", last)]
    let entries : Keyed ServiceFilter := ((∅ : Keyed ServiceFilter).insert "web" last).insert "db" {}
    let m : Member := { Member.new "a" "web" with locality := "eu-1", metadata := Std.ExtTreeMap.ofList [("zone", "2")] }
    (∀ service : String, entries[service]? = latest? pairs service) ∧ ofMap entries = ofPairs pairs ∧
      ((∅ : Filter).replaceAll pairs).1 = [none, none, some web] ∧
      "zone" ∈ web.metadata ∧ web.accepts m = true ∧ (web.withMetadata "zone" ["4"]).accepts m = true ∧
      "rack" ∉ last.metadata ∧ last.accepts m = false ∧ (last.withMetadata "rack" ["*"]).accepts m = false := by
  intro first web last pairs entries m
  obtain ⟨⟨-, -, hmap⟩, -, hreplaced, -, hmore⟩ :=
    built_alike [("web", first), ("db", []), ("web", [.metadata "zone" ["3"]])]
  have hentries : ∀ service : String, entries[service]? = latest? pairs service := by
    intro service
    by_cases hdb : "db" = service
    · subst hdb
      rfl
    · by_cases hweb : "web" = service
      · subst hweb
        rfl
      · simp [entries, pairs, latest?, hdb, hweb]
  have hzone : "zone" ∈ web.metadata := by decide +kernel
  have hrack : "rack" ∉ last.metadata := by decide +kernel
  have haccepted : web.accepts m = true := rfl
  have hrefused : last.accepts m = false := rfl
  have hstill : (last.withMetadata "rack" ["*"]).accepts m ≠ true := by
    intro h
    exact absurd ((hmore last m "rack" ["*"]).2 hrack h) (by rw [hrefused]; decide)
  exact ⟨hentries, hmap entries hentries, hreplaced, hzone, haccepted, (hmore web m "zone" ["4"]).1 hzone haccepted, hrack,
    hrefused, Bool.eq_false_iff.mpr hstill⟩

end Filter

end Roster
