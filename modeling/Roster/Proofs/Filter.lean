import Mathlib.Data.List.Basic
import Roster.Filter
import Roster.Proofs.Glob.Language

/-! What filters let through, in terms of the texts their patterns stand for. A filter is a map, and its entries and the keys
they require may be looked at in any order: that the first entry to refuse a member ends the search makes no difference. -/
namespace Roster

/-- The pattern stands for the text, byte for byte. -/
def Glob.Fits (pattern text : String) : Prop := Generates 42 pattern.toUTF8.data.toList text.toUTF8.data.toList

theorem Glob.matchesText_iff {pattern text : String} : matchesText pattern text = true ↔ Fits pattern text :=
  accepts_iff_generates

theorem Glob.any_matchesText_iff {patterns : List String} {text : String} :
    patterns.any (matchesText · text) = true ↔ ∃ pattern ∈ patterns, Fits pattern text := by
  simp [matchesText_iff]

/-! Entries one by one -/

/-- The loop over a map stops at the first entry that fails. -/
theorem Keyed.all_eq_forIn {β : Type} (t : Keyed β) (p : String → β → Bool) :
    t.all p = Id.run (do
      for (e : String × β) in t do
        if p e.1 e.2 = false then return false
      return true) := by
  obtain ⟨t⟩ := t
  induction t with
  | mk t => rfl

theorem Keyed.all_eq_toList {β : Type} (t : Keyed β) (p : String → β → Bool) :
    t.all p = t.toList.all fun e => p e.1 e.2 := by
  rw [all_eq_forIn, Std.ExtTreeMap.forIn_eq_forIn_toList]
  induction t.toList with
  | nil => rfl
  | cons e es ih =>
    rw [List.all_cons, ← ih]
    simp only [List.forIn_cons]
    cases p e.1 e.2 <;> rfl

/-- A key is present with a value that one of the patterns listed for it accepts. -/
def MetadataFilter.met (m : Member) (required : String × List String) : Bool :=
  match m.metadata[required.1]? with
  | some value => required.2.any (Glob.matchesText · value)
  | none => false

/-- The search through the entries of a filter: one that fits the service and refuses the member ends it. -/
def Filter.search (accepts : String × ServiceFilter → Bool) (service : String) (matched : Bool) :
    List (String × ServiceFilter) → Bool
  | [] => matched
  | e :: rest =>
    if Glob.matchesText e.1 service then
      if accepts e then search accepts service true rest else false
    else search accepts service matched rest

namespace MetadataFilter

variable {f : MetadataFilter} {m : Member}

theorem accepts_eq_all (f : MetadataFilter) (m : Member) : f.accepts m = f.toList.all (met m) :=
  Keyed.all_eq_toList f _

theorem met_iff {required : String × List String} :
    met m required = true ↔ ∃ value, m.metadata[required.1]? = some value ∧ ∃ p ∈ required.2, Glob.Fits p value := by
  unfold met
  split
  · next value hvalue => simp [hvalue, Glob.matchesText_iff]
  · next hnone => simp [hnone]

theorem accepts_iff :
    f.accepts m = true ↔ ∀ (key : String) (patterns : List String), f[key]? = some patterns →
      ∃ value, m.metadata[key]? = some value ∧ ∃ p ∈ patterns, Glob.Fits p value := by
  simp only [accepts_eq_all, List.all_eq_true, met_iff, Prod.forall, Std.ExtTreeMap.mem_toList_iff_getElem?_eq_some]

theorem accepts_of_perm {required : List (String × List String)} (h : required.Perm f.toList) :
    required.all (met m) = f.accepts m :=
  (h.all_eq).trans (accepts_eq_all f m).symm

end MetadataFilter

namespace ServiceFilter

variable {f : ServiceFilter} {m : Member}

theorem acceptsLocality_iff {locality : String} :
    f.acceptsLocality locality = true ↔
      f.locality = none ∨ f.locality = some [] ∨ ∃ patterns, f.locality = some patterns ∧
        ∃ p ∈ patterns, Glob.Fits p locality := by
  unfold acceptsLocality
  split
  · next hnone => simp [hnone]
  · next patterns hsome =>
    rw [Bool.or_eq_true, Glob.any_matchesText_iff, List.isEmpty_iff, hsome]
    simp

theorem accepts_iff :
    f.accepts m = true ↔ f.acceptsLocality m.locality = true ∧ f.metadata.accepts m = true :=
  Bool.and_eq_true_iff

end ServiceFilter

namespace Filter

variable {f : Filter} {m : Member} {accepts : String × ServiceFilter → Bool} {service : String}

/-- The search succeeds if an entry fits, unless one has before, and all that fit accept. -/
theorem search_iff {matched : Bool} {entries : List (String × ServiceFilter)} :
    search accepts service matched entries = true ↔
      (matched = true ∨ ∃ e ∈ entries, Glob.Fits e.1 service) ∧
        ∀ e ∈ entries, Glob.Fits e.1 service → accepts e = true := by
  induction entries generalizing matched with
  | nil => simp [search]
  | cons e rest ih =>
    simp only [search, List.mem_cons, forall_eq_or_imp, exists_eq_or_imp]
    by_cases hfits : Glob.Fits e.1 service
    · rw [if_pos (Glob.matchesText_iff.mpr hfits)]
      cases haccepts : accepts e with
      | true => simp [hfits, ih]
      | false => simp [hfits]
    · rw [if_neg (mt Glob.matchesText_iff.mp hfits), ih]
      simp [hfits]

theorem accepts_iff_search : f.accepts m = true ↔ search (fun e => e.2.accepts m) m.service false f.toList = true := by
  rw [search_iff, Filter.accepts]
  simp only [Bool.and_eq_true, Bool.not_eq_true', List.isEmpty_eq_false_iff_exists_mem, List.all_eq_true, List.mem_filter,
    Glob.matchesText_iff, and_imp]
  simp

/-- Neither the order of the entries nor that of the keys in each of them matters. -/
theorem search_of_perm {entries : List (String × ServiceFilter)} {required : String → List (String × List String)}
    (hentries : entries.Perm f.toList)
    (hrequired : ∀ e ∈ entries, (required e.1).Perm e.2.metadata.toList) :
    search (fun e => e.2.acceptsLocality m.locality && (required e.1).all (MetadataFilter.met m)) m.service false entries =
      f.accepts m := by
  rw [Bool.eq_iff_iff, accepts_iff_search, search_iff, search_iff]
  simp only [hentries.mem_iff]
  refine and_congr_right fun _ => forall₂_congr fun e he => imp_congr_right fun _ => ?_
  rw [MetadataFilter.accepts_of_perm (hrequired e (hentries.mem_iff.mpr he))]
  rfl

/-- Some service pattern fits, and every entry whose pattern fits accepts the locality, if it lists any, and finds each key
it requires with a value that fits. The search for that comes to the same answer in whatever order it goes. -/
theorem accepts_iff_levels (f : Filter) (m : Member) :
    (f.accepts m = true ↔
      (∃ service requirements, f[service]? = some requirements ∧ Glob.Fits service m.service) ∧
      ∀ (service : String) (requirements : ServiceFilter), f[service]? = some requirements → Glob.Fits service m.service →
        (requirements.locality = none ∨ requirements.locality = some [] ∨
          ∃ patterns, requirements.locality = some patterns ∧ ∃ p ∈ patterns, Glob.Fits p m.locality) ∧
        ∀ (key : String) (patterns : List String), requirements.metadata[key]? = some patterns →
          ∃ value, m.metadata[key]? = some value ∧ ∃ p ∈ patterns, Glob.Fits p value) ∧
    ∀ (entries : List (String × ServiceFilter)) (required : String → List (String × List String)),
      entries.Perm f.toList → (∀ e ∈ entries, (required e.1).Perm e.2.metadata.toList) →
        search (fun e => e.2.acceptsLocality m.locality && (required e.1).all (MetadataFilter.met m)) m.service false
          entries = f.accepts m := by
  refine ⟨?_, fun entries required => search_of_perm⟩
  rw [accepts_iff_search, search_iff]
  simp only [Prod.exists, Prod.forall, Std.ExtTreeMap.mem_toList_iff_getElem?_eq_some, ServiceFilter.accepts_iff,
    ServiceFilter.acceptsLocality_iff, MetadataFilter.accepts_iff, Bool.false_eq_true, false_or]

/-- Two patterns fit any web member. One asks for a place, the other for a key. -/
def twofold : Filter :=
  ((∅ : Filter).withService "web" (({} : ServiceFilter).withLocality ["eu-*"])).withService "*"
    (({} : ServiceFilter).withMetadata "zone" ["1", "2"])

/-- The entry that refuses the member comes first in one order and last in the other. -/
theorem refused_in_reverse :
    let m : Member := { Member.new "a" "web" with locality := "eu-west" }
    let required : String → List (String × List String) := fun service =>
      ((twofold[service]? : Option ServiceFilter).getD {}).metadata.toList.reverse
    twofold.toList.map (·.1) = ["*", "web"] ∧ twofold.accepts m = false ∧
      search (fun e => e.2.acceptsLocality m.locality && (required e.1).all (MetadataFilter.met m)) m.service false
        twofold.toList.reverse = false := by
  intro m required
  have hrequired : ∀ e ∈ twofold.toList.reverse, (required e.1).Perm e.2.metadata.toList := by
    intro e he
    rw [List.mem_reverse, Std.ExtTreeMap.mem_toList_iff_getElem?_eq_some] at he
    simp only [required, he]
    exact List.reverse_perm _
  have hrefused : twofold.accepts m = false := rfl
  obtain ⟨-, horder⟩ := accepts_iff_levels twofold m
  exact ⟨rfl, hrefused, (horder _ required (List.reverse_perm _) hrequired).trans hrefused⟩

end Filter

end Roster
