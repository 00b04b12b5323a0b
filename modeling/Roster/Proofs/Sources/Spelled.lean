import Roster.Proofs.Sources.Heading
import Roster.Proofs.Sources.Priority

/-! A filter from a file. Its service patterns and metadata keys are taken as keys, dots and wildcards and all, but in lower
case, so that it is loaded as it is spelled exactly if they are in lower case already. -/
namespace Roster

open Document Sources

variable {β : Type} {m : Keyed β} {f : Filter} {es : List (String × Document)}

/-! Keys in lower case -/

namespace Keyed

def LowerCase (m : Keyed β) : Prop := ∀ e ∈ m.toList, Text.lower e.1 = e.1

/-- No two keys are one in lower case. -/
def Distinguished (m : Keyed β) : Prop := (m.toList.map fun e => Text.lower e.1).Nodup

/-- With the keys in lower case, and the values altered. -/
def lowered (alter : β → β) (m : Keyed β) : Keyed β :=
  Std.ExtTreeMap.ofList (m.toList.map fun e => (Text.lower e.1, alter e.2)) compare

theorem LowerCase.distinguished (h : m.LowerCase) : m.Distinguished := by
  rw [Distinguished, List.map_congr_left h]
  exact nodup_toList m

theorem LowerCase.lowered (h : m.LowerCase) {alter : β → β} (halter : ∀ e ∈ m.toList, alter e.2 = e.2) : m.lowered alter = m := by
  have hsame : (m.toList.map fun e => (Text.lower e.1, alter e.2)) = m.toList :=
    (List.map_congr_left fun e he => Prod.ext (h e he) (halter e he)).trans (List.map_id _)
  rw [Keyed.lowered, hsame]
  exact ofList_of_perm (List.Perm.refl _)

end Keyed

def ServiceFilter.lowered (f : ServiceFilter) : ServiceFilter := { f with metadata := f.metadata.lowered id }

namespace Filter

structure LowerCase (f : Filter) : Prop where
  services : Keyed.LowerCase f
  metadata : ∀ e ∈ f.toList, Keyed.LowerCase e.2.metadata

structure Distinguished (f : Filter) : Prop where
  services : Keyed.Distinguished f
  metadata : ∀ e ∈ f.toList, Keyed.Distinguished e.2.metadata

def lowered (f : Filter) : Filter := Keyed.lowered ServiceFilter.lowered f

instance (f : Filter) : Decidable f.LowerCase :=
  decidable_of_iff ((∀ e ∈ f.toList, Text.lower e.1 = e.1) ∧ ∀ e ∈ f.toList, ∀ g ∈ e.2.metadata.toList, Text.lower g.1 = g.1)
    ⟨fun h => ⟨h.1, h.2⟩, fun h => ⟨h.services, h.metadata⟩⟩

theorem LowerCase.distinguished (h : f.LowerCase) : f.Distinguished :=
  ⟨h.services.distinguished, fun e he => (h.metadata e he).distinguished⟩

theorem LowerCase.lowered (h : f.LowerCase) : f.lowered = f := by
  refine Keyed.LowerCase.lowered h.services fun e he => ?_
  rw [ServiceFilter.lowered, (h.metadata e he).lowered fun _ _ => rfl]

/-- Tables that spell a filter: for each service a table with the parts of its requirements and nothing else, which, taken as they
stand, make up the filter. -/
structure Spelled (f : Filter) (es : List (String × Document)) : Prop where
  tables : ∀ e ∈ es, ∃ parts, e.2 = .table parts ∧ ∀ part ∈ parts, part.1 ∈ ServiceFilter.fields
  read : Filter.read strict (.table es) = .ok f

end Filter

theorem Filter.Spelled.ne_nil (h : f.Spelled es) (hne : f ≠ ∅) : es ≠ [] := by
  rintro rfl
  obtain ⟨_, pairs, ⟨⟩, hpairs, rfl⟩ := Reader.keyed_eq_ok.mp h.read
  cases hpairs
  exact hne rfl

/-! Reading what has been set -/

theorem read_texts_of_strict {d : Document} {ss : List String} (h : strict.list strict.text d = .ok ss) :
    lenient.list lenient.text (laid d none) = .ok ss := by
  obtain ⟨ds, rfl, hds⟩ := Reader.list_eq_ok.mp h
  refine Reader.list_eq_ok.mpr ⟨ds, rfl, hds.imp fun d s hs => ?_⟩
  cases d with
  | text t => exact congrArg Except.ok (Except.ok.inj hs)
  | _ => exact nomatch hs

theorem read_optional_texts_of_strict {d : Document} {o : Option (List String)}
    (h : optional (strict.list strict.text) d = .ok o) : optional (lenient.list lenient.text) (laid d none) = .ok o := by
  obtain ⟨rfl, hnone⟩ | ⟨-, ss, hss, hsome⟩ := optional_eq_ok.mp h
  · exact optional_eq_ok.mpr (.inl ⟨rfl, hnone⟩)
  · have htexts := read_texts_of_strict hss
    refine optional_eq_ok.mpr (.inr ⟨fun hnull => ?_, ss, htexts, hsome⟩)
    rw [hnull] at htexts
    exact nomatch htexts

theorem read_lowered_keyed {taken : Document → Except Unit β} {read : Document → Except ConfigFault β} {alter : β → β}
    (hnodup : (es.map (·.1)).Nodup) (htaken : strict.keyed taken (.table es) = .ok m) (hdistinct : m.Distinguished)
    (hread : ∀ e ∈ es, ∀ b, (e.1, b) ∈ m.toList → taken e.2 = .ok b → read (laid e.2 none) = .ok (alter b)) :
    lenient.keyed read (setKeys (.table []) es) = .ok (m.lowered alter) := by
  obtain ⟨es, pairs, ⟨⟩, hpairs, rfl⟩ := Reader.keyed_eq_ok.mp htaken
  have hkeys := Reader.keys_of_forall₂ hpairs
  have hperm := Keyed.perm_toList_ofList (hkeys ▸ hnodup)
  have hlower : (es.map fun e => Text.lower e.1).Nodup := by
    have hmap := congrArg (List.map Text.lower) hkeys
    rw [List.map_map, List.map_map] at hmap
    exact hmap ▸ (hperm.map _).nodup_iff.mpr hdistinct
  rw [setKeys_eq_map [] (by simpa using hlower), List.nil_append]
  refine Reader.keyed_eq_ok.mpr ⟨_, pairs.map fun q => (Text.lower q.1, alter q.2), rfl, ?_, ?_⟩
  · rw [List.forall₂_map_left_iff, List.forall₂_map_right_iff]
    refine forall₂_of_mem hpairs fun e he q hq ⟨hkey, hvalue⟩ => ⟨congrArg Text.lower hkey, hread e he q.2 ?_ hvalue⟩
    rw [hkey]
    exact hperm.mem_iff.mp hq
  · refine Keyed.ofList_congr (hperm.map _) ?_
    rw [List.map_map]
    exact hdistinct

theorem plain_of_mem_fields {name : String} (h : name ∈ ServiceFilter.fields) : Plain name := by
  have hall : ∀ name ∈ ServiceFilter.fields, Plain name := by decide +kernel
  exact hall name h

theorem ServiceFilter.read_lowered {parts : List (String × Document)} {f : ServiceFilter} (hdistinct : Distinct (.table parts))
    (hparts : ∀ part ∈ parts, part.1 ∈ fields) (htaken : ServiceFilter.read strict (.table parts) = .ok f)
    (hmetadata : f.metadata.Distinguished) : ServiceFilter.read lenient (setKeys (.table []) parts) = .ok f.lowered := by
  obtain ⟨hnodup, hentries⟩ := hdistinct.of_table
  obtain ⟨gs, hgs⟩ := setKeys_isTable parts []
  have hget (name : String) : lookup? gs name = (lookup? parts name).map fun d => laid d none := by
    have hlookup := lookup?_setKeys (fun e he => plain_of_mem_fields (hparts e he)) hnodup (.table []) name
    rw [hgs] at hlookup
    rw [← entries_table gs, hlookup]
    cases lookup? parts name <;> rfl
  obtain ⟨get, hparts, hlocality, hmeta⟩ := ServiceFilter.read_eq_ok.mp htaken
  obtain rfl : entry parts = get := Except.ok.inj hparts
  rw [part_entry] at hlocality hmeta
  rw [hgs]
  refine ServiceFilter.read_eq_ok.mpr ⟨entry gs, rfl, ?_, ?_⟩
  · rw [part_entry, hget]
    cases hd : lookup? parts "locality" with
    | none =>
      rw [hd] at hlocality
      exact hlocality
    | some d =>
      rw [hd] at hlocality
      exact read_optional_texts_of_strict hlocality
  · rw [part_entry, hget]
    cases hd : lookup? parts "metadata" with
    | none =>
      rw [hd] at hmeta
      have hempty : f.metadata = ∅ := hmeta
      show f.metadata.lowered id = ∅
      rw [hempty]
      rfl
    | some d =>
      rw [hd] at hmeta
      obtain ⟨ms, -, rfl, -⟩ := Reader.keyed_eq_ok.mp hmeta
      have hms := (hentries _ (mem_of_lookup? hd)).of_table
      exact read_lowered_keyed hms.1 hmeta hmetadata fun _ _ _ _ => read_texts_of_strict

theorem Filter.Spelled.read_lowered (h : f.Spelled es) (hdistinct : Distinct (.table es)) (hf : f.Distinguished) :
    Filter.read lenient (setKeys (.table []) es) = .ok f.lowered := by
  obtain ⟨hnodup, hentries⟩ := hdistinct.of_table
  refine read_lowered_keyed hnodup h.read hf.services fun e he b hb htaken => ?_
  obtain ⟨parts, hparts, hfields⟩ := h.tables e he
  have hinner := hentries e he
  rw [hparts] at hinner htaken ⊢
  exact ServiceFilter.read_lowered hinner hfields htaken (hf.metadata _ hb)

/-! What is read of a tree with keys in lower case -/

theorem Filter.lowerCase_of_read (hes : Lowered (.table es)) (htables : ∀ e ∈ es, IsTable e.2)
    (h : Filter.read lenient (.table es) = .ok f) : f.LowerCase := by
  obtain ⟨hnodup, hlower, hentries⟩ := hes.entries
  refine ⟨fun e he => ?_, fun e he g hg => ?_⟩
  · obtain ⟨part, hpart, -⟩ := mem_of_read_keyed hnodup h he
    exact hlower _ hpart
  · obtain ⟨part, hpart, hread⟩ := mem_of_read_keyed hnodup h he
    obtain ⟨parts, hparts⟩ := htables _ hpart
    obtain rfl : part = .table parts := hparts
    obtain ⟨get, hget, -, hmetadata⟩ := ServiceFilter.read_eq_ok.mp hread
    obtain rfl : entry parts = get := Except.ok.inj hget
    rw [part_entry] at hmetadata
    cases hd : lookup? parts "metadata" with
    | none =>
      rw [hd] at hmetadata
      have hempty : e.2.metadata = ∅ := hmetadata
      rw [hempty] at hg
      exact nomatch hg
    | some d =>
      rw [hd] at hmetadata
      obtain ⟨ms, -, rfl, -⟩ := Reader.keyed_eq_ok.mp hmetadata
      obtain ⟨hnodup, hlower, -⟩ := ((hentries _ hpart).of_lookup? hd).entries
      obtain ⟨patterns, hpatterns, -⟩ := mem_of_read_keyed hnodup hmetadata hg
      exact hlower _ hpatterns

/-! Loading -/

namespace Configuration

variable {file : ConfigFile} {vars : List (String × String)} {before after : List (String × Document)} {c : Configuration}

/-- What the entries of a file and the variables make of the defaults. -/
def loadEntries (es : List (String × Document)) (vars : List (String × String)) : Except ConfigFault Configuration :=
  Configuration.read lenient (merge (.table ({} : Configuration).grown) (es ++ ofVariables vars))

theorem load_eq (file : ConfigFile) (vars : List (String × String)) :
    load (some file) vars = file.entries >>= fun es => loadEntries es vars := by
  have hdefault : ({} : Configuration).Kept := by decide
  rw [load, merged_eq, flatten_of_kept hdefault]
  refine congrArg (file.entries >>= ·) (funext fun es => ?_)
  rw [entries_table, merge_nil_of_tidy hdefault.grown.tidy, loadEntries, merge_append]

/-- A tree is read like one that differs in the filter only, but for the filter. -/
theorem read_of_sameBut {as bs : List (String × Document)} {d : Document} {g : Option Filter}
    (hsame : SameBut "filter" (.table as) (.table bs)) (hd : lookup? as "filter" = some d)
    (hc : Configuration.read lenient (.table bs) = .ok c) :
    Configuration.read lenient (.table as) = .ok { c with filter := g } ↔ optional (Filter.read lenient) d = .ok g := by
  have hpart {γ : Type} {name : String} {read : Document → Except ConfigFault γ} {default b : γ} (hname : name ≠ "filter") :
      lenient.part (entry as) name read (some default) = .ok b ↔ lenient.part (entry bs) name read (some default) = .ok b := by
    have hlookup : lookup? as name = lookup? bs name := hsame name hname
    rw [part_entry, part_entry, hlookup]
  have hfilter : lenient.part (entry as) "filter" (optional (Filter.read lenient)) (some none) = .ok g ↔
      optional (Filter.read lenient) d = .ok g := by
    rw [part_entry, hd]
    rfl
  obtain ⟨get, hget, hseeds, hclient, -⟩ := Configuration.read_eq_ok.mp hc
  obtain rfl : entry bs = get := Except.ok.inj hget
  rw [← hfilter, Configuration.read_eq_ok]
  constructor
  · rintro ⟨get, hget, -, -, hg⟩
    obtain rfl : entry as = get := Except.ok.inj hget
    exact hg
  · exact fun hg => ⟨entry as, rfl, (hpart (by decide)).mpr hseeds, (hpart (by decide)).mpr hclient, hg⟩

/-- What is loaded for the filter is what is read of the one entry, if no other says anything of it. -/
theorem load_filter_iff {gs : List (String × Document)} {g : Filter}
    (hfile : file.entries = .ok (before ++ ("filter", .table es) :: after)) (hset : setKeys .null es = .table gs)
    (hother : ∀ e ∈ before ++ after ++ ofVariables vars, heading e.1 ≠ "filter") (hrest : loadEntries (before ++ after) vars = .ok c) :
    load (some file) vars = .ok { c with filter := some g } ↔ Filter.read lenient (.table gs) = .ok g := by
  rw [List.append_assoc] at hother
  obtain ⟨hfilter, hsame⟩ := merge_around (d := .table es) (by decide +kernel) hother (.table ({} : Configuration).grown)
  have hlaid : laid (.table es) (lookup? (Document.table ({} : Configuration).grown).entries "filter") = .table gs := hset
  obtain ⟨as, has⟩ := isTable_merge ⟨({} : Configuration).grown, rfl⟩ (before ++ ("filter", .table es) :: (after ++ ofVariables vars))
  obtain ⟨bs, hbs⟩ := isTable_merge ⟨({} : Configuration).grown, rfl⟩ (before ++ (after ++ ofVariables vars))
  have hload : load (some file) vars = Configuration.read lenient (.table as) := by
    rw [load_eq, hfile, ← has, ← List.cons_append, ← List.append_assoc]
    rfl
  rw [loadEntries, List.append_assoc, hbs] at hrest
  rw [has, hbs] at hsame
  rw [has, hlaid] at hfilter
  rw [hload, read_of_sameBut hsame hfilter hrest, optional_eq_ok]
  simp [eq_comm]

/-- A file that spells a filter, and whose other entries, like the variables, say nothing of the filter, is loaded with this filter
exactly if all its service patterns and metadata keys are in lower case. If they stay distinct in lower case, it is loaded with
them in lower case. -/
theorem filter_from_file_iff (hfile : file.entries = .ok (before ++ ("filter", .table es) :: after)) (hspelled : f.Spelled es)
    (hne : f ≠ ∅) (hother : ∀ e ∈ before ++ after ++ ofVariables vars, heading e.1 ≠ "filter")
    (hrest : loadEntries (before ++ after) vars = .ok c) :
    (load (some file) vars = .ok { c with filter := some f } ↔ f.LowerCase) ∧
      (f.Distinguished → load (some file) vars = .ok { c with filter := some f.lowered }) := by
  have hdistinct : Distinct (.table es) := (distinct_of_entries hfile).of_table.2 ("filter", .table es) (by simp)
  obtain ⟨gs, hgs, htables⟩ : ∃ gs, setKeys (.table []) es = .table gs ∧ ∀ g ∈ gs, IsTable g.2 :=
    tables_setKeys nofun fun e he => let ⟨parts, hparts, _⟩ := hspelled.tables e he; ⟨parts, hparts⟩
  have hset : setKeys .null es = .table gs := (setKeys_null (hspelled.ne_nil hne)).trans hgs
  have hlowered (hf : f.Distinguished) : Filter.read lenient (.table gs) = .ok f.lowered :=
    hgs ▸ hspelled.read_lowered hdistinct hf
  rw [load_filter_iff hfile hset hother hrest, load_filter_iff hfile hset hother hrest]
  refine ⟨⟨fun h => ?_, fun h => ?_⟩, hlowered⟩
  · -- Also where keys become one: whatever is read of such a tree has its keys in lower case.
    exact Filter.lowerCase_of_read (hgs ▸ Lowered.setKeys lowered_nil es) htables h
  · have hread := hlowered h.distinguished
    rwa [h.lowered] at hread

/-- A pattern and a key that are no key paths. -/
def orderStatus : Filter :=
  .ofPairs [("order*", { locality := some ["eu-*"], metadata := Std.ExtTreeMap.ofList [("app.status", ["active"])] }), ("web", {})]

def orderStatusFile : ConfigFile := .present "fuddle.toml"
  "seeds = ['c:3']\n[filter.'order*']\nlocality = ['eu-*']\nmetadata.'app.status' = ['active']\n[filter.web]\n"

theorem orderStatus_loaded :
    let before := [("seeds", Document.ofTexts ["c:3"])]
    let es := [("order*", Document.table [("locality", .ofTexts ["eu-*"]),
      ("metadata", .table [("app.status", .ofTexts ["active"])])]), ("web", .table [])]
    orderStatusFile.entries = .ok (before ++ [("filter", .table es)]) ∧ orderStatus.Spelled es ∧ orderStatus ≠ ∅ ∧
      (∀ e ∈ before ++ [] ++ ofVariables [("HOME", "/root")], heading e.1 ≠ "filter") ∧
      load (some orderStatusFile) [("HOME", "/root")] = .ok { seeds := ["c:3"], filter := some orderStatus } := by
  intro before es
  have hfile : orderStatusFile.entries = .ok (before ++ [("filter", .table es)]) := rfl
  have hspelled : orderStatus.Spelled es := by
    refine ⟨?_, rfl⟩
    simp only [es, List.forall_mem_cons]
    exact ⟨⟨_, rfl, by decide⟩, ⟨_, rfl, nofun⟩, nofun⟩
  have hne : orderStatus ≠ ∅ := by decide +kernel
  have hother : ∀ e ∈ before ++ [] ++ ofVariables [("HOME", "/root")], heading e.1 ≠ "filter" := by
    refine List.forall_mem_singleton.mpr ?_
    decide +kernel
  have hrest : loadEntries (before ++ []) [("HOME", "/root")] = .ok { seeds := ["c:3"] } := by decide +kernel
  have hlower : orderStatus.LowerCase := by decide +kernel
  exact ⟨hfile, hspelled, hne, hother, (filter_from_file_iff hfile hspelled hne hother hrest).1.mpr hlower⟩

/-- A service with a capital. -/
def ordersFilter : Filter := .ofPairs [("Orders", { locality := some ["eu-*"] })]

def ordersFile : ConfigFile := .present "fuddle.toml" "[filter.Orders]\nlocality = ['eu-*']\n"

/-- It is loaded with a small letter, and the members of the service are no longer let through. -/
theorem orders_lost :
    let es := [("Orders", Document.table [("locality", .ofTexts ["eu-*"])])]
    let loaded := Filter.ofPairs [("orders", { locality := some ["eu-*"] })]
    let member : Member := { Member.new "m" "Orders" with locality := "eu-west-1" }
    ordersFile.entries = .ok [("filter", .table es)] ∧ ordersFilter.Spelled es ∧ ordersFilter ≠ ∅ ∧ ofVariables [] = [] ∧
      load (some ordersFile) [] = .ok { filter := some loaded } ∧ loaded ≠ ordersFilter ∧
      ordersFilter.accepts member = true ∧ loaded.accepts member = false := by
  intro es loaded member
  have hfile : ordersFile.entries = .ok [("filter", .table es)] := rfl
  have hspelled : ordersFilter.Spelled es := ⟨List.forall_mem_singleton.mpr ⟨_, rfl, by decide⟩, rfl⟩
  have hne : ordersFilter ≠ ∅ := by decide +kernel
  have hload : load (some ordersFile) [] = .ok { filter := some loaded } := by
    have hentries : loadEntries [("filter", .table es)] [] = .ok { filter := some loaded } := by decide +kernel
    rw [load_eq, hfile]
    exact hentries
  have hother : loaded ≠ ordersFilter := by decide +kernel
  have haccepts : ordersFilter.accepts member = true ∧ loaded.accepts member = false := by decide +kernel
  exact ⟨hfile, hspelled, hne, rfl, hload, hother, haccepts⟩

end Configuration

end Roster
