import Roster.Proofs.Keyed
import Roster.Proofs.Reader
import Roster.Proofs.Sources.Leaves
import Roster.Proofs.Sources.Merge
import Roster.Sources.Load

/-! Overriding a configuration with nothing. It is taken apart into key paths and read again, and comes back as it was if,
and only if, its whole numbers are signed words and its filter has only names and lists that a key path can lead to. -/
namespace Roster

open Document Sources

/-! What a source can carry -/

/-- A list a source can carry. -/
def Listable (ss : List String) : Prop := ss ≠ [] ∧ ss.length ≤ largest + 1

structure ServiceFilter.Kept (f : ServiceFilter) : Prop where
  locality : ∀ patterns ∈ f.locality, Listable patterns
  metadata : ∀ e ∈ f.metadata.toList, Plain e.1 ∧ Listable e.2

structure Filter.Kept (f : Filter) : Prop where
  nonempty : f ≠ ∅
  services : ∀ e ∈ f.toList, Plain e.1 ∧ e.2.Kept

def Backoff.words (b : Backoff) : List UInt64 := [b.maxRetries, b.timeoutMs, b.baseDelayMs, b.maxDelayMs]

def Settings.words (s : Settings) : List UInt64 :=
  [s.connectTimeoutMs, s.requestTimeoutMs, s.heartbeatIntervalMs, s.heartbeatTimeoutMs, s.closeTimeoutMs,
    s.healthCheckIntervalMs, s.tcpKeepaliveSecs, s.keepAliveIntervalSecs, s.keepAliveTimeoutSecs] ++ s.reconnect.words

structure Configuration.Kept (c : Configuration) : Prop where
  words : ∀ n ∈ c.client.words, (n.toNat : Int) ≤ largest
  seeds : c.seeds.length ≤ largest + 1
  filter : ∀ f ∈ c.filter, f.Kept

instance (ss : List String) : Decidable (Listable ss) := inferInstanceAs (Decidable (_ ∧ _))

instance (f : ServiceFilter) : Decidable f.Kept :=
  decidable_of_iff (_ ∧ _) ⟨fun h => ⟨h.1, h.2⟩, fun h => ⟨h.locality, h.metadata⟩⟩

instance (f : Filter) : Decidable f.Kept :=
  decidable_of_iff (_ ∧ _) ⟨fun h => ⟨h.1, h.2⟩, fun h => ⟨h.nonempty, h.services⟩⟩

instance (c : Configuration) : Decidable c.Kept :=
  decidable_of_iff (c.client.words.all (fun n => (n.toNat : Int) ≤ largest) = true ∧ _ ∧ _)
    ⟨fun h => ⟨by simpa using h.1, h.2.1, h.2.2⟩, fun h => ⟨by simpa using h.words, h.seeds, h.filter⟩⟩

/-! The tree its leaves make -/

def ServiceFilter.grown (f : ServiceFilter) : Document :=
  .table (("locality", f.locality.elim .null .ofTexts) ::
    if f.metadata.isEmpty then [] else [("metadata", f.metadata.toDocument)])

def Configuration.grown (c : Configuration) : List (String × Document) :=
  (if c.seeds = [] then [] else [("seeds", .ofTexts c.seeds)]) ++
    [("client", c.client.toDocument), ("filter", c.filter.elim .null (Document.ofKeyed ServiceFilter.grown))]

variable {β : Type}

theorem leavesOfEntries_map {f g : β → Document} {es : List (String × β)} (h : ∀ e ∈ es, ∀ s, (f e.2).leaves s = (g e.2).leaves s)
    (s : String) :
    leavesOfEntries s (es.map fun e => (e.1, f e.2)) = leavesOfEntries s (es.map fun e => (e.1, g e.2)) := by
  induction es with
  | nil => rfl
  | cons e es ih =>
    simp only [List.map_cons, leavesOfEntries, h e List.mem_cons_self]
    rw [ih fun f hf => h f (List.mem_cons_of_mem e hf)]

theorem ServiceFilter.leaves_grown (f : ServiceFilter) (s : String) : f.grown.leaves s = f.toDocument.leaves s := by
  unfold grown toDocument
  split
  · next hempty =>
    have hempty := Std.ExtTreeMap.isEmpty_iff.mp hempty
    have hnone (s : String) : (MetadataFilter.toDocument ∅).leaves s = [] := rfl
    simp [leaves, leavesOfEntries, hempty, hnone]
  · rfl

theorem Configuration.leaves_grown (c : Configuration) : leaves "" (.table c.grown) = c.toDocument.leaves "" := by
  have hfilter : ∀ s, (c.filter.elim .null (Document.ofKeyed ServiceFilter.grown)).leaves s =
      (c.filter.elim .null Filter.toDocument).leaves s := by
    intro s
    cases c.filter with
    | none => rfl
    | some f => exact leavesOfEntries_map (fun e _ s => ServiceFilter.leaves_grown e.2 s) s
  unfold grown toDocument
  split
  · next hempty =>
    simp [leaves, leavesOfEntries, hempty, hfilter, ofTexts, leavesOfItems]
  · simp [leaves, leavesOfEntries, hfilter]

theorem grown_ofTexts {ss : List String} (h : Listable ss) : Grown (.ofTexts ss) := by
  refine .list (by simpa using h.1) (by simpa using h.2) ?_
  intro d hd
  obtain ⟨s, -, rfl⟩ := List.mem_map.mp hd
  exact .leaf rfl nofun

theorem grown_ofKeyed {f : β → Document} {m : Keyed β} (hne : m ≠ ∅) (h : ∀ e ∈ m.toList, Plain e.1 ∧ Grown (f e.2)) :
    Grown (.ofKeyed f m) := by
  refine .table ?_ ?_ ?_ ?_
  · exact mt List.map_eq_nil_iff.mp (Keyed.toList_ne_nil hne)
  · rw [List.map_map]
    exact Keyed.nodup_toList m
  · exact List.forall_mem_map.mpr fun e he => (h e he).1
  · exact List.forall_mem_map.mpr fun e he => (h e he).2

theorem grown_of_names {es : List (String × Document)} (names : List String) (hnames : es.map (·.1) = names)
    (hsound : names ≠ [] ∧ names.Nodup ∧ ∀ name ∈ names, Plain name) (h : ∀ e ∈ es, Grown e.2) : Grown (.table es) := by
  subst hnames
  exact .table (mt List.map_eq_nil_iff.mpr hsound.1) hsound.2.1 (List.forall_mem_map.mp hsound.2.2) h

theorem ServiceFilter.Kept.grown {f : ServiceFilter} (h : f.Kept) : Grown f.grown := by
  have hlocality : Grown (f.locality.elim .null .ofTexts) := by
    cases hl : f.locality with
    | none => exact grown_null
    | some patterns => exact grown_ofTexts (h.locality patterns hl)
  unfold ServiceFilter.grown
  split
  · exact grown_of_names ["locality"] rfl (by decide +kernel) (List.forall_mem_singleton.mpr hlocality)
  · next hne =>
    have hmetadata : Grown f.metadata.toDocument :=
      grown_ofKeyed (mt Std.ExtTreeMap.isEmpty_iff.mpr hne) fun e he => ⟨(h.metadata e he).1, grown_ofTexts (h.metadata e he).2⟩
    exact grown_of_names ["locality", "metadata"] rfl (by decide +kernel) (by simp [hlocality, hmetadata])

theorem grown_ofWord {n : UInt64} (h : (n.toNat : Int) ≤ largest) : Grown (.ofWord n) :=
  .leaf rfl fun _ heq => Document.int.inj heq ▸ h

theorem Settings.grown_toDocument {s : Settings} (h : ∀ n ∈ s.words, (n.toNat : Int) ≤ largest) : Grown s.toDocument := by
  have hword : ∀ n ∈ s.words, Grown (.ofWord n) := fun n hn => grown_ofWord (h n hn)
  have hflag : Grown (.bool s.compression) := .leaf rfl nofun
  simp only [words, Backoff.words, List.cons_append, List.nil_append, List.forall_mem_cons] at hword
  have hreconnect : Grown s.reconnect.toDocument :=
    grown_of_names Backoff.fields rfl (by decide +kernel) (by simp [hword])
  exact grown_of_names Settings.fields rfl (by decide +kernel) (by simp [hword, hflag, hreconnect])

theorem Configuration.Kept.grown {c : Configuration} (h : c.Kept) : Grown (.table c.grown) := by
  have hclient : Grown c.client.toDocument := Settings.grown_toDocument h.words
  have hfilter : Grown (c.filter.elim .null (Document.ofKeyed ServiceFilter.grown)) := by
    cases hf : c.filter with
    | none => exact grown_null
    | some f =>
      have hkept := h.filter f hf
      exact grown_ofKeyed hkept.nonempty fun e he => ⟨(hkept.services e he).1, (hkept.services e he).2.grown⟩
  unfold Configuration.grown
  split
  · exact grown_of_names ["client", "filter"] rfl (by decide +kernel) (by simp [hclient, hfilter])
  · next hne =>
    have hseeds : Grown (.ofTexts c.seeds) := grown_ofTexts ⟨hne, h.seeds⟩
    exact grown_of_names Configuration.fields rfl (by decide +kernel) (by simp [hclient, hfilter, hseeds])

/-- A configuration that can be kept is, as a source, what it is as a tree. -/
theorem flatten_of_kept {c : Configuration} (h : c.Kept) : flatten c = .ok (.table c.grown) := by
  rw [flatten, ← c.leaves_grown]
  exact setLeaves_leaves h.grown.growing

/-! Reading it back -/

theorem read_ofTexts (ss : List String) : lenient.list lenient.text (.ofTexts ss) = .ok ss :=
  Reader.list_eq_ok.mpr ⟨ss.map .text, rfl, List.forall₂_map_left_iff.mpr (List.forall₂_same.mpr fun _ _ => rfl)⟩

theorem read_ofKeyed {read : Document → Except ConfigFault β} {f : β → Document} (h : ∀ b, read (f b) = .ok b) (m : Keyed β) :
    lenient.keyed read (.ofKeyed f m) = .ok m := by
  refine Reader.keyed_eq_ok.mpr ⟨_, m.toList, rfl, ?_, Keyed.ofList_of_perm (List.Perm.refl _)⟩
  exact List.forall₂_map_left_iff.mpr (List.forall₂_same.mpr fun e _ => ⟨rfl, h e.2⟩)

theorem ServiceFilter.read_grown (f : ServiceFilter) : ServiceFilter.read lenient f.grown = .ok f := by
  have hlocality : optional (lenient.list lenient.text) (f.locality.elim .null .ofTexts) = .ok f.locality := by
    cases f.locality with
    | none => rfl
    | some patterns => exact optional_eq_ok.mpr (.inr ⟨nofun, patterns, read_ofTexts patterns, rfl⟩)
  have hmetadata : MetadataFilter.read lenient f.metadata.toDocument = .ok f.metadata := read_ofKeyed read_ofTexts _
  unfold ServiceFilter.grown
  split
  · next hempty =>
    have hempty := Std.ExtTreeMap.isEmpty_iff.mp hempty
    simp [ServiceFilter.read_eq_ok, Reader.parts, Reader.part, lookup?_cons, lookup?_nil, mapError_eq_ok, hlocality, hempty]
  · simp [ServiceFilter.read_eq_ok, Reader.parts, Reader.part, lookup?_cons, mapError_eq_ok, hlocality, hmetadata]

theorem word_ofWord (n : UInt64) : lenient.word (.ofWord n) = .ok n := by
  simp [lenient, ofWord, word]

theorem flag_bool (b : Bool) : lenient.flag (.bool b) = .ok b := rfl

theorem Backoff.read_toDocument (b : Backoff) : Backoff.read lenient b.toDocument = .ok b := by
  simp [Backoff.read_eq_ok, toDocument, Reader.parts, Reader.part, lookup?_cons, mapError_eq_ok, word_ofWord]

theorem Settings.read_toDocument (s : Settings) : Settings.read lenient s.toDocument = .ok s := by
  have hreconnect := s.reconnect.read_toDocument
  simp [Settings.read_eq_ok, toDocument, Reader.parts, Reader.part, lookup?_cons, mapError_eq_ok, word_ofWord, flag_bool,
    hreconnect]

theorem Configuration.read_grown (c : Configuration) : Configuration.read lenient (.table c.grown) = .ok c := by
  have hclient := c.client.read_toDocument
  have hfilter : optional (Filter.read lenient) (c.filter.elim .null (Document.ofKeyed ServiceFilter.grown)) = .ok c.filter := by
    cases c.filter with
    | none => rfl
    | some f => exact optional_eq_ok.mpr (.inr ⟨nofun, f, read_ofKeyed ServiceFilter.read_grown f, rfl⟩)
  have hseeds := read_ofTexts c.seeds
  unfold grown
  split
  · next hempty =>
    simp [Configuration.read_eq_ok, Reader.parts, Reader.part, lookup?_cons, lookup?_nil, mapError_eq_ok, hclient, hfilter, hempty]
  · simp [Configuration.read_eq_ok, Reader.parts, Reader.part, lookup?_cons, mapError_eq_ok, hclient, hfilter, hseeds]

/-! What can be read of a tree that leaves have made -/

theorem grown_of_parts {d : Document} {label : String} {names : List String} {get : String → Option (Segment × Document)}
    (hd : Growing d) (hget : lenient.parts label names d = .ok get) {name : String} {s : Segment} {e : Document}
    (h : get name = some (s, e)) : Grown e := by
  cases d with
  | table es =>
    obtain rfl := Except.ok.inj hget
    obtain ⟨d, hd', heq⟩ := Option.map_eq_some_iff.mp h
    obtain ⟨-, rfl⟩ := Prod.mk.inj heq
    exact hd.entries _ (mem_of_lookup? hd')
  | list ds =>
    obtain rfl := Except.ok.inj hget
    obtain ⟨d, hd', heq⟩ := Option.map_eq_some_iff.mp h
    obtain ⟨-, rfl⟩ := Prod.mk.inj heq
    exact hd.items _ (List.mem_of_getElem? hd')
  | _ => exact nomatch hget

theorem listable_of_read {d : Document} {read : Document → Except ConfigFault String} {ss : List String} (hd : Grown d)
    (h : lenient.list read d = .ok ss) : Listable ss := by
  obtain ⟨ds, rfl, hss⟩ := Reader.list_eq_ok.mp h
  cases hd with
  | leaf hleaf _ => exact nomatch hleaf
  | list hne hlen _ =>
    rw [hss.length_eq] at hlen
    exact ⟨mt (fun hnil => List.forall₂_nil_right_iff.mp (hnil ▸ hss)) hne, hlen⟩

theorem mem_of_read_keyed {ε : Type} {r : Reader ε} {read : Document → Except ε β} {es : List (String × Document)} {m : Keyed β}
    (hnodup : (es.map (·.1)).Nodup) (h : r.keyed read (.table es) = .ok m) {e : String × β} (he : e ∈ m.toList) :
    ∃ part, (e.1, part) ∈ es ∧ read part = .ok e.2 := by
  obtain ⟨es, pairs, ⟨⟩, hpairs, rfl⟩ := Reader.keyed_eq_ok.mp h
  rw [Reader.keys_of_forall₂ hpairs] at hnodup
  obtain ⟨entry, hentry, hkey, hread⟩ := exists_of_forall₂ hpairs (Keyed.mem_of_mem_toList_ofList hnodup he)
  exact ⟨entry.2, hkey ▸ hentry, hread⟩

theorem of_read_keyed {d : Document} {read : Document → Except ConfigFault β} {m : Keyed β} (hd : Grown d)
    (h : lenient.keyed read d = .ok m) :
    m ≠ ∅ ∧ ∀ e ∈ m.toList, Plain e.1 ∧ ∃ part, Grown part ∧ read part = .ok e.2 := by
  obtain ⟨es, pairs, rfl, hpairs, hm⟩ := Reader.keyed_eq_ok.mp h
  cases hd with
  | leaf hleaf _ => exact nomatch hleaf
  | table hne hnodup hplain hgrown =>
    refine ⟨?_, fun e he => ?_⟩
    · rw [← hm, ne_eq, Std.ExtTreeMap.ofList_eq_empty_iff]
      exact mt (fun hnil => List.forall₂_nil_right_iff.mp (hnil ▸ hpairs)) hne
    · obtain ⟨part, hpart, hread⟩ := mem_of_read_keyed hnodup h he
      exact ⟨hplain _ hpart, part, hgrown _ hpart, hread⟩

theorem ServiceFilter.kept_of_read {d : Document} {f : ServiceFilter} (hd : Grown d)
    (h : ServiceFilter.read lenient d = .ok f) : f.Kept := by
  obtain ⟨get, hget, hlocality, hmetadata⟩ := ServiceFilter.read_eq_ok.mp h
  constructor
  · intro patterns hpatterns
    rw [hpatterns] at hlocality
    obtain ⟨_, part, hpart, hlist⟩ := Reader.exists_of_optional_part hlocality
    exact listable_of_read (grown_of_parts hd.growing hget hpart) hlist
  · intro e he
    obtain ⟨_, part, hpart, hread⟩ | ⟨-, hempty⟩ := Reader.part_eq_ok.mp hmetadata
    · obtain ⟨-, hentries⟩ := of_read_keyed (grown_of_parts hd.growing hget hpart) hread
      obtain ⟨hkey, patterns, hpatterns, hlist⟩ := hentries e he
      exact ⟨hkey, listable_of_read hpatterns hlist⟩
    · rw [← Option.some.inj hempty] at he
      exact nomatch he

theorem Filter.kept_of_read {d : Document} {f : Filter} (hd : Grown d) (h : Filter.read lenient d = .ok f) : f.Kept := by
  obtain ⟨hne, hentries⟩ := of_read_keyed hd h
  refine ⟨hne, fun e he => ?_⟩
  obtain ⟨hkey, part, hpart, hread⟩ := hentries e he
  exact ⟨hkey, ServiceFilter.kept_of_read hpart hread⟩

theorem exists_leaf {es : List (String × Document)} {key : String} {d leaf : Document} (h : (key, d) ∈ es)
    (hleaf : ∀ s, ∃ path, (path, leaf) ∈ d.leaves s) (s : String) : ∃ path, (path, leaf) ∈ (Document.table es).leaves s := by
  rw [leaves]
  induction es with
  | nil => exact nomatch h
  | cons e es ih =>
    rw [leavesOfEntries]
    obtain rfl | h := List.mem_cons.mp h
    · obtain ⟨path, hpath⟩ := hleaf _
      exact ⟨path, List.mem_append_left _ hpath⟩
    · obtain ⟨path, hpath⟩ := ih h
      exact ⟨path, List.mem_append_right _ hpath⟩

theorem exists_leaf_of_mem_words {s : Settings} {n : UInt64} (h : n ∈ s.words) (root : String) :
    ∃ path, (path, .ofWord n) ∈ s.toDocument.leaves root := by
  have hleaf (root : String) : ∃ path, (path, ofWord n) ∈ (ofWord n).leaves root := ⟨root, List.mem_singleton_self _⟩
  rw [Settings.words, List.mem_append] at h
  obtain h | h := h
  · obtain ⟨key, hkey⟩ : ∃ key, (key, ofWord n) ∈ s.toDocument.entries := by
      simp only [List.mem_cons, List.not_mem_nil, or_false] at h
      simp only [Settings.toDocument, entries_table, List.mem_cons, Prod.mk.injEq]
      grind
    exact exists_leaf hkey hleaf root
  · obtain ⟨key, hkey⟩ : ∃ key, (key, ofWord n) ∈ s.reconnect.toDocument.entries := by
      simp only [Backoff.words, List.mem_cons, List.not_mem_nil, or_false] at h
      simp only [Backoff.toDocument, entries_table, List.mem_cons, Prod.mk.injEq]
      grind
    have hreconnect : ("reconnect", s.reconnect.toDocument) ∈ s.toDocument.entries := by simp [Settings.toDocument]
    exact exists_leaf hreconnect (exists_leaf hkey hleaf) root

/-! Overriding with nothing -/

namespace Configuration

variable {c : Configuration} {file : ConfigFile} {vars : List (String × String)}

theorem merged_eq (c : Configuration) (file : Option ConfigFile) (vars : List (String × String)) :
    c.merged file vars = flatten c >>= fun root => file.elim (.ok []) ConfigFile.entries >>= fun es =>
      Configuration.read lenient (merge (merge (merge (.table []) root.entries) es) (ofVariables vars)) := by
  cases file <;> rfl

theorem withOverride_of_nothing (hfile : file.entries = .ok []) (hvars : ofVariables vars = []) :
    c.withOverride file vars = flatten c >>= fun root => Configuration.read lenient (merge (.table []) root.entries) := by
  rw [withOverride, merged_eq, Option.elim_some, hfile, hvars]
  rfl

theorem kept_of_read_flatten {root : Document} (hroot : flatten c = .ok root)
    (hread : Configuration.read lenient (merge (.table []) root.entries) = .ok c) : c.Kept := by
  obtain ⟨⟨es, rfl, hes⟩, hfit⟩ := of_setLeaves (fun leaf h => isLeaf_of_mem_leaves c.toDocument h) growing_nil hroot
  rw [entries_table, merge_nil_of_tidy hes.tidy] at hread
  obtain ⟨get, hget, hseeds, -, hfilter⟩ := Configuration.read_eq_ok.mp hread
  constructor
  · intro n hn
    have hclient : ("client", c.client.toDocument) ∈ c.toDocument.entries := by simp [toDocument]
    obtain ⟨path, hpath⟩ := exists_leaf hclient (exists_leaf_of_mem_words hn) ""
    exact hfit _ hpath _ rfl
  · obtain ⟨_, part, hpart, hlist⟩ | ⟨-, hempty⟩ := Reader.part_eq_ok.mp hseeds
    · exact (listable_of_read (grown_of_parts hes hget hpart) hlist).2
    · rw [← Option.some.inj hempty]
      exact length_nil_le
  · intro f hf
    rw [hf] at hfilter
    obtain ⟨_, part, hpart, hread⟩ := Reader.exists_of_optional_part hfilter
    exact Filter.kept_of_read (grown_of_parts hes hget hpart) hread

/-- A configuration overridden with nothing is as it was exactly if a source can carry it. -/
theorem withOverride_nothing_iff (hfile : file.entries = .ok []) (hvars : ofVariables vars = []) :
    c.withOverride file vars = .ok c ↔ c.Kept := by
  rw [withOverride_of_nothing hfile hvars]
  constructor
  · intro h
    obtain ⟨root, hroot, hread⟩ := bind_eq_ok.mp h
    exact kept_of_read_flatten hroot hread
  · intro h
    refine bind_eq_ok.mpr ⟨_, flatten_of_kept h, ?_⟩
    rw [entries_table, merge_nil_of_tidy h.grown.tidy]
    exact c.read_grown

/-- Everything a source can carry. -/
def ordersInEurope : Configuration where
  seeds := ["10.0.0.1:8220", "10.0.0.2:8220"]
  client := { compression := false, reconnect := { maxRetries := 3 } }
  filter := some (.ofPairs
    [("orders", { locality := some ["eu-*"], metadata := Std.ExtTreeMap.ofList [("status", ["active", "starting"])] })])

theorem ordersInEurope_overridden :
    (ConfigFile.present "fuddle.toml" "# as it is\n").entries = .ok [] ∧
    ofVariables [("HOME", "/root"), ("FUDDLE__CLIENT__ENABLE_COMPRESSION", "")] = [] ∧
    ordersInEurope.withOverride (.present "fuddle.toml" "# as it is\n")
      [("HOME", "/root"), ("FUDDLE__CLIENT__ENABLE_COMPRESSION", "")] = .ok ordersInEurope := by
  have hfile : (ConfigFile.present "fuddle.toml" "# as it is\n").entries = .ok [] := rfl
  have hvars : ofVariables [("HOME", "/root"), ("FUDDLE__CLIENT__ENABLE_COMPRESSION", "")] = [] := rfl
  have hkept : ordersInEurope.Kept := by decide +kernel
  exact ⟨hfile, hvars, (withOverride_nothing_iff hfile hvars).mpr hkept⟩

/-- The service is given by a pattern. -/
def orderPattern : Configuration where
  filter := some (.ofPairs
    [("order*", { locality := some ["eu-west-*"], metadata := Std.ExtTreeMap.ofList [("foo", ["bar", "car"])] })])

/-- A pattern with a wildcard is no key path. -/
theorem orderPattern_lost :
    (ConfigFile.present "fuddle.toml" "").entries = .ok [] ∧ ofVariables [] = [] ∧
    orderPattern.withOverride (.present "fuddle.toml" "") [] = .error .badPath := by
  have hfile : (ConfigFile.present "fuddle.toml" "").entries = .ok [] := rfl
  have hoverride : orderPattern.withOverride (.present "fuddle.toml" "") [] = .error .badPath := by decide +kernel
  exact ⟨hfile, rfl, hoverride⟩

end Configuration

end Roster
