import Mathlib.Data.List.Perm.Basic
import Roster.Proofs.Keyed
import Roster.Proofs.Reader
import Roster.Proofs.Serial.Shape

/-! Serialised forms are read back. Whatever fields a structure does not have are skipped, and what is missing of a structure that
has defaults takes its default, at every depth. -/
namespace Roster

open Document

/-- The form, and whatever extends it, is read as the value. -/
def Decodes {β : Type} (shape : Shape) (read : Document → Except Unit β) (form : Document) (value : β) : Prop :=
  ∀ d, Extends shape d form → read d = .ok value

section

variable {β : Type} {shape part : Shape} {fields : List (String × Shape)} {read : Document → Except Unit β} {form : Document}
  {value default : β} {es entries : List (String × Document)} {name : String} {gone : List String → Bool}

/-- Every form extends itself. -/
theorem Decodes.read_form (h : Decodes shape read form value) : read form = .ok value := h form (extends_refl shape form)

/-! Values without fields -/

theorem decodes_single (hform : ∀ fs, form ≠ .table fs) (h : read form = .ok value) : Decodes shape read form value := by
  intro d hd
  rw [hd.eq hform, h]

theorem decodes_word (n : UInt64) : Decodes shape strict.word (.ofWord n) n := by
  refine decodes_single (by simp [ofWord]) ?_
  have hlt : (n.toNat : Int) < UInt64.size := Int.ofNat_lt.mpr n.toNat_lt
  simp only [strict, ofWord]
  rw [if_pos ⟨Int.natCast_nonneg _, hlt⟩, Int.toNat_natCast, UInt64.ofNat_toNat]

theorem decodes_signed (n : Int64) : Decodes shape signed (.int n.toInt) n := by
  refine decodes_single (by simp) ?_
  simp only [signed]
  rw [if_pos ⟨n.minValue_le_toInt, n.toInt_le⟩, Int64.ofInt_toInt]

theorem decodes_flag (b : Bool) : Decodes shape strict.flag (.bool b) b := decodes_single (by simp) rfl

theorem decodes_text (s : String) : Decodes shape strict.text (.text s) s := decodes_single (by simp) rfl

theorem decodes_texts (ss : List String) : Decodes shape (strict.list strict.text) (.ofTexts ss) ss := by
  refine decodes_single (by simp [ofTexts]) (Reader.list_eq_ok.mpr ⟨ss.map .text, rfl, ?_⟩)
  exact List.forall₂_map_left_iff.mpr (List.forall₂_same.mpr fun _ _ => rfl)

theorem decodes_none : Decodes shape (optional read) .null none := decodes_single (by simp) rfl

theorem Decodes.optional (h : Decodes shape read form value) (hnull : ∀ b, read .null ≠ .ok b) :
    Decodes shape (optional read) form (some value) := by
  intro d hd
  have hread := h d hd
  refine optional_eq_ok.mpr (.inr ⟨?_, value, hread, rfl⟩)
  rintro rfl
  exact hnull value hread

/-! Maps -/

theorem decodes_map {γ : Type} {entry : Shape} {l : List (String × γ)} {forms : String × γ → Document} {m : Keyed β}
    (values : String × γ → β) (hm : m.toList = l.map fun e => (e.1, values e))
    (h : ∀ e ∈ l, Decodes entry read (forms e) (values e)) :
    Decodes (.map entry) (strict.keyed read) (.table (l.map fun e => (e.1, forms e))) m := by
  intro d hd
  obtain ⟨es, rfl, hes⟩ := hd.exists_table
  obtain ⟨gs, hperm, hgs⟩ := hes.exists_perm_map
  rw [List.forall₂_map_right_iff] at hgs
  have hread : List.Forall₂ (fun g e => g.1 = e.1 ∧ read g.2 = .ok e.2) gs m.toList := by
    rw [hm, List.forall₂_map_right_iff]
    exact forall₂_of_mem hgs fun g _ e he hge => ⟨hge.1, h e he g.2 hge.2⟩
  obtain ⟨pairs, hpairs, hm⟩ := List.perm_comp_forall₂ hperm hread
  exact Reader.keyed_eq_ok.mpr ⟨es, pairs, rfl, hpairs, Keyed.ofList_of_perm hm⟩

theorem decodes_ofKeyed {entry : Shape} {forms : β → Document} (h : ∀ b, Decodes entry read (forms b) b) (m : Keyed β) :
    Decodes (.map entry) (strict.keyed read) (.ofKeyed forms m) m :=
  decodes_map (fun e => e.2) (List.map_id _).symm fun e _ => h e.2

/-! Parts of structures -/

theorem part_of_extends (h : ExtendsEntries (.struct fields) es entries) (hnodup : (entries.map (·.1)).Nodup)
    (hpart : fields.lookup name = some part) (hform : lookup? entries name = some form) (hread : Decodes part read form value)
    (default : Option β) : strict.part (entry es) name read default = .ok value := by
  have hknown : (Shape.struct fields).isUnknown name = false := by simp [Shape.isUnknown, hpart]
  obtain ⟨-, hnone⟩ | ⟨d, e, hd, he, hext⟩ := h.lookup?_cases hnodup hknown
  · simp [hform] at hnone
  · obtain rfl : form = e := Option.some.inj (hform.symm.trans he)
    rw [Shape.part, hpart, Option.getD_some] at hext
    refine Reader.part_eq_ok.mpr (.inl ⟨.key name, d, ?_, hread d hext⟩)
    rw [entry, hd, Option.map_some]

/-- A part is read as it was written, or has its default if it is gone. -/
theorem part_of_deleted (h : ExtendsEntries (.struct fields) es (deleteEntries (.struct fields) gone entries))
    (hnodup : (entries.map (·.1)).Nodup) (hpart : fields.lookup name = some part) (hform : lookup? entries name = some form)
    (hread : Decodes part read (form.delete part fun path => gone (name :: path)) value) :
    strict.part (entry es) name read (some default) = .ok (if gone [name] then default else value) := by
  have hlookup := lookup?_deleteEntries (.struct fields) gone entries name
  simp only [Shape.isField, Shape.part, hpart, hform, Option.isSome_some, Bool.true_and, Option.getD_some,
    Option.map_some] at hlookup
  split
  · next hgone =>
    rw [if_pos hgone] at hlookup
    have hknown : (Shape.struct fields).isUnknown name = false := by simp [Shape.isUnknown, hpart]
    obtain ⟨hnone, -⟩ | ⟨d, e, -, he, -⟩ := h.lookup?_cases (nodup_deleteEntries hnodup) hknown
    · exact part_entry.mpr (by rw [hnone]; rfl)
    · simp [hlookup] at he
  · next hgone =>
    rw [if_neg hgone] at hlookup
    exact part_of_extends h (nodup_deleteEntries hnodup) hpart hlookup hread _

end

/-! The types -/

theorem Member.ofDocument_eq_ok {d : Document} {m : Member} : Member.ofDocument d = .ok m ↔
    ∃ get, strict.parts "struct Member" fields d = .ok get ∧
      strict.part get "id" strict.text none = .ok m.id ∧
      strict.part get "service" strict.text none = .ok m.service ∧
      strict.part get "locality" strict.text none = .ok m.locality ∧
      strict.part get "started" signed none = .ok m.started ∧
      strict.part get "revision" strict.text none = .ok m.revision ∧
      strict.part get "metadata" (strict.keyed strict.text) none = .ok m.metadata := by
  simp only [Member.ofDocument, bind_eq_ok]
  refine exists_congr fun get => and_congr_right fun _ => ⟨?_, ?_⟩
  · rintro ⟨_, h1, _, h2, _, h3, _, h4, _, h5, _, h6, h⟩
    obtain rfl := Except.ok.inj h
    exact ⟨h1, h2, h3, h4, h5, h6⟩
  · rintro ⟨h1, h2, h3, h4, h5, h6⟩
    exact ⟨_, h1, _, h2, _, h3, _, h4, _, h5, _, h6, rfl⟩

theorem Version.ofDocument_eq_ok {d : Document} {v : Version} : Version.ofDocument d = .ok v ↔
    ∃ get, strict.parts "struct Version" fields d = .ok get ∧
      strict.part get "owner_id" strict.text none = .ok v.ownerId ∧
      strict.part get "timestamp" strict.word none = .ok v.timestamp := by
  simp only [Version.ofDocument, bind_eq_ok]
  refine exists_congr fun get => and_congr_right fun _ => ⟨?_, ?_⟩
  · rintro ⟨_, h1, _, h2, h⟩
    obtain rfl := Except.ok.inj h
    exact ⟨h1, h2⟩
  · rintro ⟨h1, h2⟩
    exact ⟨_, h1, _, h2, rfl⟩

namespace Member

def shape : Shape :=
  .struct [("id", .plain), ("service", .plain), ("locality", .plain), ("started", .plain), ("revision", .plain),
    ("metadata", .map .plain)]

theorem decodes (m : Member) : Decodes shape ofDocument m.toDocument m := by
  intro d hd
  obtain ⟨es, rfl, hes⟩ := hd.exists_table
  have hnodup : fields.Nodup := by decide
  refine ofDocument_eq_ok.mpr ⟨entry es, rfl, ?_, ?_, ?_, ?_, ?_, ?_⟩
  case refine_4 => exact part_of_extends hes hnodup rfl rfl (decodes_signed _) _
  case refine_6 => exact part_of_extends hes hnodup rfl rfl (decodes_ofKeyed decodes_text _) _
  all_goals exact part_of_extends hes hnodup rfl rfl (decodes_text _) _

end Member

namespace Version

def shape : Shape := .struct [("owner_id", .plain), ("timestamp", .plain)]

theorem decodes (v : Version) : Decodes shape ofDocument v.toDocument v := by
  intro d hd
  obtain ⟨es, rfl, hes⟩ := hd.exists_table
  have hnodup : fields.Nodup := by decide
  refine ofDocument_eq_ok.mpr ⟨entry es, rfl, ?_, ?_⟩
  · exact part_of_extends hes hnodup rfl rfl (decodes_text _) _
  · exact part_of_extends hes hnodup rfl rfl (decodes_word _) _

end Version

namespace MetadataFilter

def shape : Shape := .map .plain

theorem decodes (f : MetadataFilter) : Decodes shape (MetadataFilter.read strict) f.toDocument f :=
  decodes_ofKeyed decodes_texts f

end MetadataFilter

namespace Backoff

def shape : Shape := .struct (fields.map (·, .plain))

/-- With its default in every field that is gone. -/
def resetAt (gone : List String → Bool) (b : Backoff) : Backoff where
  maxRetries := if gone ["max_retries"] then ({} : Backoff).maxRetries else b.maxRetries
  timeoutMs := if gone ["timeout_ms"] then ({} : Backoff).timeoutMs else b.timeoutMs
  baseDelayMs := if gone ["base_delay_ms"] then ({} : Backoff).baseDelayMs else b.baseDelayMs
  maxDelayMs := if gone ["max_delay_ms"] then ({} : Backoff).maxDelayMs else b.maxDelayMs

theorem decodes_deleted (b : Backoff) (gone : List String → Bool) :
    Decodes shape (Backoff.read strict) (b.toDocument.delete shape gone) (b.resetAt gone) := by
  intro d hd
  obtain ⟨es, rfl, hes⟩ := hd.exists_table
  have hnodup : fields.Nodup := by decide
  refine read_eq_ok.mpr ⟨entry es, rfl, ?_, ?_, ?_, ?_⟩
  all_goals exact part_of_deleted hes hnodup rfl rfl (decodes_word _)

end Backoff

namespace Settings

def shape : Shape := .struct (fields.map fun name => (name, if name = "reconnect" then Backoff.shape else .plain))

def resetAt (gone : List String → Bool) (s : Settings) : Settings where
  connectTimeoutMs := if gone ["connect_timeout_in_ms"] then ({} : Settings).connectTimeoutMs else s.connectTimeoutMs
  requestTimeoutMs := if gone ["request_timeout_in_ms"] then ({} : Settings).requestTimeoutMs else s.requestTimeoutMs
  heartbeatIntervalMs :=
    if gone ["heartbeat_interval_in_ms"] then ({} : Settings).heartbeatIntervalMs else s.heartbeatIntervalMs
  heartbeatTimeoutMs := if gone ["heartbeat_timeout_in_ms"] then ({} : Settings).heartbeatTimeoutMs else s.heartbeatTimeoutMs
  closeTimeoutMs := if gone ["close_timeout_in_ms"] then ({} : Settings).closeTimeoutMs else s.closeTimeoutMs
  healthCheckIntervalMs :=
    if gone ["health_check_interval_in_ms"] then ({} : Settings).healthCheckIntervalMs else s.healthCheckIntervalMs
  tcpKeepaliveSecs := if gone ["tcp_keepalive_in_secs"] then ({} : Settings).tcpKeepaliveSecs else s.tcpKeepaliveSecs
  keepAliveIntervalSecs :=
    if gone ["http2_keep_alive_interval_in_secs"] then ({} : Settings).keepAliveIntervalSecs else s.keepAliveIntervalSecs
  keepAliveTimeoutSecs :=
    if gone ["http2_keep_alive_timeout_in_secs"] then ({} : Settings).keepAliveTimeoutSecs else s.keepAliveTimeoutSecs
  compression := if gone ["enable_compression"] then ({} : Settings).compression else s.compression
  reconnect :=
    if gone ["reconnect"] then ({} : Settings).reconnect else s.reconnect.resetAt fun path => gone ("reconnect" :: path)

theorem decodes_deleted (s : Settings) (gone : List String → Bool) :
    Decodes shape (Settings.read strict) (s.toDocument.delete shape gone) (s.resetAt gone) := by
  intro d hd
  obtain ⟨es, rfl, hes⟩ := hd.exists_table
  have hnodup : fields.Nodup := by decide
  refine read_eq_ok.mpr ⟨entry es, rfl, ?_, ?_, ?_, ?_, ?_, ?_, ?_, ?_, ?_, ?_, ?_⟩
  case refine_10 => exact part_of_deleted hes hnodup rfl rfl (decodes_flag _)
  case refine_11 => exact part_of_deleted hes hnodup rfl rfl (s.reconnect.decodes_deleted _)
  all_goals exact part_of_deleted hes hnodup rfl rfl (decodes_word _)

end Settings

namespace ServiceFilter

def shape : Shape := .struct [("locality", .plain), ("metadata", MetadataFilter.shape)]

def resetAt (gone : List String → Bool) (f : ServiceFilter) : ServiceFilter where
  locality := if gone ["locality"] then ({} : ServiceFilter).locality else f.locality
  metadata := if gone ["metadata"] then ({} : ServiceFilter).metadata else f.metadata

theorem decodes_deleted (f : ServiceFilter) (gone : List String → Bool) :
    Decodes shape (ServiceFilter.read strict) (f.toDocument.delete shape gone) (f.resetAt gone) := by
  intro d hd
  obtain ⟨es, rfl, hes⟩ := hd.exists_table
  have hnodup : fields.Nodup := by decide
  refine read_eq_ok.mpr ⟨entry es, rfl, ?_, ?_⟩
  · refine part_of_deleted hes hnodup rfl rfl ?_
    cases f.locality with
    | none => exact decodes_none
    | some patterns => exact (decodes_texts patterns).optional (by simp [Reader.list])
  · refine part_of_deleted hes hnodup rfl rfl ?_
    have hsame : f.metadata.toDocument.delete MetadataFilter.shape (fun path => gone ("metadata" :: path)) =
        f.metadata.toDocument := delete_ofKeyed (fun _ _ => rfl) _ _
    rw [hsame]
    exact f.metadata.decodes

end ServiceFilter

namespace Filter

def shape : Shape := .map ServiceFilter.shape

def resetAt (gone : List String → Bool) (f : Filter) : Filter :=
  f.map fun service requirements => requirements.resetAt fun path => gone (service :: path)

theorem decodes_deleted (f : Filter) (gone : List String → Bool) :
    Decodes shape (Filter.read strict) (f.toDocument.delete shape gone) (f.resetAt gone) := by
  have hform : f.toDocument.delete shape gone = .table (f.toList.map fun e =>
      (e.1, e.2.toDocument.delete ServiceFilter.shape fun path => gone (e.1 :: path))) := by
    simp [toDocument, ofKeyed, delete, shape, deleteEntries_map]
  rw [hform]
  exact decodes_map _ Std.ExtTreeMap.toList_map fun e _ => e.2.decodes_deleted _

end Filter

namespace Configuration

def shape : Shape := .struct [("seeds", .plain), ("client", Settings.shape), ("filter", Filter.shape)]

def resetAt (gone : List String → Bool) (c : Configuration) : Configuration where
  seeds := if gone ["seeds"] then ({} : Configuration).seeds else c.seeds
  client := if gone ["client"] then ({} : Configuration).client else c.client.resetAt fun path => gone ("client" :: path)
  filter :=
    if gone ["filter"] then ({} : Configuration).filter else c.filter.map (Filter.resetAt fun path => gone ("filter" :: path))

theorem decodes_deleted (c : Configuration) (gone : List String → Bool) :
    Decodes shape (Configuration.read strict) (c.toDocument.delete shape gone) (c.resetAt gone) := by
  intro d hd
  obtain ⟨es, rfl, hes⟩ := hd.exists_table
  have hnodup : fields.Nodup := by decide
  refine read_eq_ok.mpr ⟨entry es, rfl, ?_, ?_, ?_⟩
  · exact part_of_deleted hes hnodup rfl rfl (decodes_texts _)
  · exact part_of_deleted hes hnodup rfl rfl (c.client.decodes_deleted _)
  · refine part_of_deleted hes hnodup rfl rfl ?_
    cases c.filter with
    | none => exact decodes_none
    | some f => exact (f.decodes_deleted _).optional (by simp [Filter.read, Reader.keyed])

end Configuration

/-! With nothing deleted -/

theorem Backoff.resetAt_none (b : Backoff) : b.resetAt (fun _ => false) = b := rfl

theorem Settings.resetAt_none (s : Settings) : s.resetAt (fun _ => false) = s := rfl

theorem ServiceFilter.resetAt_none (f : ServiceFilter) : f.resetAt (fun _ => false) = f := rfl

theorem Filter.resetAt_none (f : Filter) : f.resetAt (fun _ => false) = f := Std.ExtTreeMap.map_id

theorem Configuration.resetAt_none (c : Configuration) : c.resetAt (fun _ => false) = c := by
  have hfilter : c.filter.map (Filter.resetAt fun _ => false) = c.filter := by
    rw [funext Filter.resetAt_none]
    exact Option.map_id'
  simp [resetAt, Settings.resetAt_none, hfilter]

theorem decodes_of_deleted {β : Type} {shape : Shape} {read : Document → Except Unit β} {form : Document} {value : β}
    {resetAt : (List String → Bool) → β} (h : ∀ gone, Decodes shape read (form.delete shape gone) (resetAt gone))
    (hnone : resetAt (fun _ => false) = value) : Decodes shape read form value := by
  have hall := h fun _ => false
  rwa [delete_none, hnone] at hall

/-- Each value is read back from its form, with any fields added that its structures do not have, and with the entries of tables
in any order. Where structures have defaults any of their fields may be missing, at every depth, and just these have their
defaults then. -/
theorem forms_decode :
    (∀ m : Member, Decodes Member.shape Member.ofDocument m.toDocument m) ∧
    (∀ v : Version, Decodes Version.shape Version.ofDocument v.toDocument v) ∧
    (∀ f : MetadataFilter, Decodes MetadataFilter.shape (MetadataFilter.read strict) f.toDocument f) ∧
    (∀ f : ServiceFilter, Decodes ServiceFilter.shape (ServiceFilter.read strict) f.toDocument f ∧ ∀ gone,
      Decodes ServiceFilter.shape (ServiceFilter.read strict) (f.toDocument.delete ServiceFilter.shape gone) (f.resetAt gone)) ∧
    (∀ f : Filter, Decodes Filter.shape (Filter.read strict) f.toDocument f ∧ ∀ gone,
      Decodes Filter.shape (Filter.read strict) (f.toDocument.delete Filter.shape gone) (f.resetAt gone)) ∧
    (∀ b : Backoff, Decodes Backoff.shape (Backoff.read strict) b.toDocument b ∧ ∀ gone,
      Decodes Backoff.shape (Backoff.read strict) (b.toDocument.delete Backoff.shape gone) (b.resetAt gone)) ∧
    (∀ s : Settings, Decodes Settings.shape (Settings.read strict) s.toDocument s ∧ ∀ gone,
      Decodes Settings.shape (Settings.read strict) (s.toDocument.delete Settings.shape gone) (s.resetAt gone)) ∧
    ∀ c : Configuration, Decodes Configuration.shape (Configuration.read strict) c.toDocument c ∧ ∀ gone,
      Decodes Configuration.shape (Configuration.read strict) (c.toDocument.delete Configuration.shape gone)
        (c.resetAt gone) := by
  refine ⟨Member.decodes, Version.decodes, MetadataFilter.decodes, fun f => ⟨?_, f.decodes_deleted⟩,
    fun f => ⟨?_, f.decodes_deleted⟩, fun b => ⟨?_, b.decodes_deleted⟩, fun s => ⟨?_, s.decodes_deleted⟩,
    fun c => ⟨?_, c.decodes_deleted⟩⟩
  · exact decodes_of_deleted f.decodes_deleted f.resetAt_none
  · exact decodes_of_deleted f.decodes_deleted f.resetAt_none
  · exact decodes_of_deleted b.decodes_deleted b.resetAt_none
  · exact decodes_of_deleted s.decodes_deleted s.resetAt_none
  · exact decodes_of_deleted c.decodes_deleted c.resetAt_none

/-- Most fields are missing, among them one of the requirements inside the filter, and each table of a structure has a field that
the structure does not have. -/
theorem gaps_filled :
    let c : Configuration := {
      seeds := ["a:1"]
      client := { requestTimeoutMs := 5000, heartbeatIntervalMs := 7, reconnect := { baseDelayMs := 3, maxDelayMs := 9 } }
      filter := some (.ofPairs [("web", { locality := some ["eu-*"], metadata := Std.ExtTreeMap.ofList [("zone", ["1"])] })]) }
    let gone : List String → Bool := fun path => decide (path ∉
      [["client"], ["client", "request_timeout_in_ms"], ["client", "reconnect"], ["client", "reconnect", "max_delay_ms"],
        ["filter"], ["filter", "web", "metadata"]])
    let d : Document := .table [("note", .null),
      ("filter", .table [("web", .table [("owner", .text "x"), ("metadata", .table [("zone", .ofTexts ["1"])])])]),
      ("client", .table [("reconnect", .table [("max_delay_ms", .int 9), ("jitter", .int 1)]), ("proxy", .null),
        ("request_timeout_in_ms", .int 5000)])]
    Configuration.read strict c.toDocument = .ok c ∧ Extends Configuration.shape d (c.toDocument.delete Configuration.shape gone) ∧
      Configuration.read strict d = .ok {
        client := { requestTimeoutMs := 5000, reconnect := { maxDelayMs := 9 } }
        filter := some (.ofPairs [("web", { metadata := Std.ExtTreeMap.ofList [("zone", ["1"])] })]) } := by
  intro c gone d
  have hform : c.toDocument.delete Configuration.shape gone = .table [
      ("client", .table [("request_timeout_in_ms", .int 5000), ("reconnect", .table [("max_delay_ms", .int 9)])]),
      ("filter", .table [("web", .table [("metadata", .table [("zone", .ofTexts ["1"])])])])] := rfl
  have hvalue : c.resetAt gone = {
      client := { requestTimeoutMs := 5000, reconnect := { maxDelayMs := 9 } }
      filter := some (.ofPairs [("web", { metadata := Std.ExtTreeMap.ofList [("zone", ["1"])] })]) } := by decide +kernel
  have hext : Extends Configuration.shape d (c.toDocument.delete Configuration.shape gone) := by
    have hbackoff : Extends Backoff.shape (.table [("max_delay_ms", .int 9), ("jitter", .int 1)])
        (.table [("max_delay_ms", .int 9)]) :=
      ⟨_, _, .refl _, rfl, List.forall_mem_singleton.mpr rfl⟩
    have hclient : Extends Settings.shape
        (.table [("reconnect", .table [("max_delay_ms", .int 9), ("jitter", .int 1)]), ("proxy", .null),
          ("request_timeout_in_ms", .int 5000)])
        (.table [("request_timeout_in_ms", .int 5000), ("reconnect", .table [("max_delay_ms", .int 9)])]) :=
      ⟨_, _, @List.perm_append_comm _ [_, _] [_], rfl, _, _, .refl _, hbackoff, List.forall_mem_singleton.mpr rfl⟩
    have hfilter : Extends Filter.shape
        (.table [("web", .table [("owner", .text "x"), ("metadata", .table [("zone", .ofTexts ["1"])])])])
        (.table [("web", .table [("metadata", .table [("zone", .ofTexts ["1"])])])]) :=
      ⟨_, _, .refl _, ⟨_, _, .swap _ _ _, extends_refl _ _, List.forall_mem_singleton.mpr rfl⟩, List.forall_mem_nil _⟩
    rw [hform]
    exact ⟨_, _, @List.perm_append_comm _ [_, _] [_], hclient, _, _, .swap _ _ _, hfilter, List.forall_mem_singleton.mpr rfl⟩
  obtain ⟨-, -, -, -, -, -, -, hconfiguration⟩ := forms_decode
  exact ⟨(hconfiguration c).1.read_form, hext, hvalue ▸ (hconfiguration c).2 gone d hext⟩

end Roster
