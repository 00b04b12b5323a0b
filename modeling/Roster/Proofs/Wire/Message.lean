import Roster.Link
import Roster.Proofs.Keyed
import Roster.Proofs.Wire.Field

/-! Messages are read back from the bytes they were written to, with the entries of their maps in any order. So nothing
of a request is lost on its way to the registry, and nothing of an update on its way back. -/
namespace Roster.Wire

/-! Ways to write a message -/

def entryField {β : Type} (number : Nat) (value : β → List Field) (e : String × β) : Field :=
  nested number (textField 1 e.1 ++ value e.2)

/-- A map is written as its entries, in any order. -/
def MapSpelled {β : Type} (number : Nat) (value : β → List Field) (m : Keyed β) (fs : List Field) : Prop :=
  ∃ es : List (String × β), es.Perm m.toList ∧ fs = es.map (entryField number value)

theorem mapSpelled {β : Type} (number : Nat) (value : β → List Field) (m : Keyed β) :
    MapSpelled number value m (mapFields number value m) := ⟨m.toList, .rfl, rfl⟩

namespace Registration

/-- All but the metadata. -/
def head (r : Registration) : List Field :=
  textField 1 r.member.id ++ textField 2 r.clientId ++ textField 3 r.member.service ++
    textField 4 r.member.locality ++ wordField 5 r.member.started.toUInt64.toNat ++ textField 6 r.member.revision

def Spelled (r : Registration) (fs : List Field) : Prop :=
  ∃ ms, MapSpelled 7 (textField 2) r.member.metadata ms ∧ fs = r.head ++ ms

theorem spelled (r : Registration) : r.Spelled r.fields := ⟨_, mapSpelled _ _ _, rfl⟩

/-- A registration within a message, or its absence. -/
inductive SpelledWithin (number : Nat) : Option Registration → List Field → Prop
  | absent : SpelledWithin number none []
  | present {r : Registration} {fs : List Field} : r.Spelled fs → SpelledWithin number (some r) [nested number fs]

theorem spelledWithin (number : Nat) (r : Option Registration) :
    SpelledWithin number r (r.map fun r => nested number r.fields).toList := by
  cases r with
  | none => exact .absent
  | some r => exact .present r.spelled

end Registration

inductive Message.Spelled : Message → List Field → Prop
  | register {r : Option Registration} {fs : List Field} : Registration.SpelledWithin 1 r fs → Spelled (.register r) fs
  | unregister (clientId id : String) : Spelled (.unregister clientId id) (textField 1 clientId ++ textField 2 id)
  | updateMetadata (clientId id : String) {metadata : Keyed String} {ms : List Field} :
    MapSpelled 3 (textField 2) metadata ms →
      Spelled (.updateMetadata clientId id metadata) (textField 1 clientId ++ textField 2 id ++ ms)
  | heartbeat (clientId : String) : Spelled (.heartbeat clientId) (textField 1 clientId)
  | subscribe (clientId : String) {known : Keyed Version} {ms : List Field} :
    MapSpelled 2 versionEntry known ms → Spelled (.subscribe clientId known) (textField 1 clientId ++ ms)

def UpdateMessage.Spelled (u : UpdateMessage) (fs : List Field) : Prop :=
  ∃ ms, Registration.SpelledWithin 3 u.member ms ∧
    fs = textField 1 u.id ++ wordField 2 u.kind.toInt64.toUInt64.toNat ++ ms ++
      (u.version.map fun v => nested 4 (versionFields v)).toList

theorem Message.spelled (m : Message) : m.Spelled m.fields := by
  cases m with
  | register r => exact .register (Registration.spelledWithin 1 r)
  | unregister clientId id => exact .unregister clientId id
  | updateMetadata clientId id metadata => exact .updateMetadata clientId id (mapSpelled _ _ _)
  | heartbeat clientId => exact .heartbeat clientId
  | subscribe clientId known => exact .subscribe clientId (mapSpelled _ _ _)

theorem UpdateMessage.spelled (u : UpdateMessage) : u.Spelled u.fields :=
  ⟨_, Registration.spelledWithin 3 u.member, rfl⟩

/-! What is written can be read -/

/-- A number of 64 bits, a text or a message, under a small number. -/
def Field.Sound (f : Field) : Prop :=
  0 < f.number ∧ f.number < 16 ∧ match f.payload with
    | .varint n => n < UInt64.size
    | .block _ => True
    | .fixed64 _ | .group | .fixed32 _ => False

/-- Fields that can be read again, unless they are longer than any memory. -/
def Sound (fs : List Field) : Prop := ∀ f ∈ fs, f.Sound

variable {fs gs ms : List Field} {number room : Nat}

theorem Sound.append (hf : Sound fs) (hg : Sound gs) : Sound (fs ++ gs) :=
  List.forall_mem_append.mpr ⟨hf, hg⟩

theorem sound_nested (hpos : 0 < number) (hlt : number < 16) (fs : List Field) : Sound [nested number fs] :=
  List.forall_mem_singleton.mpr ⟨hpos, hlt, trivial⟩

theorem sound_textField (hpos : 0 < number) (hlt : number < 16) (s : String) : Sound (textField number s) := by
  unfold textField
  split
  · exact nofun
  · exact List.forall_mem_singleton.mpr ⟨hpos, hlt, trivial⟩

theorem sound_wordField (hpos : 0 < number) (hlt : number < 16) (n : UInt64) : Sound (wordField number n.toNat) := by
  unfold wordField
  split
  · exact nofun
  · exact List.forall_mem_singleton.mpr ⟨hpos, hlt, n.toNat_lt⟩

theorem MapSpelled.sound {β : Type} {value : β → List Field} {m : Keyed β} (h : MapSpelled number value m ms)
    (hpos : 0 < number) (hlt : number < 16) : Sound ms := by
  obtain ⟨es, -, rfl⟩ := h
  exact List.forall_mem_map.mpr fun e _ => ⟨hpos, hlt, trivial⟩

theorem fields?_of_sound (h : Sound fs) (hlen : (encodeFields fs).length < UInt64.size) :
    fields? room (encodeFields fs) = some fs := by
  refine fields?_encodeFields fun f hf => ?_
  obtain ⟨hpos, hlt, hpayload⟩ := h f hf
  refine ⟨hpos, Nat.lt_trans (by omega) (show 128 < UInt32.size by decide), ?_⟩
  obtain ⟨number, payload⟩ := f
  cases payload with
  | block bytes => exact Nat.lt_trans (length_block_lt hf) hlen
  | _ => exact hpayload

/-- A message within a message is merged field by field. -/
theorem merge?_nested {α : Type} {merge : α → Field → Option α} (room : Nat) (h : Sound fs) (hmem : nested number fs ∈ gs)
    (hlen : (encodeFields gs).length < UInt64.size) (a : α) :
    (nested number fs).payload.merge? room merge a = fs.foldlM merge a := by
  have hread : fields? room (encodeFields fs) = some fs := fields?_of_sound h (Nat.lt_trans (length_block_lt hmem) hlen)
  show (fields? room (encodeFields fs)).bind (fun fs => fs.foldlM merge a) = _
  rw [hread]
  rfl

theorem text?_textBytes (s : String) : (Payload.block (textBytes s)).text? = some s := by
  show String.fromUTF8? s.toUTF8 = some s
  rw [String.fromUTF8?, String.toUTF8_eq_toByteArray, dif_pos s.isValidUTF8]
  rfl

/-! Reading what is written -/

section

variable {σ : Type} {merge : σ → Field → Option σ} {a b c : σ}

theorem foldlM_append_of (hf : fs.foldlM merge a = some b) (hg : gs.foldlM merge b = some c) :
    (fs ++ gs).foldlM merge a = some c := by
  rw [List.foldlM_append, hf]
  exact hg

/-- A text that is left out stands there already. -/
theorem foldlM_textField {s : String} (put : String → σ)
    (hread : merge a ⟨number, .block (textBytes s)⟩ = (Payload.block (textBytes s)).text?.map put)
    (hleft : s = "" → put s = a) : (textField number s).foldlM merge a = some (put s) := by
  unfold textField
  split
  · next h => rw [hleft (String.isEmpty_iff.mp h)]; rfl
  · rw [List.foldlM_cons, hread, text?_textBytes]; rfl

theorem foldlM_wordField {n : Nat} (hread : merge a ⟨number, .varint n⟩ = some b) (hleft : n = 0 → b = a) :
    (wordField number n).foldlM merge a = some b := by
  unfold wordField
  split
  · next h => rw [hleft h]; rfl
  · rw [List.foldlM_cons, hread]; rfl

variable {β : Type} {value : β → List Field} {m : Keyed β}

/-- A map is made up entry by entry; `put` is where it stands in what is read. -/
theorem foldlM_entries {put : Keyed β → σ} {es : List (String × β)}
    (hread : ∀ e ∈ es, ∀ t, merge (put t) (entryField number value e) = some (put (t.insert e.1 e.2))) (t : Keyed β) :
    (es.map (entryField number value)).foldlM merge (put t) = some (put (t.insertMany es)) := by
  induction es generalizing t with
  | nil => exact congrArg (some ∘ put) Std.ExtTreeMap.insertMany_nil.symm
  | cons e es ih =>
    rw [List.map_cons, List.foldlM_cons, hread e List.mem_cons_self, Std.ExtTreeMap.insertMany_cons]
    exact ih (fun f hf => hread f (List.mem_cons_of_mem e hf)) _

theorem MapSpelled.foldlM (h : MapSpelled number value m ms) (put : Keyed β → σ)
    (hread : ∀ e, entryField number value e ∈ ms → ∀ t,
      merge (put t) (entryField number value e) = some (put (t.insert e.1 e.2))) :
    ms.foldlM merge (put ∅) = some (put m) := by
  obtain ⟨es, hes, rfl⟩ := h
  rw [foldlM_entries fun e he => hread e (List.mem_map_of_mem he), ← Std.ExtTreeMap.ofList_eq_insertMany_empty,
    Keyed.ofList_of_perm hes]

/-- An entry is read as a message of a key and a value. -/
def mergeEntry (read : β → Payload → Option β) (e : String × β) (f : Field) : Option (String × β) :=
  match f.number with
  | 1 => f.payload.text?.map fun k => (k, e.2)
  | 2 => (read e.2 f.payload).map fun v => (e.1, v)
  | _ => some e

theorem mergePair?_entryField {default : β} {read : β → Payload → Option β} {e : String × β}
    (hmem : entryField number value e ∈ fs) (hlen : (encodeFields fs).length < UInt64.size) (hsound : Sound (value e.2))
    (hvalue : (value e.2).foldlM (mergeEntry read) (e.1, default) = some e) (t : Keyed β) :
    mergePair? room default read t (entryField number value e).payload = some (t.insert e.1 e.2) := by
  have hkey : (textField 1 e.1).foldlM (mergeEntry read) ("", default) = some (e.1, default) :=
    foldlM_textField (fun k => (k, default)) rfl fun h => by rw [h]
  have hentry : (textField 1 e.1 ++ value e.2).foldlM (mergeEntry read) ("", default) = some e :=
    foldlM_append_of hkey hvalue
  have hmerge := (merge?_nested room ((sound_textField (by omega) (by omega) e.1).append hsound) hmem hlen
    ("", default)).trans hentry
  show ((entryField number value e).payload.merge? room (mergeEntry read) ("", default)).bind
    (fun e => some (t.insert e.1 e.2)) = _
  rw [entryField, hmerge]
  rfl

end

/-! The messages -/

theorem mergePair?_text {e : String × String} (hmem : entryField number (textField 2) e ∈ fs)
    (hlen : (encodeFields fs).length < UInt64.size) (t : Keyed String) :
    mergePair? room "" (fun _ p => p.text?) t (entryField number (textField 2) e).payload = some (t.insert e.1 e.2) :=
  mergePair?_entryField hmem hlen (sound_textField (by omega) (by omega) e.2)
    (foldlM_textField (fun v => (e.1, v)) rfl fun h => by rw [h]) t

theorem sound_versionFields (v : Version) : Sound (versionFields v) :=
  (sound_textField (by omega) (by omega) _).append (sound_wordField (by omega) (by omega) _)

theorem foldlM_versionFields (v : Version) : (versionFields v).foldlM mergeVersion noVersion = some v := by
  have howner : (textField 1 v.ownerId).foldlM mergeVersion noVersion = some ⟨v.ownerId, 0⟩ :=
    foldlM_textField (fun s => Version.mk s 0) rfl fun h => by rw [h]; rfl
  have hword : mergeVersion ⟨v.ownerId, 0⟩ ⟨2, .varint v.timestamp.toNat⟩ = some v := by
    show some (Version.mk v.ownerId (UInt64.ofNat v.timestamp.toNat)) = some v
    rw [UInt64.ofNat_toNat]
  refine foldlM_append_of howner (foldlM_wordField hword fun h => ?_)
  have hzero : v.timestamp = 0 := UInt64.toNat_inj.mp h
  rw [← hzero]

theorem mergePair?_version {e : String × Version} (hmem : entryField number versionEntry e ∈ fs)
    (hlen : (encodeFields fs).length < UInt64.size) (t : Keyed Version) :
    mergePair? room noVersion (fun v p => p.merge? (room - 1) mergeVersion v) t (entryField number versionEntry e).payload =
      some (t.insert e.1 e.2) := by
  have hlen' := Nat.lt_trans (length_block_lt hmem) hlen
  obtain ⟨key, v⟩ := e
  by_cases hv : v = noVersion
  · have hentry : versionEntry v = [] := if_pos hv
    refine mergePair?_entryField hmem hlen ?_ ?_ t
    · rw [hentry]
      exact nofun
    · rw [hentry, hv]
      rfl
  · have hentry : versionEntry v = [nested 2 (versionFields v)] := if_neg hv
    rw [hentry] at hlen'
    have hversion : (nested 2 (versionFields v)).payload.merge? (room - 1) mergeVersion noVersion = some v :=
      (merge?_nested _ (sound_versionFields v) (List.mem_append_right _ List.mem_cons_self) hlen' noVersion).trans
        (foldlM_versionFields v)
    refine mergePair?_entryField hmem hlen ?_ ?_ t
    · rw [hentry]
      exact sound_nested (by omega) (by omega) _
    · rw [hentry]
      exact congrArg (fun v => (v.map fun v => (key, v)).bind pure) hversion

namespace Registration

variable {r : Registration}

theorem sound_head (r : Registration) : Sound r.head := by
  repeat' apply Sound.append
  · exact sound_textField (by omega) (by omega) _
  · exact sound_textField (by omega) (by omega) _
  · exact sound_textField (by omega) (by omega) _
  · exact sound_textField (by omega) (by omega) _
  · exact sound_wordField (by omega) (by omega) _
  · exact sound_textField (by omega) (by omega) _

theorem foldlM_head (r : Registration) :
    r.head.foldlM (merge room) {} = some { r with member := { r.member with metadata := ∅ } } := by
  obtain ⟨clientId, ⟨id, service, locality, started, revision, metadata⟩⟩ := r
  have hid : (textField 1 id).foldlM (merge room) {} = some ⟨"", ⟨id, "", "", 0, "", ∅⟩⟩ :=
    foldlM_textField (fun s => Registration.mk "" ⟨s, "", "", 0, "", ∅⟩) rfl fun h => by rw [h]; rfl
  have hclient : (textField 2 clientId).foldlM (merge room) ⟨"", ⟨id, "", "", 0, "", ∅⟩⟩ =
      some ⟨clientId, ⟨id, "", "", 0, "", ∅⟩⟩ :=
    foldlM_textField (fun s => Registration.mk s ⟨id, "", "", 0, "", ∅⟩) rfl fun h => by rw [h]
  have hservice : (textField 3 service).foldlM (merge room) ⟨clientId, ⟨id, "", "", 0, "", ∅⟩⟩ =
      some ⟨clientId, ⟨id, service, "", 0, "", ∅⟩⟩ :=
    foldlM_textField (fun s => Registration.mk clientId ⟨id, s, "", 0, "", ∅⟩) rfl fun h => by rw [h]
  have hlocality : (textField 4 locality).foldlM (merge room) ⟨clientId, ⟨id, service, "", 0, "", ∅⟩⟩ =
      some ⟨clientId, ⟨id, service, locality, 0, "", ∅⟩⟩ :=
    foldlM_textField (fun s => Registration.mk clientId ⟨id, service, s, 0, "", ∅⟩) rfl fun h => by rw [h]
  have hword : (UInt64.ofNat started.toUInt64.toNat).toInt64 = started := by
    rw [UInt64.ofNat_toNat, Int64.toInt64_toUInt64]
  have hstarted : (wordField 5 started.toUInt64.toNat).foldlM (merge room) ⟨clientId, ⟨id, service, locality, 0, "", ∅⟩⟩ =
      some ⟨clientId, ⟨id, service, locality, started, "", ∅⟩⟩ := by
    refine foldlM_wordField ?_ fun h => ?_
    · show some (Registration.mk clientId ⟨id, service, locality, (UInt64.ofNat started.toUInt64.toNat).toInt64, "", ∅⟩) = _
      rw [hword]
    · rw [← hword, h]
      rfl
  have hrevision : (textField 6 revision).foldlM (merge room) ⟨clientId, ⟨id, service, locality, started, "", ∅⟩⟩ =
      some ⟨clientId, ⟨id, service, locality, started, revision, ∅⟩⟩ :=
    foldlM_textField (fun s => Registration.mk clientId ⟨id, service, locality, started, s, ∅⟩) rfl fun h => by rw [h]
  exact foldlM_append_of (foldlM_append_of (foldlM_append_of (foldlM_append_of (foldlM_append_of hid hclient) hservice)
    hlocality) hstarted) hrevision

theorem Spelled.sound (h : r.Spelled fs) : Sound fs := by
  obtain ⟨ms, hms, rfl⟩ := h
  exact r.sound_head.append (hms.sound (by omega) (by omega))

theorem Spelled.foldlM (h : r.Spelled fs) (hlen : (encodeFields fs).length < UInt64.size) :
    fs.foldlM (merge room) {} = some r := by
  obtain ⟨ms, hms, rfl⟩ := h
  refine foldlM_append_of r.foldlM_head (hms.foldlM (fun t => { r with member := { r.member with metadata := t } }) ?_)
  intro e he t
  exact congrArg (Option.map _) (mergePair?_text (List.mem_append_right _ he) hlen t)

theorem SpelledWithin.sound {r : Option Registration} (h : SpelledWithin number r fs) (hpos : 0 < number)
    (hlt : number < 16) : Sound fs := by
  cases h with
  | absent => exact nofun
  | present _ => exact sound_nested hpos hlt _

theorem SpelledWithin.foldlM {σ : Type} {outer : σ → Field → Option σ} {r : Option Registration} (room : Nat)
    (h : SpelledWithin number r fs) (hsub : fs ⊆ gs) (hlen : (encodeFields gs).length < UInt64.size)
    (put : Option Registration → σ)
    (hread : ∀ f : Field, f.number = number →
      outer (put none) f = (f.payload.merge? room (merge room) {}).map (put ∘ some)) :
    fs.foldlM outer (put none) = some (put r) := by
  cases h with
  | absent => rfl
  | @present r rs hr =>
    have hmem : nested number rs ∈ gs := hsub List.mem_cons_self
    have hmerge : (nested number rs).payload.merge? room (merge room) {} = some r :=
      (merge?_nested _ hr.sound hmem hlen ({} : Registration)).trans (hr.foldlM (Nat.lt_trans (length_block_lt hmem) hlen))
    rw [List.foldlM_cons, hread _ rfl, hmerge]
    rfl

end Registration

namespace Message

variable {m : Message}

theorem Spelled.sound (h : m.Spelled fs) : Sound fs := by
  cases h with
  | register hr => exact hr.sound (by omega) (by omega)
  | unregister clientId id => exact (sound_textField (by omega) (by omega) _).append (sound_textField (by omega) (by omega) _)
  | updateMetadata clientId id hms =>
    exact ((sound_textField (by omega) (by omega) _).append (sound_textField (by omega) (by omega) _)).append
      (hms.sound (by omega) (by omega))
  | heartbeat clientId => exact sound_textField (by omega) (by omega) _
  | subscribe clientId hms => exact (sound_textField (by omega) (by omega) _).append (hms.sound (by omega) (by omega))

theorem Spelled.foldlM (h : m.Spelled fs) (hlen : (encodeFields fs).length < UInt64.size) :
    fs.foldlM (merge depthLimit) (blank m.method) = some m := by
  cases h with
  | register hr =>
    refine hr.foldlM (depthLimit - 1) (List.Subset.refl _) hlen Message.register fun f hf => ?_
    obtain ⟨number, payload⟩ := f
    obtain rfl : number = 1 := hf
    rfl
  | unregister clientId id =>
    exact foldlM_append_of (foldlM_textField (Message.unregister · "") rfl fun h => by rw [h]; rfl)
      (foldlM_textField (Message.unregister clientId) rfl fun h => by rw [h])
  | updateMetadata clientId id hms =>
    refine foldlM_append_of (foldlM_append_of (foldlM_textField (Message.updateMetadata · "" ∅) rfl fun h => by rw [h]; rfl)
      (foldlM_textField (Message.updateMetadata clientId · ∅) rfl fun h => by rw [h]))
      (hms.foldlM (Message.updateMetadata clientId id) ?_)
    intro e he t
    exact congrArg (Option.map _) (mergePair?_text (List.mem_append_right _ he) hlen t)
  | heartbeat clientId => exact foldlM_textField Message.heartbeat rfl fun h => by rw [h]; rfl
  | subscribe clientId hms =>
    refine foldlM_append_of (foldlM_textField (Message.subscribe · ∅) rfl fun h => by rw [h]; rfl)
      (hms.foldlM (Message.subscribe clientId) ?_)
    intro e he t
    exact congrArg (Option.map _) (mergePair?_version (List.mem_append_right _ he) hlen t)

theorem Spelled.decode? (h : m.Spelled fs) (hlen : (encodeFields fs).length < UInt64.size) :
    decode? m.method (encodeFields fs) = some m := by
  show (fields? depthLimit (encodeFields fs)).bind (fun fs => fs.foldlM (merge depthLimit) (blank m.method)) = _
  rw [fields?_of_sound h.sound hlen]
  exact h.foldlM hlen

end Message

namespace UpdateMessage

variable {u : UpdateMessage}

theorem sound_version (v : Option Version) : Sound (v.map fun v => nested 4 (versionFields v)).toList := by
  cases v with
  | none => exact nofun
  | some v => exact sound_nested (by omega) (by omega) _

/-- A number of 32 bits travels as one of 64 bits with its sign, and is cut back. -/
theorem ofNat_signExtended (kind : Int32) : (UInt32.ofNat kind.toInt64.toUInt64.toNat).toInt32 = kind := by
  apply Int32.toBitVec_inj.mp
  show BitVec.ofNat 32 kind.toInt64.toBitVec.toNat = kind.toBitVec
  rw [BitVec.ofNat_toNat, ← BitVec.signExtend_eq_setWidth_of_le _ (by omega)]
  exact congrArg Int32.toBitVec (Int32.toInt32_toInt64 kind)

theorem Spelled.sound (h : u.Spelled fs) : Sound fs := by
  obtain ⟨ms, hms, rfl⟩ := h
  have hid : Sound (textField 1 u.id) := sound_textField (by omega) (by omega) _
  have hkind : Sound (wordField 2 u.kind.toInt64.toUInt64.toNat) := sound_wordField (by omega) (by omega) _
  exact ((hid.append hkind).append (hms.sound (by omega) (by omega))).append (sound_version u.version)

theorem Spelled.foldlM (h : u.Spelled fs) (hlen : (encodeFields fs).length < UInt64.size) :
    fs.foldlM (merge depthLimit) {} = some u := by
  obtain ⟨ms, hms, rfl⟩ := h
  obtain ⟨id, kind, member, version⟩ := u
  have hid : (textField 1 id).foldlM (merge depthLimit) {} = some ⟨id, 0, none, none⟩ :=
    foldlM_textField (fun s => UpdateMessage.mk s 0 none none) rfl fun h => by rw [h]
  have hword := ofNat_signExtended kind
  have hkind : (wordField 2 kind.toInt64.toUInt64.toNat).foldlM (merge depthLimit) ⟨id, 0, none, none⟩ =
      some ⟨id, kind, none, none⟩ := by
    refine foldlM_wordField ?_ fun h => ?_
    · show some (UpdateMessage.mk id (UInt32.ofNat kind.toInt64.toUInt64.toNat).toInt32 none none) = _
      rw [hword]
    · rw [← hword, h]
      rfl
  have hmember : ms.foldlM (merge depthLimit) ⟨id, kind, none, none⟩ = some ⟨id, kind, member, none⟩ := by
    refine hms.foldlM (depthLimit - 1) ?_ hlen (fun r => UpdateMessage.mk id kind r none) fun f hf => ?_
    · exact fun f hf => List.mem_append_left _ (List.mem_append_right _ hf)
    · obtain ⟨number, payload⟩ := f
      obtain rfl : number = 3 := hf
      rfl
  refine foldlM_append_of (foldlM_append_of (foldlM_append_of hid hkind) hmember) ?_
  cases version with
  | none => rfl
  | some v =>
    have hversion : (nested 4 (versionFields v)).payload.merge? (depthLimit - 1) mergeVersion noVersion = some v :=
      (merge?_nested _ (sound_versionFields v) (List.mem_append_right _ List.mem_cons_self) hlen noVersion).trans
        (foldlM_versionFields v)
    exact congrArg (fun v => (v.map fun v => UpdateMessage.mk id kind member (some v)).bind pure) hversion

theorem Spelled.decode? (h : u.Spelled fs) (hlen : (encodeFields fs).length < UInt64.size) :
    decode? (encodeFields fs) = some u := by
  show (fields? depthLimit (encodeFields fs)).bind (fun fs => fs.foldlM (merge depthLimit) {}) = _
  rw [fields?_of_sound h.sound hlen]
  exact h.foldlM hlen

end UpdateMessage

/-- The number under which a kind travels. -/
def kindNumber : UpdateKind → Int32
  | .register => 1
  | .unregister => 2
  | .metadata => 3

theorem eq_kindNumber_iff (n : Int32) : (∃ kind, n = kindNumber kind) ↔ n = 1 ∨ n = 2 ∨ n = 3 := by
  constructor
  · rintro ⟨kind, rfl⟩
    cases kind <;> simp [kindNumber]
  · rintro (rfl | rfl | rfl)
    · exact ⟨.register, rfl⟩
    · exact ⟨.unregister, rfl⟩
    · exact ⟨.metadata, rfl⟩

theorem kindNumber_inj {a b : UpdateKind} (h : kindNumber a = kindNumber b) : a = b := by
  cases a <;> cases b <;> simp [kindNumber] at h ⊢

/-- A message is read as an update if it has an id and a known kind. -/
theorem UpdateMessage.read_cases (m : UpdateMessage) :
    (m.id = "" ∧ Update.ofMessage m = .error .missingId) ∨
    (m.id ≠ "" ∧ (∀ kind, m.kind ≠ kindNumber kind) ∧ Update.ofMessage m = .error (.unknownKind m.id m.kind)) ∨
    (m.id ≠ "" ∧ ∃ kind, m.kind = kindNumber kind ∧
      Update.ofMessage m = .ok ⟨m.id, kind, m.member.map (·.member), m.version⟩) := by
  by_cases hid : m.id = ""
  · exact .inl ⟨hid, by simp [Update.ofMessage, hid]⟩
  by_cases hkind : ∃ kind, m.kind = kindNumber kind
  · obtain ⟨kind, hkind⟩ := hkind
    refine .inr (.inr ⟨hid, kind, hkind, ?_⟩)
    cases kind <;> simp [Update.ofMessage, hid, hkind, kindNumber]
  · have hnumber := hkind
    rw [eq_kindNumber_iff, not_or, not_or] at hnumber
    exact .inr (.inl ⟨hid, not_exists.mp hkind, by simp [Update.ofMessage, hid, hnumber]⟩)

/-- Every request comes to the registry as it was, with the client it is from, and every update of a known kind comes
back as it was; a part that is absent stays apart from one that is blank. No bytes in memory are as many as `UInt64.size`. -/
theorem wire_lossless :
    (∀ (clientId : String) (r : Request), r ≠ .close → ∃ m, r.message clientId = some m ∧ m.Spelled m.fields ∧
      ∀ fs, m.Spelled fs → (encodeFields fs).length < UInt64.size →
        Message.decode? m.method (encodeFields fs) = some m ∧ Request.ofMessage m = some (clientId, r)) ∧
    ∀ u : UpdateMessage, u.Spelled u.fields ∧ ∀ fs, u.Spelled fs → (encodeFields fs).length < UInt64.size →
      UpdateMessage.decode? (encodeFields fs) = some u ∧ ∀ kind, u.id ≠ "" → u.kind = kindNumber kind →
        Update.ofMessage u = .ok ⟨u.id, kind, u.member.map (·.member), u.version⟩ := by
  constructor
  · intro clientId r hr
    obtain ⟨m, hm⟩ : ∃ m, r.message clientId = some m := by
      cases r with
      | close => exact absurd rfl hr
      | _ => exact ⟨_, rfl⟩
    exact ⟨m, hm, m.spelled, fun fs hfs hlen => ⟨hfs.decode? hlen, Request.ofMessage_message clientId r m hm⟩⟩
  · intro u
    refine ⟨u.spelled, fun fs hfs hlen => ⟨hfs.decode? hlen, fun kind hid hkind => ?_⟩⟩
    have hsome : u.id.isEmpty = false := by simpa using hid
    unfold Update.ofMessage
    cases kind <;> simp [hsome, hkind, kindNumber]

/-- A member with a negative start, a blank name in its metadata, and a blank value. -/
def early : Member := ⟨"a", "", "", -1, "", .ofList [("", "x"), ("k", "")] compare⟩

/-- The entries of its metadata the other way round. -/
def earlyFields : List Field :=
  (Registration.mk "c" early).head ++ [entryField 7 (textField 2) ("k", ""), entryField 7 (textField 2) ("", "x")]

/-- An update whose member and version are there, but blank. -/
def blankUpdate : UpdateMessage := ⟨"a", 1, some {}, some noVersion⟩

theorem blanks_kept :
    Request.register early ≠ .close ∧ (encodeFields [nested 1 earlyFields]).length < UInt64.size ∧
      Message.decode? .register (encodeFields [nested 1 earlyFields]) = some (.register (some ⟨"c", early⟩)) ∧
      Request.ofMessage (.register (some ⟨"c", early⟩)) = some ("c", .register early) ∧
      (encodeFields blankUpdate.fields).length < UInt64.size ∧
      UpdateMessage.decode? (encodeFields blankUpdate.fields) = some blankUpdate ∧
      Update.ofMessage blankUpdate = .ok ⟨"a", .register, some (.new "" ""), some noVersion⟩ := by
  obtain ⟨m, hm, -, hread⟩ := wire_lossless.1 "c" (.register early) nofun
  obtain rfl := Option.some.inj hm
  have hentries : [("k", ""), ("", "x")].Perm early.metadata.toList := by decide +kernel
  have hspelled : (Registration.mk "c" early).Spelled earlyFields := ⟨_, ⟨_, hentries, rfl⟩, rfl⟩
  have hlen : (encodeFields [nested 1 earlyFields]).length < UInt64.size := by decide +kernel
  have hlen' : (encodeFields blankUpdate.fields).length < UInt64.size := by decide +kernel
  obtain ⟨hdecode, hback⟩ := hread _ (.register (.present hspelled)) hlen
  obtain ⟨hupdate, hkind⟩ := (wire_lossless.2 blankUpdate).2 _ blankUpdate.spelled hlen'
  exact ⟨nofun, hlen, hdecode, hback, hlen', hupdate, hkind .register (by decide) rfl⟩

end Roster.Wire
