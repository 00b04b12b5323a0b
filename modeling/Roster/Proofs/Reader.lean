import Mathlib.Data.List.Forall2
import Roster.Serial

/-! When a tree is read, and as what: one equivalence for every form a tree is read in. -/
namespace Roster

theorem bind_eq_ok {ε α β : Type} {x : Except ε α} {f : α → Except ε β} {b : β} :
    x >>= f = .ok b ↔ ∃ a, x = .ok a ∧ f a = .ok b := by
  cases x with
  | error e => exact ⟨nofun, fun ⟨_, h, _⟩ => nomatch h⟩
  | ok a => exact ⟨fun h => ⟨a, rfl, h⟩, fun ⟨_, h, hf⟩ => Except.ok.inj h ▸ hf⟩

theorem mapError_eq_ok {ε δ α : Type} {x : Except ε α} {f : ε → δ} {a : α} : x.mapError f = .ok a ↔ x = .ok a := by
  cases x with
  | error e => exact ⟨nofun, nofun⟩
  | ok b => exact ⟨fun h => congrArg Except.ok (Except.ok.inj h), fun h => congrArg Except.ok (Except.ok.inj h)⟩

theorem mapM_eq_ok {ε α β : Type} {f : α → Except ε β} {as : List α} {bs : List β} :
    as.mapM f = .ok bs ↔ List.Forall₂ (fun a b => f a = .ok b) as bs := by
  induction as generalizing bs with
  | nil =>
    rw [List.mapM_nil, List.forall₂_nil_left_iff]
    exact ⟨fun h => (Except.ok.inj h).symm, fun h => congrArg Except.ok h.symm⟩
  | cons a as ih =>
    rw [List.mapM_cons, bind_eq_ok, List.forall₂_cons_left_iff]
    refine exists_congr fun b => ⟨fun ⟨ha, h⟩ => ?_, fun ⟨bs', ha, has, hbs⟩ => ⟨ha, ?_⟩⟩
    · obtain ⟨bs', has, h⟩ := bind_eq_ok.mp h
      exact ⟨bs', ha, ih.mp has, (Except.ok.inj h).symm⟩
    · exact bind_eq_ok.mpr ⟨bs', ih.mpr has, congrArg Except.ok hbs.symm⟩

theorem exists_of_forall₂ {α β : Type} {R : α → β → Prop} {as : List α} {bs : List β} {b : β} (h : List.Forall₂ R as bs)
    (hb : b ∈ bs) : ∃ a ∈ as, R a b := by
  induction h with
  | nil => exact nomatch hb
  | @cons a b' as bs hab _ ih =>
    obtain rfl | hb := List.mem_cons.mp hb
    · exact ⟨a, List.mem_cons_self, hab⟩
    · obtain ⟨a', ha', hR⟩ := ih hb
      exact ⟨a', List.mem_cons_of_mem a ha', hR⟩

theorem forall₂_of_mem {α β : Type} {R S : α → β → Prop} {as : List α} {bs : List β} (h : List.Forall₂ R as bs)
    (hRS : ∀ a ∈ as, ∀ b ∈ bs, R a b → S a b) : List.Forall₂ S as bs := by
  induction h with
  | nil => exact .nil
  | cons hab _ ih =>
    refine .cons (hRS _ List.mem_cons_self _ List.mem_cons_self hab) (ih fun a ha b hb => ?_)
    exact hRS a (List.mem_cons_of_mem _ ha) b (List.mem_cons_of_mem _ hb)

namespace Document

variable {ε β : Type} {r : Reader ε} {read : Document → Except ε β} {d : Document}

theorem optional_eq_ok {o : Option β} :
    optional read d = .ok o ↔ (d = .null ∧ o = none) ∨ (d ≠ .null ∧ ∃ b, read d = .ok b ∧ o = some b) := by
  cases d with
  | null => simp [optional, eq_comm]
  | _ =>
    cases h : read _ with
    | error e => simp [optional, h, Except.map]
    | ok b => simp [optional, h, Except.map, eq_comm]

namespace Reader

variable {get : String → Option (Segment × Document)} {name : String} {default : Option β} {b : β}

theorem part_eq_ok : r.part get name read default = .ok b ↔
    (∃ s d, get name = some (s, d) ∧ read d = .ok b) ∨ (get name = none ∧ default = some b) := by
  unfold part
  cases hget : get name with
  | some p =>
    obtain ⟨s, d⟩ := p
    simp [mapError_eq_ok]
  | none => cases default <;> simp

theorem exists_of_optional_part (h : r.part get name (optional read) (some none) = .ok (some b)) :
    ∃ s d, get name = some (s, d) ∧ read d = .ok b := by
  obtain ⟨s, d, hd, hread⟩ | ⟨-, hnone⟩ := part_eq_ok.mp h
  · obtain ⟨-, hnone⟩ | ⟨-, _, hread, ⟨⟩⟩ := optional_eq_ok.mp hread
    · cases hnone
    · exact ⟨s, d, hd, hread⟩
  · cases hnone

theorem list_eq_ok {bs : List β} :
    r.list read d = .ok bs ↔ ∃ ds, d = .list ds ∧ List.Forall₂ (fun d b => read d = .ok b) ds bs := by
  cases d with
  | list ds =>
    have hread : List.Forall₂ (fun e b => read e.1 = .ok b) ds.zipIdx bs ↔ List.Forall₂ (fun d b => read d = .ok b) ds bs := by
      have hmap := List.forall₂_map_left_iff (R := fun d b => read d = .ok b) (f := Prod.fst) (l := ds.zipIdx) (u := bs)
      rwa [List.zipIdx_map_fst, Iff.comm] at hmap
    simp [list, mapM_eq_ok, mapError_eq_ok, hread]
  | _ => simp [list]

theorem keyed_eq_ok {m : Keyed β} :
    r.keyed read d = .ok m ↔ ∃ es pairs, d = .table es ∧
      List.Forall₂ (fun e q => e.1 = q.1 ∧ read e.2 = .ok q.2) es pairs ∧ Std.ExtTreeMap.ofList pairs compare = m := by
  have hentry (e : String × Document) (q : String × β) :
      ((read e.2).mapError (r.within (.key e.1)) >>= fun v => pure (e.1, v)) = .ok q ↔ e.1 = q.1 ∧ read e.2 = .ok q.2 := by
    simp only [bind_eq_ok, mapError_eq_ok]
    constructor
    · rintro ⟨v, hv, h⟩
      obtain rfl := Except.ok.inj h
      exact ⟨rfl, hv⟩
    · rintro ⟨hkey, hv⟩
      exact ⟨q.2, hv, congrArg Except.ok (Prod.ext hkey rfl)⟩
  cases d with
  | table es =>
    simp only [keyed, bind_eq_ok, mapM_eq_ok, hentry]
    constructor
    · rintro ⟨pairs, hpairs, h⟩
      exact ⟨es, pairs, rfl, hpairs, Except.ok.inj h⟩
    · rintro ⟨es, pairs, ⟨⟩, hpairs, rfl⟩
      exact ⟨pairs, hpairs, rfl⟩
  | _ => simp [keyed]

theorem keys_of_forall₂ {es : List (String × Document)} {pairs : List (String × β)}
    (h : List.Forall₂ (fun e q => e.1 = q.1 ∧ read e.2 = .ok q.2) es pairs) : es.map (·.1) = pairs.map (·.1) := by
  rw [← List.forall₂_eq_eq_eq, List.forall₂_map_left_iff, List.forall₂_map_right_iff]
  exact h.imp fun _ _ hentry => hentry.1

end Reader

end Document

/-! The structures -/

open Document

variable {ε : Type} {r : Reader ε} {d : Document}

/-- The parts of a table. -/
def entry (es : List (String × Document)) (name : String) : Option (Segment × Document) :=
  (lookup? es name).map fun d => (.key name, d)

theorem part_entry {β : Type} {es : List (String × Document)} {name : String} {read : Document → Except ε β} {default b : β} :
    r.part (entry es) name read (some default) = .ok b ↔ (lookup? es name).elim (b = default) fun d => read d = .ok b := by
  rw [Reader.part_eq_ok, entry]
  cases lookup? es name <;> simp [eq_comm]

theorem ServiceFilter.read_eq_ok {f : ServiceFilter} : ServiceFilter.read r d = .ok f ↔
    ∃ get, r.parts "struct ServiceFilter" fields d = .ok get ∧
      r.part get "locality" (optional (r.list r.text)) (some none) = .ok f.locality ∧
      r.part get "metadata" (MetadataFilter.read r) (some ∅) = .ok f.metadata := by
  simp only [ServiceFilter.read, bind_eq_ok]
  refine exists_congr fun get => and_congr_right fun _ => ⟨?_, ?_⟩
  · rintro ⟨locality, hlocality, metadata, hmetadata, h⟩
    obtain rfl := Except.ok.inj h
    exact ⟨hlocality, hmetadata⟩
  · rintro ⟨hlocality, hmetadata⟩
    exact ⟨_, hlocality, _, hmetadata, rfl⟩

theorem Backoff.read_eq_ok {b : Backoff} : Backoff.read r d = .ok b ↔
    ∃ get, r.parts "struct BackoffPolicy" fields d = .ok get ∧
      r.part get "max_retries" r.word (some ({} : Backoff).maxRetries) = .ok b.maxRetries ∧
      r.part get "timeout_ms" r.word (some ({} : Backoff).timeoutMs) = .ok b.timeoutMs ∧
      r.part get "base_delay_ms" r.word (some ({} : Backoff).baseDelayMs) = .ok b.baseDelayMs ∧
      r.part get "max_delay_ms" r.word (some ({} : Backoff).maxDelayMs) = .ok b.maxDelayMs := by
  simp only [Backoff.read, bind_eq_ok]
  refine exists_congr fun get => and_congr_right fun _ => ⟨?_, ?_⟩
  · rintro ⟨retries, hretries, timeout, htimeout, base, hbase, max, hmax, h⟩
    obtain rfl := Except.ok.inj h
    exact ⟨hretries, htimeout, hbase, hmax⟩
  · rintro ⟨hretries, htimeout, hbase, hmax⟩
    exact ⟨_, hretries, _, htimeout, _, hbase, _, hmax, rfl⟩

theorem Settings.read_eq_ok {s : Settings} : Settings.read r d = .ok s ↔
    ∃ get, r.parts "struct ClientConfig" fields d = .ok get ∧
      r.part get "connect_timeout_in_ms" r.word (some ({} : Settings).connectTimeoutMs) = .ok s.connectTimeoutMs ∧
      r.part get "request_timeout_in_ms" r.word (some ({} : Settings).requestTimeoutMs) = .ok s.requestTimeoutMs ∧
      r.part get "heartbeat_interval_in_ms" r.word (some ({} : Settings).heartbeatIntervalMs) = .ok s.heartbeatIntervalMs ∧
      r.part get "heartbeat_timeout_in_ms" r.word (some ({} : Settings).heartbeatTimeoutMs) = .ok s.heartbeatTimeoutMs ∧
      r.part get "close_timeout_in_ms" r.word (some ({} : Settings).closeTimeoutMs) = .ok s.closeTimeoutMs ∧
      r.part get "health_check_interval_in_ms" r.word (some ({} : Settings).healthCheckIntervalMs) =
        .ok s.healthCheckIntervalMs ∧
      r.part get "tcp_keepalive_in_secs" r.word (some ({} : Settings).tcpKeepaliveSecs) = .ok s.tcpKeepaliveSecs ∧
      r.part get "http2_keep_alive_interval_in_secs" r.word (some ({} : Settings).keepAliveIntervalSecs) =
        .ok s.keepAliveIntervalSecs ∧
      r.part get "http2_keep_alive_timeout_in_secs" r.word (some ({} : Settings).keepAliveTimeoutSecs) =
        .ok s.keepAliveTimeoutSecs ∧
      r.part get "enable_compression" r.flag (some ({} : Settings).compression) = .ok s.compression ∧
      r.part get "reconnect" (Backoff.read r) (some ({} : Settings).reconnect) = .ok s.reconnect := by
  simp only [Settings.read, bind_eq_ok]
  refine exists_congr fun get => and_congr_right fun _ => ⟨?_, ?_⟩
  · rintro ⟨_, h1, _, h2, _, h3, _, h4, _, h5, _, h6, _, h7, _, h8, _, h9, _, h10, _, h11, h⟩
    obtain rfl := Except.ok.inj h
    exact ⟨h1, h2, h3, h4, h5, h6, h7, h8, h9, h10, h11⟩
  · rintro ⟨h1, h2, h3, h4, h5, h6, h7, h8, h9, h10, h11⟩
    exact ⟨_, h1, _, h2, _, h3, _, h4, _, h5, _, h6, _, h7, _, h8, _, h9, _, h10, _, h11, rfl⟩

theorem Configuration.read_eq_ok {c : Configuration} : Configuration.read r d = .ok c ↔
    ∃ get, r.parts "struct FuddleConfig" fields d = .ok get ∧
      r.part get "seeds" (r.list r.text) (some []) = .ok c.seeds ∧
      r.part get "client" (Settings.read r) (some {}) = .ok c.client ∧
      r.part get "filter" (optional (Filter.read r)) (some none) = .ok c.filter := by
  simp only [Configuration.read, bind_eq_ok]
  refine exists_congr fun get => and_congr_right fun _ => ⟨?_, ?_⟩
  · rintro ⟨seeds, hseeds, client, hclient, filter, hfilter, h⟩
    obtain rfl := Except.ok.inj h
    exact ⟨hseeds, hclient, hfilter⟩
  · rintro ⟨hseeds, hclient, hfilter⟩
    exact ⟨_, hseeds, _, hclient, _, hfilter, rfl⟩

end Roster
