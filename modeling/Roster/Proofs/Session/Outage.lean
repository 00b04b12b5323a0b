import Roster.Proofs.Session.Agreement

/-! A client and its server after an outage. Registrations and metadata written while the server could not be reached are
made good by the next epoch; removals are not. -/
namespace Roster.Session

variable {s s' : Session}

/-- Writes of the application overlap neither each other nor an epoch that registers the members again. -/
def writesApart (s : Session) : Bool :=
  (s.writings.filter Writing.inFlight).length ≤ 1 &&
    (!s.writings.any Writing.inFlight || s.epochs.all fun e =>
      match e.runner with
      | .restoring _ => false
      | _ => true)

theorem apart_desk (h : s.writesApart = true) : s.desk.Apart := by
  obtain ⟨hone, hidle⟩ := Bool.and_eq_true_iff.mp h
  constructor
  case one =>
    intro w hw w' hw' hf hf'
    have hle : (s.writings.filter Writing.inFlight).length ≤ 1 := of_decide_eq_true hone
    have hmem : w ∈ s.writings.filter Writing.inFlight := List.mem_filter.mpr ⟨hw, hf⟩
    have hmem' : w' ∈ s.writings.filter Writing.inFlight := List.mem_filter.mpr ⟨hw', hf'⟩
    obtain ⟨x, hx⟩ := List.length_eq_one_iff.mp (Nat.le_antisymm hle (List.length_pos_of_mem hmem))
    rw [hx, List.mem_singleton] at hmem hmem'
    exact hmem.trans hmem'.symm
  case idle =>
    intro w hw hf id calls hmem
    obtain ⟨e, he, heq⟩ := List.mem_map.mp hmem
    have hany : s.writings.any Writing.inFlight = true := List.any_eq_true.mpr ⟨w, hw, hf⟩
    rw [hany, Bool.not_true, Bool.false_or, List.all_eq_true] at hidle
    have hrunner := hidle e he
    rw [(Prod.mk.inj heq).2] at hrunner
    exact nomatch hrunner

/-- What holds of an open session as long as writes are apart. -/
structure Accounted (s : Session) : Prop where
  control : s.watch.Control
  books : s.desk.Books
  owned : s.desk.Owned
  agreement : s.desk.Agreement

theorem accounted_start (settings : Settings) (connectivity : Connectivity) (now : Nat) :
    (start settings connectivity now).Accounted := by
  have hdesk : (start settings connectivity now).desk = ⟨Registry.owned? {}, false, fun _ => none, 0, [], [], [],
      fun _ => none, []⟩ := rfl
  refine ⟨Watch.control_start .., ?books, ?owned, ?agreement⟩
  case books =>
    rw [hdesk]
    constructor
    case opened => rfl
    case fresh => exact fun c r hr => nomatch hr
    case asked => exact fun c k hk => nomatch hk
    case ids => exact List.nodup_nil
    case restoring => exact fun id calls hr => absurd hr List.not_mem_nil
    case disjoint => exact fun id id' calls calls' hr => absurd hr List.not_mem_nil
    case opening => exact fun id c deadline hr => absurd hr List.not_mem_nil
    case beating => exact fun id c deadline due hh => absurd hh List.not_mem_nil
    case writing => exact fun w hw => absurd hw List.not_mem_nil
    case calm => exact fun w hw => absurd hw List.not_mem_nil
  case owned =>
    rw [hdesk]
    exact fun c k hk => nomatch hk
  case agreement =>
    rw [hdesk]
    constructor
    case keyed => exact fun id m hm => nomatch (Registry.owned?_empty id).symm.trans hm
    case restored => exact fun e calls hr => absurd hr List.not_mem_nil
    case complete => exact fun e calls hr => absurd hr List.not_mem_nil
    case foreign => exact fun id _ hmem => absurd hmem Std.ExtTreeMap.not_mem_empty
    case removing => exact fun w hw => absurd hw List.not_mem_nil

namespace Accounted

theorem step (h : s.Accounted) (hapart : s.writesApart = true) (hapart' : s'.writesApart = true)
    (hopen : s.closing = false) {m : Move} (hstep : s.step m = some s') : s'.Accounted := by
  have hcontrol : s'.watch.Control := h.control.steps (step_watch hstep)
  obtain hsame | hdesk := step_desk h.control hopen h.books.opened hstep
  · refine ⟨hcontrol, ?_, ?_, ?_⟩
    · exact hsame ▸ h.books
    · exact hsame ▸ h.owned
    · exact hsame ▸ h.agreement
  · exact ⟨hcontrol, h.books.step hdesk, h.owned.step h.books (apart_desk hapart) hdesk,
      h.agreement.step h.books h.owned (apart_desk hapart) (apart_desk hapart') hdesk⟩

theorem run (h : s.Accounted) {moves : List Move} (hrun : s.run moves = some s') (hopen : s'.closing = false)
    (hapart : ∀ t ∈ s.visits moves, t.writesApart = true) : s'.Accounted := by
  induction moves generalizing s with
  | nil => exact Option.some.inj hrun ▸ h
  | cons m moves ih =>
    have hopens : s.closing = false := Watch.open_of_steps (run_watch hrun) hopen
    rw [run_cons] at hrun
    obtain ⟨t, ht, hrest⟩ := Option.bind_eq_some_iff.mp hrun
    rw [visits_cons ht] at hapart
    have hstep := h.step (hapart s List.mem_cons_self) (hapart t (List.mem_cons_of_mem s (mem_visits_self t moves))) hopens ht
    exact ih hstep hrest fun x hx => hapart x (List.mem_cons_of_mem s hx)

end Accounted

/-- Once all that an epoch registers is answered, the server holds every local member as the client does. Any other member it
holds is stranded, so the two agree if and only if none is. -/
theorem server_agrees_iff_none_stranded {settings : Settings} {connectivity : Connectivity} {now : Nat} {moves : List Move}
    (hrun : (start settings connectivity now).run moves = some s) (hopen : s.closing = false)
    (hapart : ∀ t ∈ (start settings connectivity now).visits moves, t.writesApart = true) {e : Epoch} {calls : List Nat}
    (he : e ∈ s.epochs) (hr : e.runner = .restoring calls) (hdone : ∀ c ∈ calls, s.answer? c = some .done) :
    (∀ m ∈ s.registry.localMembers, (served (exchanges s.history))[m.id]? = some m) ∧
    (∀ id, s.registry.isLocal id = false → (id ∈ served (exchanges s.history) ↔ Stranded (exchanges s.history) id)) ∧
    ((∀ m, m ∈ s.registry.localMembers ↔ ∃ id : String, (served (exchanges s.history))[id]? = some m) ↔
      ∀ id, ¬ Stranded (exchanges s.history) id) := by
  obtain ⟨-, -, -, hagreement⟩ := (accounted_start settings connectivity now).run hrun hopen hapart
  have hdesk : s.desk.Apart := apart_desk (hapart s (mem_visits hrun))
  have hrestoring : (e.id, .restoring calls) ∈ s.desk.runners := List.mem_map.mpr ⟨e, he, by rw [hr]⟩
  have hheld (id : String) (m : Member) (hm : s.registry.owned? id = some m) :
      (served (exchanges s.history))[id]? = some m ∧ ¬ Stranded (exchanges s.history) id := by
    obtain ⟨c, hc, k, hk, -, hgiven⟩ := hagreement.complete e.id calls hrestoring id m hm
    refine hgiven ?_
    have hanswer := hdone c hc
    unfold answer? at hanswer
    rw [show s.call? c = some k from hk] at hanswer
    exact hanswer
  have hforeign (id : String) (hnone : s.registry.owned? id = none) (hmem : id ∈ served (exchanges s.history)) :
      Stranded (exchanges s.history) id := by
    obtain hs | ⟨w, hw, m, c, k, -, -, hp, -⟩ := hagreement.foreign id hnone hmem
    · exact hs
    -- No write is in flight while an epoch registers the members.
    · exact absurd hrestoring (hdesk.none_restoring hw hp e.id calls)
  refine ⟨?held, ?foreign, ?agree⟩
  case held =>
    intro m hm
    obtain ⟨id, howned⟩ := (s.registry.mem_localMembers m).mp hm
    rw [hagreement.keyed id m howned]
    exact (hheld id m howned).1
  case foreign =>
    intro id hlocal
    have hnone : s.registry.owned? id = none := if_neg (by rw [hlocal]; exact Bool.false_ne_true)
    exact ⟨hforeign id hnone, mem_served_of_stranded⟩
  case agree =>
    constructor
    · intro hagree id hs
      obtain ⟨m, hm⟩ := Option.isSome_iff_exists.mp (Std.ExtTreeMap.mem_iff_isSome_getElem?.mp (mem_served_of_stranded hs))
      obtain ⟨key, howned⟩ := (s.registry.mem_localMembers m).mp ((hagree m).mpr ⟨id, hm⟩)
      obtain rfl : key = id := (hagreement.keyed key m howned).symm.trans (id_of_getElem?_served hm)
      exact (hheld key m howned).2 hs
    · intro hnone m
      rw [Registry.mem_localMembers]
      refine exists_congr fun id => ?_
      cases howned : s.registry.owned? id with
      | some own => rw [(hheld id own howned).1]
      | none =>
        have hmem : id ∉ served (exchanges s.history) := fun hmem => hnone id (hforeign id howned hmem)
        rw [Std.ExtTreeMap.getElem?_eq_none hmem]

/-- One member is registered. The server cannot be reached while its metadata changes and a second one is registered. -/
def outage : List Move :=
  [.watchStart, .restore 1, .openStream 1, .write (.register (Member.new "a" "web")), .answer 2 none, .proceed 0,
    .report .disconnected, .watchChange, .stopRunner 1, .write (.updateMetadata "a" ((∅ : Keyed String).insert "zone" "1")),
    .answer 3 (some (.unavailable "down")), .proceed 1, .write (.register (Member.new "b" "web")),
    .answer 4 (some (.unavailable "down")), .proceed 2, .report .ready, .watchChange, .restore 2, .answer 5 none,
    .answer 6 none]

theorem outage_made_good :
    ∃ s e calls, (start {} .ready 0).run outage = some s ∧ s.closing = false ∧
      (∀ t ∈ (start {} .ready 0).visits outage, t.writesApart = true) ∧ e ∈ s.epochs ∧ e.runner = .restoring calls ∧
      (∀ c ∈ calls, s.answer? c = some .done) ∧ s.registry.localMembers.map (·.id) = ["a", "b"] ∧
      ∀ m, m ∈ s.registry.localMembers ↔ ∃ id : String, (served (exchanges s.history))[id]? = some m := by
  obtain ⟨s, hrun, hopen, hepochs, hanswers, hids, hasked⟩ : ∃ s, (start {} .ready 0).run outage = some s ∧
      s.closing = false ∧ s.epochs = [⟨1, true, .stopped, .starting⟩, ⟨2, false, .restoring [5, 6], .absent⟩] ∧
      [5, 6].map s.answer? = [some .done, some .done] ∧ s.registry.localMembers.map (·.id) = ["a", "b"] ∧
      ((exchanges s.history).map (·.1)).all (fun r => r matches .register _ | .updateMetadata _ _) = true :=
    ⟨_, rfl, rfl, rfl, rfl, rfl, rfl⟩
  have hapart : ∀ t ∈ (start {} .ready 0).visits outage, t.writesApart = true := List.all_eq_true.mp rfl
  have he : ⟨2, false, .restoring [5, 6], .absent⟩ ∈ s.epochs := hepochs ▸ List.mem_cons_of_mem _ List.mem_cons_self
  have hdone : ∀ c ∈ [5, 6], s.answer? c = some .done := by simpa using hanswers
  have hnone (id : String) : ¬ Stranded (exchanges s.history) id := by
    rintro ⟨newer, f, older, hx, -⟩
    have hmem : .unregister id ∈ (exchanges s.history).map (·.1) :=
      List.mem_map.mpr ⟨(.unregister id, .failed f), hx ▸ List.mem_append_right _ List.mem_cons_self, rfl⟩
    exact nomatch List.all_eq_true.mp hasked _ hmem
  obtain ⟨-, -, hagree⟩ := server_agrees_iff_none_stranded hrun hopen hapart he rfl hdone
  exact ⟨s, _, _, hrun, hopen, hapart, he, rfl, hdone, hids, hagree.mpr hnone⟩

/-- Two members are registered. The server cannot be reached while the first one is removed. -/
def lostRemoval : List Move :=
  [.watchStart, .restore 1, .openStream 1, .write (.register (Member.new "a" "web")), .answer 2 none, .proceed 0,
    .write (.register (Member.new "b" "web")), .answer 3 none, .proceed 1, .report .disconnected, .watchChange,
    .stopRunner 1, .write (.unregister "a"), .answer 4 (some (.unavailable "down")), .proceed 2, .report .ready,
    .watchChange, .restore 2, .answer 5 none]

theorem removal_lost_in_outage :
    ∃ s e calls, (start {} .ready 0).run lostRemoval = some s ∧ s.closing = false ∧
      (∀ t ∈ (start {} .ready 0).visits lostRemoval, t.writesApart = true) ∧ e ∈ s.epochs ∧ e.runner = .restoring calls ∧
      (∀ c ∈ calls, s.answer? c = some .done) ∧ ⟨2, .unregister "a", .done (.ok ())⟩ ∈ s.writings ∧
      ¬ ∀ m, m ∈ s.registry.localMembers ↔ ∃ id : String, (served (exchanges s.history))[id]? = some m := by
  obtain ⟨s, hrun, hopen, hepochs, hanswers, hwritings, hlocal, hheld⟩ : ∃ s, (start {} .ready 0).run lostRemoval = some s ∧
      s.closing = false ∧ s.epochs = [⟨1, true, .stopped, .starting⟩, ⟨2, false, .restoring [5], .absent⟩] ∧
      s.answer? 5 = some .done ∧ s.writings = [⟨0, .register (Member.new "a" "web"), .done (.ok ())⟩,
        ⟨1, .register (Member.new "b" "web"), .done (.ok ())⟩, ⟨2, .unregister "a", .done (.ok ())⟩] ∧
      s.registry.localMembers = [Member.new "b" "web"] ∧
      (served (exchanges s.history))["a"]? = some (Member.new "a" "web") :=
    ⟨_, rfl, rfl, rfl, rfl, rfl, rfl, rfl⟩
  refine ⟨s, ⟨2, false, .restoring [5], .absent⟩, [5], hrun, hopen, List.all_eq_true.mp rfl, ?_, rfl, ?_, ?_, ?_⟩
  · exact hepochs ▸ List.mem_cons_of_mem _ List.mem_cons_self
  · exact fun c hc => List.mem_singleton.mp hc ▸ hanswers
  · exact hwritings ▸ List.mem_cons_of_mem _ (List.mem_cons_of_mem _ List.mem_cons_self)
  · intro hagree
    have hmem : Member.new "a" "web" ∈ s.registry.localMembers := (hagree _).mpr ⟨"a", hheld⟩
    rw [hlocal, List.mem_singleton] at hmem
    exact absurd (congrArg Member.id hmem) (by decide)

end Roster.Session
