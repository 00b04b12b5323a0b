import Roster.Proofs.Registry.Moves
import Roster.Proofs.Wire.Message

/-! What a registry makes of an update as it was sent. The message is read first, which takes an id and a known kind, and
then applied, which takes a member unless there is another reason to pass the update over. Each fault has its condition, and
whatever is not applied leaves no trace. -/
namespace Roster.Registry

variable {r : Registry} {m : Wire.UpdateMessage}

/-- What a registry makes of a message: an update that cannot be read is not applied. -/
def receive (r : Registry) (m : Wire.UpdateMessage) : Effect :=
  match Update.ofMessage m with
  | .ok u => r.applyRemote u
  | .error f => r.unchanged (.applied (some f))

/-- What is wrong with a message, for a registry in its state. -/
inductive Faulty (r : Registry) (m : Wire.UpdateMessage) : UpdateFault → Prop
  | missingId : m.id = "" → Faulty r m .missingId
  | unknownKind : m.id ≠ "" → ¬ (m.kind = 1 ∨ m.kind = 2 ∨ m.kind = 3) → Faulty r m (.unknownKind m.id m.kind)
  | missingMember {kind : UpdateKind} : m.id ≠ "" → m.kind = Wire.kindNumber kind → kind ≠ .unregister →
    r.closed = false → r.isLocal m.id = false → m.member = none → Faulty r m (.missingMember m.id kind)

/-- Why a message leaves no trace. -/
inductive Idle (r : Registry) (m : Wire.UpdateMessage) : Prop
  | faulty {f : UpdateFault} : Faulty r m f → Idle r m
  | closed : r.closed = true → Idle r m
  | own : r.isLocal m.id = true → Idle r m
  | unknown : m.kind = Wire.kindNumber .unregister → m.id ∉ r.entries → Idle r m

/-- What a message that leaves a trace makes of the members. -/
inductive Taken (r : Registry) (m : Wire.UpdateMessage) : Keyed Entry → Prop
  | removed : m.kind = Wire.kindNumber .unregister → m.id ∈ r.entries → Taken r m (r.entries.erase m.id)
  | stored {kind : UpdateKind} {x : Wire.Registration} : m.kind = Wire.kindNumber kind → kind ≠ .unregister → m.member = some x →
    Taken r m (r.entries.insert m.id ⟨{ x.member with id := m.id }, m.version⟩)

theorem not_faulty (hid : m.id ≠ "") (hknown : m.kind = 1 ∨ m.kind = 2 ∨ m.kind = 3)
    (h : r.closed = true ∨ r.isLocal m.id = true ∨ m.kind = Wire.kindNumber .unregister ∨ m.member ≠ none)
    (f : UpdateFault) : ¬ Faulty r m f := by
  rintro (hempty | ⟨-, hunknown⟩ | ⟨-, hkind, hne, hopen, hremote, hmember⟩)
  · exact hid hempty
  · exact hunknown hknown
  · obtain h | h | h | h := h
    · exact nomatch hopen.symm.trans h
    · exact nomatch hremote.symm.trans h
    · exact hne (Wire.kindNumber_inj (hkind.symm.trans h))
    · exact h hmember

theorem not_idle (hfault : ∀ f, ¬ Faulty r m f) (hopen : r.closed = false) (hremote : r.isLocal m.id = false)
    (h : m.kind = Wire.kindNumber .unregister → m.id ∈ r.entries) : ¬ Idle r m := by
  rintro (hf | hc | hl | ⟨hkind, hheld⟩)
  · exact hfault _ hf
  · exact nomatch hopen.symm.trans hc
  · exact nomatch hremote.symm.trans hl
  · exact hheld (h hkind)

/-- A message is refused for what is wrong with it, passed over, or applied and announced to all subscribers. -/
theorem receive_cases (r : Registry) (m : Wire.UpdateMessage) :
    (∃ f, Faulty r m f ∧ r.receive m = r.unchanged (.applied (some f))) ∨
    ((∀ f, ¬ Faulty r m f) ∧ Idle r m ∧ r.receive m = r.unchanged (.applied none)) ∨
    ((∀ f, ¬ Faulty r m f) ∧ ¬ Idle r m ∧
      ∃ entries, Taken r m entries ∧ r.receive m = { r with entries }.changed (.applied none)) := by
  obtain ⟨hid, hread⟩ | ⟨hid, hkind, hread⟩ | ⟨hid, kind, hkind, hread⟩ := m.read_cases
  · exact .inl ⟨_, .missingId hid, by simp [receive, hread]⟩
  · rw [← not_exists, Wire.eq_kindNumber_iff] at hkind
    exact .inl ⟨_, .unknownKind hid hkind, by simp [receive, hread]⟩
  have hknown : m.kind = 1 ∨ m.kind = 2 ∨ m.kind = 3 := (Wire.eq_kindNumber_iff _).mp ⟨kind, hkind⟩
  simp only [receive, hread, applyRemote, if_neg hid]
  by_cases hskip : r.closed = true ∨ r.isLocal m.id = true
  · refine .inr (.inl ⟨not_faulty hid hknown (hskip.imp_right .inl), hskip.elim .closed .own, ?_⟩)
    rw [if_pos (Bool.or_eq_true_iff.mpr hskip)]
  obtain ⟨hopen, hremote⟩ : r.closed = false ∧ r.isLocal m.id = false := by simpa using hskip
  by_cases hremoval : kind = .unregister
  · subst hremoval
    have hfault := not_faulty (r := r) hid hknown (.inr (.inr (.inl hkind)))
    by_cases hheld : m.id ∈ r.entries
    · exact .inr (.inr ⟨hfault, not_idle hfault hopen hremote fun _ => hheld, _, .removed hkind hheld,
        by simp [hopen, hremote, hheld]⟩)
    · exact .inr (.inl ⟨hfault, .unknown hkind hheld, by simp [hopen, hremote, hheld]⟩)
  · cases hmember : m.member with
    | none => exact .inl ⟨_, .missingMember hid hkind hremoval hopen hremote hmember, by cases kind <;> simp_all⟩
    | some x =>
      have hfault := not_faulty (r := r) hid hknown (.inr (.inr (.inr (by simp [hmember]))))
      have hkept : ¬ Idle r m := not_idle hfault hopen hremote fun h =>
        absurd (Wire.kindNumber_inj (hkind.symm.trans h)) hremoval
      exact .inr (.inr ⟨hfault, hkept, _, .stored hkind hremoval hmember, by cases kind <;> simp_all⟩)

theorem Faulty.unique {f g : UpdateFault} (hf : Faulty r m f) (hg : Faulty r m g) : f = g := by
  cases hf with
  | missingId hid =>
    cases hg with
    | missingId => rfl
    | unknownKind hne => exact absurd hid hne
    | missingMember hne => exact absurd hid hne
  | unknownKind hid hunknown =>
    cases hg with
    | missingId hempty => exact absurd hempty hid
    | unknownKind => rfl
    | missingMember _ hkind => exact absurd ((Wire.eq_kindNumber_iff _).mp ⟨_, hkind⟩) hunknown
  | missingMember hid hkind =>
    cases hg with
    | missingId hempty => exact absurd hempty hid
    | unknownKind _ hunknown => exact absurd ((Wire.eq_kindNumber_iff _).mp ⟨_, hkind⟩) hunknown
    | missingMember _ hkind' => rw [Wire.kindNumber_inj (hkind.symm.trans hkind')]

/-- Nobody is called for an update that leaves no trace, wherever it is applied. -/
theorem Stage.step_of_unchanged {s t : Stage} {i : Nat} {op : Op} (hr : s.registries[i]? = some r)
    (hsame : (r.perform op).registry = r) (hdue : (r.perform op).due = []) (h : s.step (.perform i op) = some t) :
    t.registries = s.registries ∧ t.stack = s.stack := by
  obtain ⟨q, -, hq, -, rfl⟩ := of_perform h
  obtain rfl := Option.some.inj (hr.symm.trans hq)
  obtain ⟨hlt, hget⟩ := List.getElem?_eq_some_iff.mp hr
  refine ⟨?_, congrArg (pushDue i s.history.length · s.stack) hdue⟩
  rw [hsame, ← hget]
  exact List.set_getElem_self hlt

/-- For every registry and every message there is one outcome, and its condition can be read off the two: no id; else a kind that
is none of the three; else no member, if the update is to bring one and the registry would take it; else none of these. A message
with a fault, about a member of the client's own, to a closed registry, or that removes an unknown member leaves all as it was,
and nobody is called for it. Any other is applied, and all subscribers hear of it. -/
theorem receipt_classified (r : Registry) (m : Wire.UpdateMessage) :
    (∀ f, (r.receive m).reply = .applied (some f) ↔ Faulty r m f) ∧
    ((r.receive m).reply = .applied none ↔ ∀ f, ¬ Faulty r m f) ∧
    (Idle r m → (r.receive m).registry = r ∧ (r.receive m).due = [] ∧
      ∀ s i u t, s.registries[i]? = some r → Update.ofMessage m = .ok u → Stage.step s (.perform i (.applyRemote u)) = some t →
        t.registries = s.registries ∧ t.stack = s.stack) ∧
    (¬ Idle r m → (r.receive m).due = r.audience ∧
      ∃ entries, Taken r m entries ∧ (r.receive m).registry = { r with entries }) := by
  have hstage (hsame : (r.receive m).registry = r) (hdue : (r.receive m).due = []) (s : Stage) (i : Nat) (u : Update) (t : Stage)
      (hr : s.registries[i]? = some r) (hu : Update.ofMessage m = .ok u)
      (hstep : s.step (.perform i (.applyRemote u)) = some t) : t.registries = s.registries ∧ t.stack = s.stack := by
    have hperform : r.perform (.applyRemote u) = r.receive m := by simp [receive, hu, perform]
    exact Stage.step_of_unchanged hr (by rw [hperform, hsame]) (by rw [hperform, hdue]) hstep
  obtain ⟨f, hf, heffect⟩ | ⟨hfault, hidle, heffect⟩ | ⟨hfault, hkept, entries, htaken, heffect⟩ := receive_cases r m
  · rw [heffect] at hstage ⊢
    refine ⟨fun g => ?_, ?_, fun _ => ⟨rfl, rfl, hstage rfl rfl⟩, fun hkept => absurd (.faulty hf) hkept⟩
    · simp only [unchanged_reply, Reply.applied.injEq, Option.some.injEq]
      exact ⟨fun h => h ▸ hf, hf.unique⟩
    · simp only [unchanged_reply, Reply.applied.injEq, reduceCtorEq, false_iff, not_forall, not_not]
      exact ⟨f, hf⟩
  · rw [heffect] at hstage ⊢
    exact ⟨fun f => iff_of_false (by simp) (hfault f), iff_of_true rfl hfault, fun _ => ⟨rfl, rfl, hstage rfl rfl⟩,
      fun hkept => absurd hidle hkept⟩
  · rw [heffect]
    exact ⟨fun f => iff_of_false (by simp) (hfault f), iff_of_true rfl hfault, fun hidle => absurd hidle hkept,
      fun _ => ⟨rfl, entries, htaken, rfl⟩⟩

end Roster.Registry
