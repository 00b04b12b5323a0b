import Mathlib.Tactic.ByContra
import Roster.Proofs.Session.Watch

/-! What the watcher holds at any time: at most one live epoch, the published state, and its reports. -/
namespace Roster.Session

namespace Watch

variable {w w' : Watch}

/-! What publishing and cancelling do -/

lemma publish_eq (w : Watch) (c : Connectivity) :
    w.publish c = { w with published := (w.publish c).published, log := (w.publish c).log } := by
  unfold publish
  split <;> rfl

lemma publish_of_ne {c : Connectivity} (h : w.published ≠ c) (hopen : w.published ≠ .closed) :
    w.publish c = { w with published := c }.note (.state c) :=
  if_neg (not_or.mpr ⟨h, hopen⟩)

lemma published_publish (w : Watch) (c : Connectivity) (h : w.published ≠ .closed) : (w.publish c).published = c := by
  unfold publish
  split
  · next hp => exact hp.resolve_right h
  · rfl

lemma cancelLive_of_none (h : w.live = none) : w.cancelLive = w := by
  unfold cancelLive
  rw [h]

lemma cancelLive_of_some {id : Nat} (h : w.live = some id) :
    w.cancelLive = { w with live := none, tokens := assign id true w.tokens }.note (.epochCancelled id) := by
  unfold cancelLive
  rw [h]

lemma cancelLive_eq (w : Watch) :
    w.cancelLive = { w with live := none, tokens := w.cancelLive.tokens, log := w.cancelLive.log } := by
  unfold cancelLive
  split
  · next h => rw [← h]
  · rfl

lemma tokens_cancelLive (w : Watch) (broken : List Nat) (reported : Bool) :
    ({ w with broken, reported } : Watch).cancelLive.tokens = w.cancelLive.tokens := by
  unfold cancelLive
  cases w.live <;> rfl

/-! What the watcher holds -/

structure Control (w : Watch) : Prop where
  ids : w.tokens.map (·.1) = List.range' 1 w.lastEpoch
  held : ∀ id, (id, false) ∈ w.tokens → w.live = some id
  attended : w.live ≠ none → w.watcher = .waiting ∧ w.published = .ready
  pausing : ∀ due, w.watcher = .pausing due → w.published = .ready
  fresh : w.watcher = .starting → w.lastEpoch = 0
  known : ∀ id ∈ w.broken, id ≤ w.lastEpoch
  idle : w.closing = false → w.closer = .idle
  past : w.closer.past = true → w.watcher = .stopped
  closed : w.published = .closed → w.closer.past = true
  /-- A watcher that waits without news has acted on what the transport reports. -/
  settled : w.watcher = .waiting → w.reported = false →
    (w.connectivity = .ready ∧ w.live ≠ none) ∨
      (w.connectivity ≠ .ready ∧ w.connectivity ≠ .closed ∧ w.live = none ∧ w.published = w.connectivity)

namespace Control

lemma dead (h : w.Control) (hw : w.watcher ≠ .waiting) : w.live = none := by
  by_contra! hl
  exact hw (h.attended hl).1

lemma open_ (h : w.Control) (hw : w.watcher ≠ .stopped) : w.published ≠ .closed := by
  intro hc
  exact hw (h.past (h.closed hc))

lemma awake_ne_stopped (h : w.Awake) : w.watcher ≠ .stopped := by
  cases h with
  | starting h => rw [h]; exact nofun
  | waiting h => rw [h]; exact nofun
  | resumed due h _ => rw [h]; exact nofun

lemma cancelled_tokens (h : w.Control) :
    w.cancelLive.tokens.map (·.1) = List.range' 1 w.lastEpoch ∧ ∀ id, (id, false) ∉ w.cancelLive.tokens := by
  cases hl : w.live with
  | none =>
    rw [cancelLive_of_none hl]
    refine ⟨h.ids, ?_⟩
    intro id hid
    exact absurd (h.held id hid) (by rw [hl]; exact nofun)
  | some live =>
    rw [cancelLive_of_some hl]
    refine ⟨(map_fst_assign live true w.tokens).trans h.ids, ?_⟩
    intro id hid
    obtain heq | ⟨hmem, hne⟩ := mem_assign hid
    · exact nomatch (Prod.mk.inj heq).2
    have hlive := h.held id hmem
    rw [hl, Option.some.injEq] at hlive
    exact hne hlive.symm

/-- The watcher lets its epoch go and does not wait for reports. -/
lemma letGo (h : w.Control) (watcher : Watcher) (broken : List Nat) (reported : Bool)
    (hnext : watcher = .stopped ∨ (∃ due, watcher = .pausing due) ∧ w.published = .ready ∧ w.watcher ≠ .stopped)
    (hb : ∀ id ∈ broken, id ∈ w.broken) :
    Control { ({ w with broken, reported } : Watch).cancelLive with watcher } := by
  rw [cancelLive_eq, tokens_cancelLive]
  obtain ⟨hids, hheld⟩ := h.cancelled_tokens
  have hquiet : watcher ≠ .starting ∧ watcher ≠ .waiting := by
    obtain rfl | ⟨⟨due, rfl⟩, -⟩ := hnext <;> exact ⟨nofun, nofun⟩
  exact {
    ids := hids
    held := fun id hid => absurd hid (hheld id)
    attended := fun hl => absurd rfl hl
    pausing := fun due hd => (hnext.resolve_left (by rintro rfl; exact nomatch hd)).2.1
    fresh := fun hf => absurd hf hquiet.1
    known := fun id hid => h.known id (hb id hid)
    idle := h.idle
    past := fun hp => hnext.resolve_right fun hn => hn.2.2 (h.past hp)
    closed := h.closed
    settled := fun hf => absurd hf hquiet.2 }

lemma begin (h : w.Control) (ha : w.Awake) (hc : w.connectivity = .ready) (hl : w.live = none) :
    Control { ({ w with reported := false } : Watch).beginEpoch with watcher := .waiting } := by
  have hopen := h.open_ (awake_ne_stopped ha)
  have hready : (({ w with reported := false } : Watch).publish .ready).published = .ready := published_publish _ _ hopen
  unfold beginEpoch
  dsimp only [note]
  rw [publish_eq]
  refine ⟨?ids, ?held, ?attended, nofun, nofun, ?known, h.idle, ?past, ?closed, ?settled⟩
  case ids =>
    have hids := h.ids
    rw [List.map_append, hids, List.range'_1_concat, Nat.add_comm]
    rfl
  case held =>
    intro id hid
    obtain hid | hid := List.mem_append.mp hid
    · exact absurd (h.held id hid) (by rw [hl]; exact nofun)
    · rw [(Prod.mk.inj (List.mem_singleton.mp hid)).1]
  case attended => exact fun _ => ⟨rfl, hready⟩
  case known => exact fun id hid => Nat.le_succ_of_le (h.known id hid)
  case past => exact fun hp => absurd (h.past hp) (awake_ne_stopped ha)
  case closed => exact fun hp => absurd (hready.symm.trans hp) nofun
  case settled => exact fun _ _ => .inl ⟨hc, nofun⟩

lemma depart (h : w.Control) (ha : w.Awake) (hr : w.connectivity ≠ .ready) (hc : w.connectivity ≠ .closed) :
    Control { ({ w with reported := false } : Watch).cancelLive.publish w.connectivity with watcher := .waiting } := by
  have hopen := h.open_ (awake_ne_stopped ha)
  have hview := cancelLive_eq { w with reported := false }
  have htokens := tokens_cancelLive w w.broken false
  obtain ⟨hids, hheld⟩ := h.cancelled_tokens
  rw [← htokens] at hids hheld
  have hpublished : (({ w with reported := false } : Watch).cancelLive.publish w.connectivity).published =
      w.connectivity := by
    apply published_publish
    rw [hview]
    exact hopen
  rw [publish_eq, hpublished]
  generalize (({ w with reported := false } : Watch).cancelLive.publish w.connectivity).log = log
  rw [hview]
  exact {
    ids := hids
    held := fun id hid => absurd hid (hheld id)
    attended := fun hl => absurd rfl hl
    pausing := nofun
    fresh := nofun
    known := h.known
    idle := h.idle
    past := fun hp => absurd (h.past hp) (awake_ne_stopped ha)
    closed := fun hp => absurd hp hc
    settled := fun _ _ => .inr ⟨hr, hc, rfl, rfl⟩ }

theorem step (h : w.Control) (hstep : Step w w') : w'.Control := by
  cases hstep with
  | elapse ms => exact ⟨h.ids, h.held, h.attended, h.pausing, h.fresh, h.known, h.idle, h.past, h.closed, h.settled⟩
  | report c =>
    exact ⟨h.ids, h.held, h.attended, h.pausing, h.fresh, h.known, h.idle, h.past, h.closed, fun _ hr => nomatch hr⟩
  | cancel => exact ⟨h.ids, h.held, h.attended, h.pausing, h.fresh, h.known, h.idle, h.past, h.closed, h.settled⟩
  | shut hc =>
    have hclosed : w.published ≠ .closed := by
      intro hp
      have hpast := h.closed hp
      rw [h.idle hc] at hpast
      exact nomatch hpast
    exact ⟨h.ids, h.held, h.attended, h.pausing, h.fresh, h.known, nofun, nofun, fun hp => absurd hp hclosed, h.settled⟩
  | drain c hc hw =>
    have hclosed : w.published ≠ .closed := by
      intro hp
      have hpast := h.closed hp
      rw [hc] at hpast
      exact nomatch hpast
    have hclosing : w.closing ≠ false := by
      intro hf
      have hidle := h.idle hf
      rw [hc] at hidle
      exact nomatch hidle
    exact ⟨h.ids, h.held, h.attended, h.pausing, h.fresh, h.known, fun hf => absurd hf hclosing, fun _ => hw,
      fun hp => absurd hp hclosed, h.settled⟩
  | unwind c hp hc =>
    have hclosing : w.closing ≠ false := by
      intro hf
      rw [h.idle hf] at hp
      exact nomatch hp
    exact ⟨h.ids, h.held, h.attended, h.pausing, h.fresh, h.known, fun hf => absurd hf hclosing, fun _ => h.past hp,
      fun _ => hc, h.settled⟩
  | closed hp =>
    have hstopped := h.past hp
    have hclosing : w.closing ≠ false := by
      intro hf
      rw [h.idle hf] at hp
      exact nomatch hp
    rw [publish_eq]
    exact {
      ids := h.ids
      held := h.held
      attended := fun hl => absurd (hstopped.symm.trans (h.attended hl).1) nofun
      pausing := fun due hd => absurd (hstopped.symm.trans hd) nofun
      fresh := h.fresh
      known := h.known
      idle := fun hf => absurd hf hclosing
      past := fun _ => hstopped
      closed := fun _ => rfl
      settled := fun hw => absurd (hstopped.symm.trans hw) nofun }
  | broke id hid =>
    have hle : id ≤ w.lastEpoch := by
      rw [h.ids, List.mem_range'_1] at hid
      omega
    refine ⟨h.ids, h.held, h.attended, h.pausing, h.fresh, ?_, h.idle, h.past, h.closed, h.settled⟩
    intro b hb
    obtain hb | hb := List.mem_append.mp hb
    · exact h.known b hb
    · exact (List.mem_singleton.mp hb) ▸ hle
  | stale id rest hw hb hl =>
    refine ⟨h.ids, h.held, h.attended, h.pausing, h.fresh, ?_, h.idle, h.past, h.closed, h.settled⟩
    intro b hmem
    exact h.known b (hb ▸ List.mem_cons_of_mem id hmem)
  | pause id rest hw hb hl =>
    have hready := (h.attended (by rw [hl]; exact nofun)).2
    exact h.letGo (.pausing (w.now + w.pause)) rest w.reported (.inr ⟨⟨_, rfl⟩, hready, by rw [hw]; exact nofun⟩)
      fun b hmem => hb ▸ List.mem_cons_of_mem id hmem
  | keep id ha hc hl =>
    obtain ⟨hw, hready⟩ := h.attended (by rw [hl]; exact nofun)
    exact ⟨h.ids, h.held, fun _ => ⟨rfl, hready⟩, nofun, nofun, h.known, h.idle,
      fun hp => absurd (h.past hp) (awake_ne_stopped ha), h.closed, fun _ _ => .inl ⟨hc, by rw [hl]; exact nofun⟩⟩
  | begin ha hc hl => exact h.begin ha hc hl
  | depart ha hr hc => exact h.depart ha hr hc
  | finish ha hc => exact h.letGo .stopped w.broken false (.inl rfl) fun _ hmem => hmem
  | quit hc hw => exact h.letGo .stopped w.broken w.reported (.inl rfl) fun _ hmem => hmem

end Control

theorem Control.steps (h : w.Control) (hsteps : Relation.ReflTransGen Step w w') : w'.Control := by
  induction hsteps with
  | refl => exact h
  | tail _ hstep ih => exact ih.step hstep

/-- No step takes back that the session is closing or that its tasks are told to stop. -/
lemma Step.flags (h : Step w w') :
    (w'.closing = false → w.closing = false) ∧ (w'.cancelled = false → w.cancelled = false) := by
  cases h with
  | cancel => exact ⟨fun hopen => hopen, nofun⟩
  | shut hc => exact ⟨fun _ => hc, nofun⟩
  | closed hp => rw [publish_eq]; exact ⟨fun hopen => hopen, fun hopen => hopen⟩
  | pause id rest hw hb hl => rw [cancelLive_eq]; exact ⟨fun hopen => hopen, fun hopen => hopen⟩
  | begin ha hc hl =>
    unfold beginEpoch
    dsimp only [Watch.note]
    rw [publish_eq]
    exact ⟨fun hopen => hopen, fun hopen => hopen⟩
  | depart ha hr hc => rw [publish_eq, cancelLive_eq]; exact ⟨fun hopen => hopen, fun hopen => hopen⟩
  | finish ha hc => rw [cancelLive_eq]; exact ⟨fun hopen => hopen, fun hopen => hopen⟩
  | quit hc hw => rw [cancelLive_eq]; exact ⟨fun hopen => hopen, fun hopen => hopen⟩
  | _ => exact ⟨fun hopen => hopen, fun hopen => hopen⟩

/-- What is open now was never closing. -/
theorem open_of_steps (hsteps : Relation.ReflTransGen Step w w') (hopen : w'.closing = false) : w.closing = false := by
  induction hsteps with
  | refl => exact hopen
  | tail _ hstep ih => exact ih (hstep.flags.1 hopen)

theorem uncancelled_of_steps (hsteps : Relation.ReflTransGen Step w w') (hopen : w'.cancelled = false) : w.cancelled = false := by
  induction hsteps with
  | refl => exact hopen
  | tail _ hstep ih => exact ih (hstep.flags.2 hopen)

theorem control_start (settings : Settings) (connectivity : Connectivity) (now : Nat) :
    (start settings connectivity now).watch.Control :=
  ⟨rfl, nofun, fun h => absurd rfl h, nofun, fun _ => rfl, nofun, fun _ => rfl, nofun, nofun, nofun⟩

end Watch

variable {s : Session}

lemma map_id_epochs (h : s.watch.Control) : s.epochs.map (·.id) = List.range' 1 s.lastEpoch := by
  have htokens : s.watch.tokens.map (·.1) = s.epochs.map (·.id) := List.map_map
  exact htokens.symm.trans h.ids

lemma live_of_uncancelled (h : s.watch.Control) {e : Epoch} (he : e ∈ s.epochs) (hc : e.cancelled = false) :
    s.live = some e.id :=
  h.held e.id (List.mem_map.mpr ⟨e, he, Prod.ext rfl hc⟩)

end Roster.Session
