import Roster.Proofs.Session.Overtaken

/-! A write of the application asks the server before it touches the registry. A rejection leaves everything as it was; any other
answer has the write performed here, also one that says nothing of the server's decision. -/
namespace Roster.Session

/-- What the write does to the registry here. -/
def Write.op : Write → Registry.Op
  | .register m => .registerLocal m
  | .updateMetadata id delta => .updateLocal id delta
  | .unregister id => .unregisterLocal id

/-- The member that is to be changed is the client's own. -/
def Write.finds (r : Registry) : Write → Bool
  | .register _ => true
  | .updateMetadata id _ | .unregister id => r.isLocal id

/-- The session with one more write, which failed at once. -/
def refuse (s : Session) (w : Write) (f : Failure) : Session :=
  ({ s with writings := s.writings ++ [⟨s.writings.length, w, .done (.error f)⟩] } : Session).note
    (.wrote s.writings.length (.error f))

/-- The callbacks of all subscribers after a change, each with what its filter selects. -/
def round (s : Session) (op : Registry.Op) : List (Nat × Event) :=
  (s.registry.audience.map fun sub =>
    (s.now, Event.notified sub.id ((s.registry.perform op).registry.members sub.filter))).reverse

variable {s s' : Session} {m : Move} {k j : Nat} {w : Writing}

/-! The moves that leave writes and the shutdown alone -/

def posts (s : Session) : List Writing × Bool × Closer := (s.writings, s.closing, s.closer)

theorem posts_of_errands {t : Session} {d : Errands} (h : t.errands = d) : t.posts = (d.writings, d.closing, d.closer) := h ▸ rfl

theorem posts_apply (s : Session) (op : Registry.Op) : (s.apply op).posts = s.posts := posts_of_errands (errands_apply s op)

theorem posts_setState (s : Session) (c : Connectivity) : (s.setState c).posts = s.posts := posts_of_errands (errands_setState s c)

theorem posts_beginAll (s : Session) (caller : Caller) (requests : List Request) :
    (s.beginAll caller requests).1.posts = s.posts := by
  rw [posts_of_errands (errands_beginAll s caller requests), Errands.beginAll_eq]
  rfl

theorem posts_abandon (s : Session) (ids : List Nat) : (s.abandon ids).posts = s.posts := posts_of_errands (errands_abandon s ids)

theorem posts_look (s : Session) : s.look.posts = s.posts := posts_of_errands (errands_look s)

theorem posts_cancelLive (s : Session) : s.cancelLive.posts = s.posts := posts_of_errands (errands_cancelLive s)

theorem posts_setRunner (s : Session) (id : Nat) (r : Runner) : (s.setRunner id r).posts = s.posts := rfl

theorem posts_reportBroken (s : Session) (id : Nat) : (s.reportBroken id).posts = s.posts := rfl

theorem posts_quitReading (s : Session) (id i : Nat) : (s.quitReading id i).posts = s.posts := by
  rw [quitReading, posts_reportBroken, posts_setRunner]
  rfl

/-- The move is one of a write or of the shutdown. -/
def Move.errand : Move → Bool
  | .write _ | .close | .proceed _ | .drained | .unregistered | .graceOver | .released => true
  | _ => false

theorem posts_of_step (h : s.step m = some s') (hm : m.errand = false) : s'.posts = s.posts := by
  cases m with
  | elapse | report | finish | drop =>
    obtain rfl := Option.some.inj h
    rfl
  | push =>
    obtain ⟨t, -, -, -, rfl⟩ := of_push h
    rfl
  | answer =>
    obtain ⟨x, a, -, -, -, hview⟩ := step_answer_errands h
    exact posts_of_errands hview
  | subscribe | unsubscribe =>
    obtain rfl := Option.some.inj h
    exact posts_apply s _
  | watchStart =>
    obtain ⟨-, rfl⟩ := of_watchStart h
    exact posts_look s
  | watchChange =>
    obtain ⟨-, -, rfl⟩ := of_watchChange h
    exact posts_look s
  | watchBroken =>
    obtain ⟨b, rest, -, -, ⟨-, rfl⟩ | ⟨-, rfl⟩⟩ := of_watchBroken h
    · exact posts_cancelLive { s with broken := rest }
    · exact posts_look { s with broken := rest }
  | watchResume =>
    obtain ⟨due, -, -, rfl⟩ := of_watchResume h
    exact posts_look s
  | watchStop =>
    obtain ⟨-, -, rfl⟩ := of_watchStop h
    exact posts_cancelLive s
  | restore =>
    obtain ⟨e, -, -, rfl⟩ := of_restore h
    exact posts_beginAll s _ _
  | openStream =>
    obtain ⟨e, calls, -, -, -, rfl⟩ := of_openStream h
    rfl
  | opened =>
    obtain ⟨e, call, deadline, a, -, -, -, ⟨i, -, rfl⟩ | ⟨-, rfl⟩⟩ := of_opened h <;> rfl
  | openTimeout =>
    obtain ⟨e, call, deadline, -, -, -, rfl⟩ := of_openTimeout h
    exact posts_abandon s [call]
  | take id =>
    obtain ⟨e, i, t, -, -, -, ⟨u, -, rfl⟩ | ⟨f, -, rfl⟩ | ⟨f, -, -, rfl⟩ | ⟨-, -, rfl⟩⟩ := of_take h
    · exact posts_apply (s.readOn id i (.update u)) (.applyRemote u)
    · rfl
    · exact posts_quitReading (s.readOn id i (.failure f)) id i
    · exact posts_quitReading s id i
  | stopRunner =>
    obtain ⟨e, -, -, ⟨calls, -, rfl⟩ | ⟨call, deadline, -, rfl⟩ | ⟨i, -, rfl⟩ | ⟨-, rfl⟩⟩ := of_stopRunner h
    · exact posts_abandon s calls
    · exact posts_abandon s [call]
    all_goals rfl
  | beat =>
    obtain ⟨e, due, -, -, rfl⟩ := of_beat h
    rfl
  | beatAnswered =>
    obtain ⟨e, call, deadline, due, a, -, -, -, ⟨f, -, rfl⟩ | ⟨-, rfl⟩⟩ := of_beatAnswered h <;> rfl
  | beatTimeout =>
    obtain ⟨e, call, deadline, due, -, -, -, rfl⟩ := of_beatTimeout h
    exact posts_abandon s [call]
  | stopHeart =>
    obtain ⟨e, -, -, ⟨call, deadline, due, -, rfl⟩ | ⟨-, rfl⟩⟩ := of_stopHeart h
    · exact posts_abandon s [call]
    · rfl
  | _ => exact nomatch hm

/-! A write is moved by its own steps alone -/

theorem writing?_of_posts {t : Session} (h : t.posts = s.posts) (k : Nat) : t.writing? k = s.writing? k := by
  have hwritings : t.writings = s.writings := congrArg Prod.fst h
  unfold writing?
  rw [hwritings]

theorem writing?_setProgress (s : Session) (j : Nat) (p : Progress) (k : Nat) :
    (s.setProgress j p).writing? k = if k = j then (s.writing? k).map ({ · with progress := p }) else s.writing? k := by
  have hsame : ((fun w : Writing => decide (w.id = k)) ∘ fun w => if w.id = j then { w with progress := p } else w) =
      fun w => decide (w.id = k) := by
    funext w
    simp only [Function.comp]
    split <;> rfl
  show (s.writings.map fun w => if w.id = j then { w with progress := p } else w).find? (·.id = k) = _
  rw [List.find?_map, hsame]
  show (s.writing? k).map _ = _
  cases hw : s.writing? k with
  | none => simp
  | some w =>
    have hid : w.id = k := by simpa using List.find?_some hw
    rw [Option.map_some, Option.map_some, hid]
    split <;> rfl

theorem writing?_effectWrite (s : Session) (hj : k ≠ j) (w : Write) : (s.effectWrite j w).writing? k = s.writing? k := by
  have hset {t : Session} (ht : t.posts = s.posts) (p : Progress) : (t.setProgress j p).writing? k = s.writing? k := by
    rw [writing?_setProgress, if_neg hj, writing?_of_posts ht]
  unfold effectWrite
  split
  · next member =>
    dsimp only
    split
    · exact hset ((posts_apply _ _).trans (posts_apply s _)) _
    · exact hset (posts_apply s _) _
  · exact hset (posts_apply s _) _
  · exact hset (posts_apply s _) _

theorem writing?_of_step (h : s.step m = some s') (hm : m ≠ .proceed k) (hw : s.writing? k = some w) :
    s'.writing? k = some w := by
  cases m with
  | write v =>
    obtain rfl := Option.some.inj h
    unfold startWrite
    dsimp only
    have hold (x : Writing) : (s.writings ++ [x]).find? (·.id = k) = some w := by
      rw [List.find?_append, show s.writings.find? (·.id = k) = some w from hw]
      rfl
    split <;> exact hold _
  | proceed j =>
    have hj : k ≠ j := fun heq => hm (heq ▸ rfl)
    obtain ⟨x, call, a, -, -, ⟨-, ⟨code, reason, -, rfl⟩ | ⟨-, rfl⟩⟩ | ⟨-, rfl⟩⟩ := of_proceed h
    · exact (writing?_setProgress (s.settle [call]) j _ k).trans ((if_neg hj).trans hw)
    · exact (writing?_effectWrite (s.settle [call]) hj x.write).trans hw
    · exact (writing?_setProgress (s.settle [call]) j _ k).trans ((if_neg hj).trans hw)
  | close =>
    obtain rfl := Option.some.inj h
    unfold startClose
    split <;> exact hw
  | drained =>
    obtain ⟨-, -, ⟨-, rfl⟩ | ⟨-, rfl⟩⟩ := of_afterDrain h
    · exact hw
    · exact (writing?_of_posts (posts_beginAll s .closer _) k).trans hw
  | unregistered =>
    obtain ⟨calls, deadline, -, -, rfl⟩ := of_unregistered h
    exact hw
  | graceOver =>
    obtain ⟨calls, deadline, -, -, rfl⟩ := of_graceOver h
    exact (writing?_of_posts (posts_abandon s calls) k).trans hw
  | released =>
    obtain ⟨call, -, -, rfl⟩ := of_released h
    have hview : (((s.settle [call]).apply .close).setState .closed).posts = s.posts :=
      (posts_setState _ _).trans (posts_apply (s.settle [call]) .close)
    exact (writing?_of_posts hview k).trans hw
  | _ => exact (writing?_of_posts (posts_of_step h rfl) k).trans hw

theorem writing?_of_run {moves : List Move} (hrun : s.run moves = some s') (hm : .proceed k ∉ moves) (hw : s.writing? k = some w) :
    s'.writing? k = some w := by
  induction moves generalizing s with
  | nil => exact Option.some.inj hrun ▸ hw
  | cons m moves ih =>
    rw [run_cons] at hrun
    obtain ⟨v, hstep, hrest⟩ := Option.bind_eq_some_iff.mp hrun
    have hne : m ≠ .proceed k := fun heq => hm (heq ▸ List.mem_cons_self)
    exact ih hrest (fun hmem => hm (List.mem_cons_of_mem _ hmem)) (writing?_of_step hstep hne hw)

/-! What an operation adds to the history -/

theorem history_deliver (s : Session) (deliveries : List (Nat × List Member)) :
    (deliveries.foldl (fun s x => s.note (.notified x.1 x.2)) s).history =
      (deliveries.map fun x => (s.now, Event.notified x.1 x.2)).reverse ++ s.history := by
  induction deliveries generalizing s with
  | nil => rfl
  | cons x deliveries ih =>
    rw [List.foldl_cons, ih, List.map_cons, List.reverse_cons, List.append_assoc]
    rfl

theorem now_apply (s : Session) (op : Registry.Op) : (s.apply op).now = s.now := by
  obtain ⟨history, heq⟩ := apply_eq s op
  rw [heq]

/-- An operation that changes what is stored has every subscriber called back once. -/
theorem history_apply_of_applies {op : Registry.Op} (hstored : s.registry.Stored) (ha : op.applies s.registry = true) :
    (s.apply op).history = s.round op ++ (s.now, .performed op) :: s.history := by
  have hdue : (s.registry.perform op).due = s.registry.audience := by
    rcases Registry.perform_due hstored.isLocal_eq op with ⟨-, hdue⟩ | ⟨filter, rfl, -, -, -⟩ | ⟨hno, -, -⟩
    · exact hdue
    · simp [Registry.Op.applies] at ha
    · simp [ha] at hno
  unfold apply
  dsimp only
  rw [history_deliver, Registry.Effect.deliveries, hdue, List.map_map]
  rfl

/-! What becomes of a write -/

theorem refusal_of_closing (h : s.closing = true) (w : Write) : s.refusal w = some .closed := if_pos h

theorem refusal_of_unknown (h : s.closing = false) {w : Write} (hw : w.finds s.registry = false) :
    s.refusal w = some (.unknownMember w.member) := by
  cases w <;> simp_all [refusal, Write.finds, Write.member]

theorem refusal_of_finds (h : s.closing = false) {w : Write} (hw : w.finds s.registry = true) : s.refusal w = none := by
  cases w <;> simp_all [refusal, Write.finds]

theorem startWrite_of_refusal {w : Write} {f : Failure} (h : s.refusal w = some f) : s.startWrite w = s.refuse w f := by
  unfold startWrite
  rw [h]
  rfl

theorem startWrite_of_finds (h : s.closing = false) {w : Write} (hw : w.finds s.registry = true) :
    s.startWrite w = { s.begin (.write s.writings.length) w.request with
      writings := s.writings ++ [⟨s.writings.length, w, .sending (s.lastCall + 1)⟩] } := by
  unfold startWrite
  rw [refusal_of_finds h hw]
  rfl

/-- The next write has a number of its own. -/
theorem writing?_next (h : s.errands.Accounts) : s.writing? s.writings.length = none := by
  refine List.find?_eq_none.mpr fun x hx => ?_
  have hmem : x.id ∈ s.writings.map (·.id) := List.mem_map_of_mem hx
  have hnumbered : s.writings.map (·.id) = List.range s.writings.length := h.numbered
  rw [hnumbered, List.mem_range] at hmem
  simpa using hmem.ne

/-- The write can be performed, and what it does changes the registry. -/
theorem applies_op (hsound : s.errands.Sound) (hopen : s.closing = false) {w : Write} (hw : w.finds s.registry = true) :
    w.op.applies s.registry = true := by
  cases w with
  | register member =>
    have hidle : s.closer = .idle := hsound.stages.idle hopen
    have hclosed : s.registry.closed = false := by
      rw [← Bool.not_eq_true]
      intro hc
      have hfinished : s.closer = .finished := hsound.stages.closed.mp hc
      simp [hidle] at hfinished
    simp [Write.op, Registry.Op.applies, hclosed]
  | updateMetadata id delta => exact hw
  | unregister id => exact hw

theorem effectWrite_of_open (hstored : s.registry.Stored) (hopen : s.closing = false) {w : Write}
    (hw : w.finds s.registry = true) (k : Nat) : s.effectWrite k w = (s.apply w.op).returnWrite k (.ok ()) := by
  cases w with
  | register member =>
    have hstill : (s.apply (.registerLocal member)).closing = false := (congrArg (·.2.1) (posts_apply s _)).trans hopen
    simp [effectWrite, Write.op, hstill]
  | updateMetadata id delta =>
    have howned : (s.registry.owned? id).isSome = true := (hstored.isLocal_eq id).symm.trans hw
    simp [effectWrite, Write.op, Registry.reply_updateLocal, howned]
  | unregister id => rfl

/-- A write asks first, and does nothing but by its answer. The write `k` and its call are known by their numbers. -/
structure CallsFirst (s : Session) : Prop where
  closed : s.closing = true → ∀ w, s.step (.write w) = some (s.refuse w .closed)
  unknown : s.closing = false → ∀ w, w.finds s.registry = false → s.step (.write w) = some (s.refuse w (.unknownMember w.member))
  /-- To begin with, a write only asks. -/
  asks : s.closing = false → ∀ w, w.finds s.registry = true → ∃ t, s.step (.write w) = some t ∧ t.registry = s.registry ∧
    t.history = (s.now, .called (s.lastCall + 1) (.write s.writings.length) w.request) :: s.history ∧
    t.writing? s.writings.length = some ⟨s.writings.length, w, .sending (s.lastCall + 1)⟩
  /-- It has no step of its own before the answer, and has not returned. -/
  waits : ∀ k w call, s.writing? k = some ⟨k, w, .sending call⟩ →
    (∃ c, s.call? call = some c ∧ c.caller = .write k ∧ c.request = w.request) ∧
      (∀ time result, (time, .wrote k result) ∉ s.history) ∧ (s.answer? call = none → s.step (.proceed k) = none)
  /-- The steps of others do not move it. -/
  undisturbed : ∀ k w moves t, s.writing? k = some w → .proceed k ∉ moves → s.run moves = some t → t.writing? k = some w
  /-- A rejection is returned, and that is all. -/
  rejected : ∀ k w call f, s.writing? k = some ⟨k, w, .sending call⟩ → s.answer? call = some (.failed f) →
    f.isRejection = true → ∃ t, s.step (.proceed k) = some t ∧ t.registry = s.registry ∧
      t.history = (s.now, .wrote k (.error f)) :: s.history ∧ t.writing? k = some ⟨k, w, .done (.error f)⟩
  /-- After any other answer the write is performed, all subscribers are called back, and it returns. -/
  performed : ∀ k w call a, s.writing? k = some ⟨k, w, .sending call⟩ → s.answer? call = some a →
    (∀ f, a = .failed f → f.isRejection = false) → s.closing = false → w.finds s.registry = true →
      ∃ t, s.step (.proceed k) = some t ∧ t.registry = (s.registry.perform w.op).registry ∧
        t.history = (s.now, .wrote k (.ok ())) :: (s.round w.op ++ (s.now, .performed w.op) :: s.history) ∧
        t.writing? k = some ⟨k, w, .done (.ok ())⟩
  /-- A write that has returned takes no further step. -/
  done : ∀ k w result, s.writing? k = some ⟨k, w, .done result⟩ → s.step (.proceed k) = none

/-! The steps of a write -/

theorem proceed_of_unanswered {w : Write} {call : Nat} (hw : s.writing? k = some ⟨k, w, .sending call⟩)
    (ha : s.answer? call = none) : s.step (.proceed k) = none := by
  show s.proceed k = none
  unfold proceed
  rw [hw, Option.bind_eq_bind, Option.bind_some]
  dsimp only
  rw [ha]

theorem proceed_of_done {w : Write} {result : Except Failure Unit} (hw : s.writing? k = some ⟨k, w, .done result⟩) :
    s.step (.proceed k) = none := by
  show s.proceed k = none
  unfold proceed
  rw [hw, Option.bind_eq_bind, Option.bind_some]

theorem proceed_of_rejected {w : Write} {call : Nat} {f : Failure} (hw : s.writing? k = some ⟨k, w, .sending call⟩)
    (ha : s.answer? call = some (.failed f)) (hf : f.isRejection = true) :
    s.step (.proceed k) = some ((s.settle [call]).returnWrite k (.error f)) := by
  show s.proceed k = _
  unfold proceed
  rw [hw, Option.bind_eq_bind, Option.bind_some]
  dsimp only
  rw [ha]
  cases f with
  | rejected code reason => rfl
  | _ => exact nomatch hf

theorem proceed_of_unrejected {w : Write} {call : Nat} {a : Answer} (hw : s.writing? k = some ⟨k, w, .sending call⟩)
    (ha : s.answer? call = some a) (hr : ∀ f, a = .failed f → f.isRejection = false) :
    s.step (.proceed k) = some ((s.settle [call]).effectWrite k w) := by
  show s.proceed k = _
  unfold proceed
  rw [hw, Option.bind_eq_bind, Option.bind_some]
  dsimp only
  rw [ha]
  split
  · next hnone => exact nomatch hnone
  · next code reason heq => exact nomatch hr _ (Option.some.inj heq)
  · rfl

theorem writing?_returnWrite (s : Session) (k : Nat) (result : Except Failure Unit) :
    (s.returnWrite k result).writing? k = (s.writing? k).map ({ · with progress := .done result }) :=
  (writing?_setProgress s k (.done result) k).trans (if_pos rfl)

/-- A write that waits for its answer has not returned. -/
theorem not_wrote_of_sending (h : s.errands.Accounts) {w : Write} {call : Nat} (hw : s.writing? k = some ⟨k, w, .sending call⟩)
    (time : Nat) (result : Except Failure Unit) : (time, .wrote k result) ∉ s.history := by
  intro hwrote
  have hmem : ⟨k, w, .sending call⟩ ∈ s.errands.writings := List.mem_of_find?_eq_some hw
  obtain ⟨x, hx, hid, hp⟩ := h.returned k result ((mem_log rfl).mpr ⟨time, hwrote⟩)
  rw [h.same_write hx hmem hid] at hp
  exact nomatch hp

/-- In every run the writes of the application ask the server first and do only what the answer allows. -/
theorem writes_call_first {settings : Settings} {connectivity : Connectivity} {now : Nat} {moves : List Move}
    (hrun : (start settings connectivity now).run moves = some s) : s.CallsFirst := by
  have hsound := sound_errands hrun
  refine { closed := ?closed, unknown := ?unknown, asks := ?asks, waits := ?waits, undisturbed := ?undisturbed,
           rejected := ?rejected, performed := ?performed, done := ?done }
  case closed => exact fun hc w => congrArg some (startWrite_of_refusal (refusal_of_closing hc w))
  case unknown => exact fun hopen w hw => congrArg some (startWrite_of_refusal (refusal_of_unknown hopen hw))
  case asks =>
    intro hopen w hw
    refine ⟨_, congrArg some (startWrite_of_finds hopen hw), rfl, rfl, ?_⟩
    have hnone : s.writings.find? (·.id = s.writings.length) = none := writing?_next hsound.accounts
    show (s.writings ++ [(⟨s.writings.length, w, .sending (s.lastCall + 1)⟩ : Writing)]).find? (·.id = s.writings.length) = _
    rw [List.find?_append, hnone]
    simp
  case waits =>
    intro k w call hw
    have hmem : ⟨k, w, .sending call⟩ ∈ s.errands.writings := List.mem_of_find?_eq_some hw
    exact ⟨hsound.accounts.writing _ hmem call w.request rfl, not_wrote_of_sending hsound.accounts hw, proceed_of_unanswered hw⟩
  case undisturbed => exact fun k w moves t hw hmoves hlater => writing?_of_run hlater hmoves hw
  case rejected =>
    intro k w call f hw ha hf
    refine ⟨_, proceed_of_rejected hw ha hf, rfl, rfl, ?_⟩
    have hsettle : (s.settle [call]).writing? k = some ⟨k, w, .sending call⟩ := hw
    rw [writing?_returnWrite, hsettle]
    rfl
  case performed =>
    intro k w call a hw ha hr hopen hfinds
    have hstored : (s.settle [call]).registry.Stored := hsound.stages.stored
    have heffect := effectWrite_of_open hstored hopen hfinds k
    have happlies : w.op.applies (s.settle [call]).registry = true := applies_op hsound hopen hfinds
    refine ⟨_, (proceed_of_unrejected hw ha hr).trans (congrArg some heffect), ?_, ?_, ?_⟩
    · obtain ⟨history, heq⟩ := apply_eq (s.settle [call]) w.op
      rw [heq]
      rfl
    · show (((s.settle [call]).apply w.op).now, Event.wrote k (.ok ())) :: ((s.settle [call]).apply w.op).history = _
      rw [now_apply, history_apply_of_applies hstored happlies]
      rfl
    · have hkept : ((s.settle [call]).apply w.op).writing? k = some ⟨k, w, .sending call⟩ :=
        (writing?_of_posts (posts_apply (s.settle [call]) w.op) k).trans hw
      rw [writing?_returnWrite, hkept]
      rfl
  case done => exact fun k w result hw => proceed_of_done hw

/-- A registration cannot reach the server. -/
def unreached : List Move :=
  [.subscribe none, .write (.register (Member.new "a" "web")), .answer 1 (some (.unavailable "down"))]

/-- It is performed here, and a change of the member's metadata is rejected later. -/
def rejectedLater : List Move :=
  [.proceed 0, .write (.updateMetadata "a" ∅), .answer 2 (some (.rejected .notFound "no such member"))]

theorem performed_then_rejected :
    ∃ s t u v, (start {} .ready 0).run unreached = some s ∧ s.step (.proceed 0) = some t ∧
      t.history = (0, .wrote 0 (.ok ())) :: (0, .notified 1 [Member.new "a" "web"]) ::
        (0, .performed (.registerLocal (Member.new "a" "web"))) :: s.history ∧
      s.run rejectedLater = some u ∧ u.step (.proceed 1) = some v ∧ v.registry = u.registry ∧
      v.history = (0, .wrote 1 (.error (.rejected .notFound "no such member"))) :: u.history ∧
      u.step (.write (.unregister "b")) = some (u.refuse (.unregister "b") (.unknownMember "b")) := by
  obtain ⟨s, u, hs, hlater, hu, hsending, hanswer, hround, hopen, hsending', hanswer', hopen', hnow, hnow', hother⟩ : ∃ s u,
      (start {} .ready 0).run unreached = some s ∧ s.run rejectedLater = some u ∧
      (start {} .ready 0).run (unreached ++ rejectedLater) = some u ∧
      s.writing? 0 = some ⟨0, .register (Member.new "a" "web"), .sending 1⟩ ∧
      s.answer? 1 = some (.failed (.unavailable "down")) ∧
      s.round (.registerLocal (Member.new "a" "web")) = [(0, .notified 1 [Member.new "a" "web"])] ∧ s.closing = false ∧
      u.writing? 1 = some ⟨1, .updateMetadata "a" ∅, .sending 2⟩ ∧
      u.answer? 2 = some (.failed (.rejected .notFound "no such member")) ∧ u.closing = false ∧ s.now = 0 ∧ u.now = 0 ∧
      u.registry.isLocal "b" = false :=
    ⟨_, _, rfl, rfl, rfl, rfl, rfl, rfl, rfl, rfl, rfl, rfl, rfl, rfl, by decide +kernel⟩
  have hasked := writes_call_first hs
  obtain ⟨t, ht, -, hperformed, -⟩ := hasked.performed 0 _ 1 _ hsending hanswer (by simp [Failure.isRejection]) hopen rfl
  rw [Write.op, hround, hnow] at hperformed
  have hasked' := writes_call_first hu
  obtain ⟨v, hv, hsame, hrejected, -⟩ := hasked'.rejected 1 _ 2 _ hsending' hanswer' rfl
  rw [hnow'] at hrejected
  exact ⟨s, t, u, v, hs, ht, hperformed, hlater, hv, hsame, hrejected, hasked'.unknown hopen' (.unregister "b") hother⟩

end Roster.Session
