import Roster.Proofs.Session.Moves

/-! The history only grows: what a run adds comes before all that was there. -/
namespace Roster.Session

variable {s s' : Session}

theorem history_note (s : Session) (e : Event) : s.history <:+ (s.note e).history := List.suffix_cons _ _

theorem history_setState (s : Session) (c : Connectivity) : s.history <:+ (s.setState c).history := by
  unfold setState
  split
  · exact List.suffix_refl _
  · exact history_note _ _

theorem history_apply (s : Session) (op : Registry.Op) : s.history <:+ (s.apply op).history := by
  unfold apply
  dsimp only
  refine List.foldlRecOn (motive := fun t : Session => s.history <:+ t.history) _ _ (List.suffix_cons _ _) fun t ht d _ => ?_
  exact ht.trans (history_note t _)

theorem history_begin (s : Session) (caller : Caller) (request : Request) : s.history <:+ (s.begin caller request).history :=
  List.suffix_cons _ _

theorem history_beginAll (s : Session) (caller : Caller) (requests : List Request) :
    s.history <:+ (s.beginAll caller requests).1.history :=
  List.foldlRecOn (motive := fun t : Session => s.history <:+ t.history) _ _ (List.suffix_refl _) fun t ht r _ =>
    ht.trans (history_begin t caller r)

theorem history_abandon (s : Session) (ids : List Nat) : s.history <:+ (s.abandon ids).history := by
  unfold abandon
  dsimp only
  refine List.foldlRecOn (motive := fun t : Session => s.history <:+ t.history) _ _ (List.suffix_refl _) fun t ht c _ => ?_
  split
  · exact ht.trans (List.suffix_cons _ _)
  · exact ht.trans (history_note t _)

theorem history_cancelLive (s : Session) : s.history <:+ s.cancelLive.history := by
  unfold cancelLive
  split
  · exact List.suffix_refl _
  · exact List.suffix_cons _ _

theorem history_look (s : Session) : s.history <:+ s.look.history := by
  unfold look
  dsimp only
  split
  · split
    · exact (history_setState { s with reported := false } .ready).trans (List.suffix_cons _ _)
    · exact List.suffix_refl _
  · exact history_cancelLive { s with reported := false }
  · exact (history_cancelLive { s with reported := false }).trans (history_setState _ _)

theorem history_quitReading (s : Session) (id i : Nat) : s.history <:+ (s.quitReading id i).history := List.suffix_cons _ _

theorem history_readOn (s : Session) (id i : Nat) (item : Item) : s.history <:+ (s.readOn id i item).history :=
  List.suffix_cons _ _

theorem history_effectWrite (s : Session) (id : Nat) (w : Write) : s.history <:+ (s.effectWrite id w).history := by
  unfold effectWrite
  split
  · next m =>
    dsimp only
    have hregister := history_apply s (.registerLocal m)
    split
    · exact (hregister.trans (history_apply _ (.unregisterLocal m.id))).trans (List.suffix_cons _ _)
    · exact hregister.trans (List.suffix_cons _ _)
  · exact (history_apply s _).trans (List.suffix_cons _ _)
  · exact (history_apply s _).trans (List.suffix_cons _ _)

theorem history_startWrite (s : Session) (w : Write) : s.history <:+ (s.startWrite w).history := by
  unfold startWrite
  dsimp only
  split <;> exact List.suffix_cons _ _

theorem history_step {m : Move} (h : s.step m = some s') : s.history <:+ s'.history := by
  cases m with
  | elapse ms =>
    obtain rfl := Option.some.inj h
    exact List.suffix_refl _
  | report c =>
    obtain rfl := Option.some.inj h
    exact List.suffix_refl _
  | answer call failure =>
    obtain ⟨c, -, -, ⟨f, -, rfl⟩ | ⟨known, -, -, rfl⟩ | ⟨-, -, rfl⟩ | ⟨-, -, -, rfl⟩⟩ := of_answer h
    all_goals exact List.suffix_cons _ _
  | push i item =>
    obtain ⟨t, -, -, -, rfl⟩ := of_push h
    exact List.suffix_refl _
  | finish i =>
    obtain rfl := Option.some.inj h
    exact List.suffix_refl _
  | write w =>
    obtain rfl := Option.some.inj h
    exact history_startWrite s w
  | close =>
    obtain rfl := Option.some.inj h
    unfold startClose
    split
    · exact history_note s _
    · exact List.suffix_refl _
  | drop =>
    obtain rfl := Option.some.inj h
    exact List.suffix_refl _
  | subscribe f =>
    obtain rfl := Option.some.inj h
    exact history_apply s _
  | unsubscribe n =>
    obtain rfl := Option.some.inj h
    exact history_apply s _
  | watchStart =>
    obtain ⟨-, rfl⟩ := of_watchStart h
    exact history_look s
  | watchChange =>
    obtain ⟨-, -, rfl⟩ := of_watchChange h
    exact history_look s
  | watchBroken =>
    obtain ⟨b, rest, -, -, ⟨-, rfl⟩ | ⟨-, rfl⟩⟩ := of_watchBroken h
    · exact history_cancelLive { s with broken := rest }
    · exact history_look { s with broken := rest }
  | watchResume =>
    obtain ⟨due, -, -, rfl⟩ := of_watchResume h
    exact history_look s
  | watchStop =>
    obtain ⟨-, -, rfl⟩ := of_watchStop h
    exact history_cancelLive s
  | restore id =>
    obtain ⟨e, -, -, rfl⟩ := of_restore h
    exact history_beginAll s _ _
  | openStream id =>
    obtain ⟨e, calls, -, -, -, rfl⟩ := of_openStream h
    exact List.suffix_cons _ _
  | opened id =>
    obtain ⟨e, call, deadline, a, -, -, -, ⟨i, -, rfl⟩ | ⟨-, rfl⟩⟩ := of_opened h
    all_goals exact List.suffix_cons _ _
  | openTimeout id =>
    obtain ⟨e, call, deadline, -, -, -, rfl⟩ := of_openTimeout h
    exact (history_abandon s [call]).trans (List.suffix_cons _ _)
  | take id =>
    obtain ⟨e, i, t, -, -, -, ⟨u, -, rfl⟩ | ⟨f, -, rfl⟩ | ⟨f, -, -, rfl⟩ | ⟨-, -, rfl⟩⟩ := of_take h
    · exact (history_readOn s id i _).trans (history_apply _ _)
    · exact history_readOn s id i _
    · exact (history_readOn s id i _).trans (history_quitReading _ id i)
    · exact history_quitReading s id i
  | stopRunner id =>
    obtain ⟨e, -, -, ⟨calls, -, rfl⟩ | ⟨call, deadline, -, rfl⟩ | ⟨i, -, rfl⟩ | ⟨-, rfl⟩⟩ := of_stopRunner h
    · exact history_abandon s calls
    · exact history_abandon s [call]
    · exact List.suffix_refl _
    · exact List.suffix_refl _
  | beat id =>
    obtain ⟨e, due, -, -, rfl⟩ := of_beat h
    exact List.suffix_cons _ _
  | beatAnswered id =>
    obtain ⟨e, call, deadline, due, a, -, -, -, ⟨f, -, rfl⟩ | ⟨-, rfl⟩⟩ := of_beatAnswered h
    · exact List.suffix_cons _ _
    · exact List.suffix_refl _
  | beatTimeout id =>
    obtain ⟨e, call, deadline, due, -, -, -, rfl⟩ := of_beatTimeout h
    exact (history_abandon s [call]).trans (List.suffix_cons _ _)
  | stopHeart id =>
    obtain ⟨e, -, -, ⟨call, deadline, due, -, rfl⟩ | ⟨-, rfl⟩⟩ := of_stopHeart h
    · exact history_abandon s [call]
    · exact List.suffix_refl _
  | proceed id =>
    obtain ⟨w, call, a, -, -, ⟨-, ⟨code, reason, -, rfl⟩ | ⟨-, rfl⟩⟩ | ⟨-, rfl⟩⟩ := of_proceed h
    · exact List.suffix_cons _ _
    · exact history_effectWrite (s.settle [call]) id w.write
    · exact List.suffix_cons _ _
  | drained =>
    obtain ⟨-, -, ⟨-, rfl⟩ | ⟨-, rfl⟩⟩ := of_afterDrain h
    · exact List.suffix_cons _ _
    · exact history_beginAll s _ _
  | unregistered =>
    obtain ⟨calls, deadline, -, -, rfl⟩ := of_unregistered h
    exact List.suffix_cons _ _
  | graceOver =>
    obtain ⟨calls, deadline, -, -, rfl⟩ := of_graceOver h
    exact (history_abandon s calls).trans (List.suffix_cons _ _)
  | released =>
    obtain ⟨call, -, -, rfl⟩ := of_released h
    exact ((history_apply (s.settle [call]) .close).trans (history_setState _ .closed)).trans (List.suffix_cons _ _)

/-- What was noted stays noted, in its place. -/
theorem history_run {moves : List Move} (h : s.run moves = some s') : ∃ newer, s'.history = newer ++ s.history := by
  obtain ⟨newer, hnewer⟩ := run_induction (P := fun t => s.history <:+ t.history) h (List.suffix_refl _)
    fun _ _ _ ht hm => ht.trans (history_step hm)
  exact ⟨newer, hnewer.symm⟩

end Roster.Session
