import Roster.Session

/-! What a server without expiry holds for a client: the effects of the calls it answered Ok, in the order of the answers. -/
namespace Roster.Session

/-- The request of a call, by a history that begins with the newest event. -/
def requestOf? : List (Nat × Event) → Nat → Option Request
  | [], _ => none
  | (_, .called c _ request) :: older, call => if c = call then some request else requestOf? older call
  | _ :: older, call => requestOf? older call

/-- The answered calls, newest first. -/
def exchanges : List (Nat × Event) → List (Request × Answer)
  | [] => []
  | (_, .answered c answer) :: older =>
    match requestOf? older c with
    | some request => (request, answer) :: exchanges older
    | none => exchanges older
  | _ :: older => exchanges older

def serve (held : Keyed Member) : Request × Answer → Keyed Member
  | (.register m, .done) => held.insert m.id m
  | (.updateMetadata id delta, .done) =>
    match held[id]? with
    | some m => held.insert id (m.mergeMetadata delta)
    | none => held
  | (.unregister id, .done) => held.erase id
  | _ => held

def served (xs : List (Request × Answer)) : Keyed Member := xs.foldr (fun x held => serve held x) ∅

/-- A register or unregister of a member that was answered Ok. -/
def Settles (id : String) (x : Request × Answer) : Prop :=
  x = (.unregister id, .done) ∨ ∃ m : Member, m.id = id ∧ x = (.register m, .done)

/-- The server held a member when an unregister of it failed without being refused, and nothing settled it since. -/
def Stranded (xs : List (Request × Answer)) (id : String) : Prop :=
  ∃ newer f older, xs = newer ++ (.unregister id, .failed f) :: older ∧ f.isRejection = false ∧ id ∈ served older ∧
    ∀ x ∈ newer, ¬ Settles id x

/-- A request that changes what the server holds. -/
def Writes : Request → Bool
  | .register _ | .updateMetadata _ _ | .unregister _ => true
  | _ => false

variable {held : Keyed Member} {xs : List (Request × Answer)} {id : String}

theorem served_cons (x : Request × Answer) (xs : List (Request × Answer)) : served (x :: xs) = serve (served xs) x := rfl

theorem serve_of_not_done {r : Request} {a : Answer} (h : a ≠ .done) : serve held (r, a) = held := by
  cases a with
  | done => exact absurd rfl h
  | opened i => cases r <;> rfl
  | failed f => cases r <;> rfl

theorem serve_of_not_writes {r : Request} (a : Answer) (h : Writes r = false) : serve held (r, a) = held := by
  cases r with
  | register m => exact nomatch h
  | updateMetadata id delta => exact nomatch h
  | unregister id => exact nomatch h
  | subscribe known => cases a <;> rfl
  | heartbeat => cases a <;> rfl
  | close => cases a <;> rfl

theorem getElem?_serve_register (m : Member) :
    (serve held (.register m, .done))[id]? = if m.id = id then some m else held[id]? := by
  unfold serve
  rw [Std.ExtTreeMap.getElem?_insert]
  simp only [Std.LawfulEqCmp.compare_eq_iff_eq]

theorem getElem?_serve_unregister (member : String) :
    (serve held (.unregister member, .done))[id]? = if member = id then none else held[id]? := by
  unfold serve
  rw [Std.ExtTreeMap.getElem?_erase]
  simp only [Std.LawfulEqCmp.compare_eq_iff_eq]

/-- Members are held under their own id. -/
theorem id_of_getElem?_served {m : Member} (h : (served xs)[id]? = some m) : m.id = id := by
  induction xs generalizing m with
  | nil => exact nomatch (Std.ExtTreeMap.getElem?_empty (α := String) (a := id)).symm.trans h
  | cons x xs ih =>
    rw [served_cons] at h
    obtain ⟨r, a⟩ := x
    by_cases ha : a = .done
    · subst ha
      cases r with
      | register new =>
        rw [getElem?_serve_register] at h
        split at h
        · next heq => exact Option.some.inj h ▸ heq
        · exact ih h
      | updateMetadata member delta =>
        unfold serve at h
        dsimp only at h
        split at h
        · next old hold =>
          rw [Std.ExtTreeMap.getElem?_insert] at h
          split at h
          · next heq =>
            obtain rfl := Std.LawfulEqCmp.compare_eq_iff_eq.mp heq
            obtain rfl := Option.some.inj h
            have hid : old.id = member := ih hold
            exact hid
          · exact ih h
        · exact ih h
      | unregister member =>
        rw [getElem?_serve_unregister] at h
        split at h
        · exact nomatch h
        · exact ih h
      | subscribe known => exact ih h
      | heartbeat => exact ih h
      | close => exact ih h
    · rw [serve_of_not_done ha] at h
      exact ih h

theorem mem_serve_register (m : Member) : id ∈ serve held (.register m, .done) ↔ m.id = id ∨ id ∈ held := by
  unfold serve
  rw [Std.ExtTreeMap.mem_insert]
  simp only [Std.LawfulEqCmp.compare_eq_iff_eq]

theorem mem_serve_unregister (member : String) :
    id ∈ serve held (.unregister member, .done) ↔ member ≠ id ∧ id ∈ held := by
  unfold serve
  rw [Std.ExtTreeMap.mem_erase]
  simp only [ne_eq, Std.LawfulEqCmp.compare_eq_iff_eq]

theorem mem_serve_updateMetadata (member : String) (delta : Keyed String) (a : Answer) :
    id ∈ serve held (.updateMetadata member delta, a) ↔ id ∈ held := by
  cases a with
  | done =>
    unfold serve
    dsimp only
    split
    · next m hm =>
      rw [Std.ExtTreeMap.mem_insert]
      simp only [Std.LawfulEqCmp.compare_eq_iff_eq]
      constructor
      · rintro (rfl | hid)
        · exact Std.ExtTreeMap.mem_iff_isSome_getElem?.mpr (by rw [hm]; rfl)
        · exact hid
      · exact .inr
    · rfl
  | opened i => rfl
  | failed f => rfl

/-- Only a register or unregister of the member itself removes or adds it. -/
theorem mem_serve_of_not_settles {x : Request × Answer} (hx : ¬ Settles id x) : id ∈ serve held x ↔ id ∈ held := by
  obtain ⟨r, a⟩ := x
  by_cases ha : a = .done
  · subst ha
    cases r with
    | register m =>
      rw [mem_serve_register]
      exact or_iff_right fun hm => hx (.inr ⟨m, hm, rfl⟩)
    | updateMetadata member delta => exact mem_serve_updateMetadata member delta .done
    | unregister member =>
      rw [mem_serve_unregister]
      refine and_iff_right fun hm => hx (.inl ?_)
      rw [hm]
    | subscribe known => rfl
    | heartbeat => rfl
    | close => rfl
  · rw [serve_of_not_done ha]

theorem mem_served_of_stranded (h : Stranded xs id) : id ∈ served xs := by
  obtain ⟨newer, f, older, rfl, -, hmem, hnewer⟩ := h
  induction newer with
  | nil =>
    have hsame : serve (served older) (.unregister id, .failed f) = served older := serve_of_not_done (by exact nofun)
    show id ∈ serve (served older) (.unregister id, .failed f)
    rw [hsame]
    exact hmem
  | cons x newer ih =>
    rw [List.cons_append, served_cons, mem_serve_of_not_settles (hnewer x List.mem_cons_self)]
    exact ih fun y hy => hnewer y (List.mem_cons_of_mem x hy)

theorem stranded_cons (x : Request × Answer) (xs : List (Request × Answer)) (id : String) :
    Stranded (x :: xs) id ↔
      (∃ f, x = (.unregister id, .failed f) ∧ f.isRejection = false ∧ id ∈ served xs) ∨ (Stranded xs id ∧ ¬ Settles id x) := by
  constructor
  · rintro ⟨newer, f, older, heq, hf, hmem, hnewer⟩
    cases newer with
    | nil =>
      obtain ⟨rfl, rfl⟩ := List.cons.inj heq
      exact .inl ⟨f, rfl, hf, hmem⟩
    | cons y newer =>
      obtain ⟨rfl, rfl⟩ := List.cons.inj heq
      exact .inr ⟨⟨newer, f, older, rfl, hf, hmem, fun z hz => hnewer z (List.mem_cons_of_mem x hz)⟩,
        hnewer x List.mem_cons_self⟩
  · rintro (⟨f, rfl, hf, hmem⟩ | ⟨⟨newer, f, older, rfl, hf, hmem, hnewer⟩, hx⟩)
    · exact ⟨[], f, xs, rfl, hf, hmem, nofun⟩
    · refine ⟨x :: newer, f, older, rfl, hf, hmem, ?_⟩
      intro y hy
      obtain rfl | hy := List.mem_cons.mp hy
      · exact hx
      · exact hnewer y hy

/-! Histories -/

theorem called_of_requestOf? {history : List (Nat × Event)} {c : Nat} {r : Request} (h : requestOf? history c = some r) :
    ∃ time caller, (time, .called c caller r) ∈ history := by
  induction history with
  | nil => exact nomatch h
  | cons x history ih =>
    obtain ⟨time, e⟩ := x
    have hrest (hr : requestOf? history c = some r) : ∃ t caller, (t, .called c caller r) ∈ (time, e) :: history := by
      obtain ⟨t, caller, hmem⟩ := ih hr
      exact ⟨t, caller, List.mem_cons_of_mem _ hmem⟩
    cases e with
    | called n caller request =>
      rw [requestOf?] at h
      split at h
      · next hc =>
        obtain rfl := Option.some.inj h
        exact ⟨time, caller, hc ▸ List.mem_cons_self⟩
      · exact hrest h
    | _ => exact hrest h

theorem requestOf?_of_called {history : List (Nat × Event)} {c : Nat} {r : Request}
    (h : ∃ time caller, (time, .called c caller r) ∈ history)
    (hsame : ∀ time caller r', (time, .called c caller r') ∈ history → r' = r) : requestOf? history c = some r := by
  cases hr : requestOf? history c with
  | some r' =>
    obtain ⟨time, caller, hmem⟩ := called_of_requestOf? hr
    rw [hsame time caller r' hmem]
  | none =>
    exfalso
    obtain ⟨time, caller, hmem⟩ := h
    clear hsame
    induction history with
    | nil => exact nomatch hmem
    | cons x history ih =>
      obtain rfl | hmem := List.mem_cons.mp hmem
      · rw [requestOf?, if_pos rfl] at hr
        exact nomatch hr
      · refine ih ?_ hmem
        obtain ⟨t, e⟩ := x
        cases e with
        | called n asker request =>
          rw [requestOf?] at hr
          split at hr
          · exact nomatch hr
          · exact hr
        | _ => exact hr

/-- No unregister of the member was answered Ok in the newer part of a history. -/
def Untaken (id : String) (newer older : List (Nat × Event)) : Prop :=
  ∀ newest time c rest, newer = newest ++ (time, .answered c .done) :: rest →
    requestOf? (rest ++ older) c ≠ some (.unregister id)

theorem Untaken.cons {newer older : List (Nat × Event)} (h : Untaken id newer older) {x : Nat × Event}
    (hx : ∀ c, x.2 = .answered c .done → requestOf? (newer ++ older) c ≠ some (.unregister id)) :
    Untaken id (x :: newer) older := by
  intro newest time c rest heq
  cases newest with
  | nil =>
    obtain ⟨rfl, rfl⟩ := List.cons.inj heq
    exact hx c rfl
  | cons y newest => exact h newest time c rest (List.cons.inj heq).2

theorem Untaken.tail {newer older : List (Nat × Event)} {x : Nat × Event} (h : Untaken id (x :: newer) older) :
    Untaken id newer older :=
  fun newest time c rest heq => h (x :: newest) time c rest (congrArg _ heq)

/-- What one more event makes of it. -/
theorem mem_served_cons (x : Nat × Event) (older : List (Nat × Event)) : id ∈ served (exchanges (x :: older)) ↔
    (∃ c m, x.2 = .answered c .done ∧ requestOf? older c = some (.register m) ∧ m.id = id) ∨
      (id ∈ served (exchanges older) ∧ ∀ c, x.2 = .answered c .done → requestOf? older c ≠ some (.unregister id)) := by
  obtain ⟨time, e⟩ := x
  cases e with
  | answered c a =>
    by_cases ha : a = .done
    · subst ha
      cases hr : requestOf? older c with
      | none =>
        rw [exchanges, hr]
        simp [hr]
      | some r =>
        rw [exchanges, hr]
        cases r with
        | register m =>
          rw [served_cons, mem_serve_register]
          simp [hr]
        | unregister member =>
          rw [served_cons, mem_serve_unregister]
          simp [hr, and_comm]
        | _ =>
          rw [served_cons, mem_serve_of_not_settles (by simp [Settles])]
          simp [hr]
    · have hsame : id ∈ served (exchanges ((time, .answered c a) :: older)) ↔ id ∈ served (exchanges older) := by
        cases hr : requestOf? older c with
        | none => rw [exchanges, hr]
        | some r => rw [exchanges, hr, served_cons, serve_of_not_done ha]
      rw [hsame]
      simp [ha]
  | _ => simp [exchanges]

/-- The server owes a member it holds to the last call that settled it. -/
theorem mem_served_exchanges_iff {history : List (Nat × Event)} : id ∈ served (exchanges history) ↔
    ∃ newer time c older m, history = newer ++ (time, .answered c .done) :: older ∧ requestOf? older c = some (.register m) ∧
      m.id = id ∧ Untaken id newer ((time, .answered c .done) :: older) := by
  induction history with
  | nil => simp [exchanges, served]
  | cons x history ih =>
    rw [mem_served_cons, ih]
    constructor
    · rintro (⟨c, m, hx, hr, hid⟩ | ⟨⟨newer, time, c, older, m, rfl, hr, hid, huntaken⟩, hx⟩)
      · exact ⟨[], x.1, c, history, m, by rw [← hx]; rfl, hr, hid, fun newest time c rest heq => by simp at heq⟩
      · exact ⟨x :: newer, time, c, older, m, rfl, hr, hid, huntaken.cons hx⟩
    · rintro ⟨newer, time, c, older, m, heq, hr, hid, huntaken⟩
      cases newer with
      | nil =>
        obtain ⟨rfl, rfl⟩ := List.cons.inj heq
        exact .inl ⟨c, m, rfl, hr, hid⟩
      | cons y newer =>
        obtain ⟨rfl, rfl⟩ := List.cons.inj heq
        refine .inr ⟨⟨newer, time, c, older, m, rfl, hr, hid, huntaken.tail⟩, fun n hx => ?_⟩
        exact huntaken [] x.1 n newer (by rw [← hx]; rfl)

end Roster.Session
