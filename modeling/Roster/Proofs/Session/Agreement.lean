import Roster.Proofs.Session.Ledger

/-! What a client owns agrees with what the server holds for it, stranded members aside, as long as its writes are apart. The
agreement is partial while a write is in flight and complete once an epoch has registered the members again. -/
namespace Roster.Session

namespace Desk

variable {d d' : Desk}

structure Agreement (d : Desk) : Prop where
  keyed : ∀ id m, d.owned id = some m → m.id = id
  restored : ∀ e calls, (e, .restoring calls) ∈ d.runners → ∀ c ∈ calls,
    ∃ m : Member, d.requested c = some (.register m) ∧ d.owned m.id = some m
  complete : ∀ e calls, (e, .restoring calls) ∈ d.runners → ∀ id m, d.owned id = some m →
    ∃ c ∈ calls, ∃ k, d.calls c = some k ∧ k.request = .register m ∧
      (k.answer = some .done → (served d.exchanges)[id]? = some m ∧ ¬ Stranded d.exchanges id)
  /-- The server holds what the client does not own only after a failed removal, or before a registration returns. -/
  foreign : ∀ id, d.owned id = none → id ∈ served d.exchanges → Stranded d.exchanges id ∨
    ∃ w ∈ d.writings, ∃ m c k, w.write = .register m ∧ m.id = id ∧ w.progress = .sending c ∧ d.calls c = some k ∧
      k.answer = some .done
  removing : ∀ w ∈ d.writings, ∀ id c k a, w.write = .unregister id → w.progress = .sending c → d.calls c = some k →
    k.answer = some a → (∀ code reason, a ≠ .failed (.rejected code reason)) → id ∈ served d.exchanges →
      Stranded d.exchanges id

namespace Agreement

/-- Calls of other tasks are taken up. -/
lemma settle (h : d.Agreement) (hbooks : d.Books) {ids : List Nat}
    (hids : ∀ c ∈ ids, ∀ r, d.requested c = some r → Writes r = false) : (d.settle ids).Agreement where
  keyed := h.keyed
  restored := h.restored
  complete := by
    intro e calls he id m hm
    obtain ⟨c, hc, k, hk, hr, hdone⟩ := h.complete e calls he id m hm
    have hne : c ∉ ids := by
      intro hmem
      have hwrites := hids c hmem _ (hbooks.asked c k hk).2
      rw [hr] at hwrites
      exact nomatch hwrites
    exact ⟨c, hc, k, (if_neg hne).trans hk, hr, hdone⟩
  foreign := by
    intro id hnone hmem
    obtain hs | ⟨w, hw, m, c, k, hwrite, hid, hp, hk, hdone⟩ := h.foreign id hnone hmem
    · exact .inl hs
    · have hne : c ∉ ids := by
        intro hmem
        have hwrites := hids c hmem _ (hbooks.writing w hw c hp)
        rw [hwrite] at hwrites
        exact nomatch hwrites
      exact .inr ⟨w, hw, m, c, k, hwrite, hid, hp, (if_neg hne).trans hk, hdone⟩
  removing := by
    intro w hw id c k a hwrite hp hk
    exact h.removing w hw id c k a hwrite hp (Owned.of_calls_settle (d := d) hk).1

lemma begin (h : d.Agreement) (hbooks : d.Books) (caller : Caller) (request : Request) :
    (d.begin caller request).Agreement where
  keyed := h.keyed
  restored := by
    intro e calls he c hc
    obtain ⟨m, hr, hm⟩ := h.restored e calls he c hc
    exact ⟨m, hbooks.requested_begin hr caller request, hm⟩
  complete := by
    intro e calls he id m hm
    obtain ⟨c, hc, k, hk, hr, hdone⟩ := h.complete e calls he id m hm
    exact ⟨c, hc, k, Books.calls_begin_old hk caller request, hr, hdone⟩
  foreign := by
    intro id hnone hmem
    obtain hs | ⟨w, hw, m, c, k, hwrite, hid, hp, hk, hdone⟩ := h.foreign id hnone hmem
    · exact .inl hs
    · exact .inr ⟨w, hw, m, c, k, hwrite, hid, hp, Books.calls_begin_old hk caller request, hdone⟩
  removing := by
    intro w hw id c k a hwrite hp hk ha
    obtain hk | ⟨-, rfl⟩ := Books.of_calls_begin hk
    · exact h.removing w hw id c k a hwrite hp hk ha
    · exact nomatch ha

/-- Runners change, but none begins or stops registering the members. -/
lemma setRunners (h : d.Agreement) (runners : List (Nat × Runner)) (hearts : List (Nat × Heart))
    (hr : ∀ e calls, (e, .restoring calls) ∈ runners → (e, .restoring calls) ∈ d.runners) :
    Agreement { d with runners, hearts } :=
  ⟨h.keyed, fun e calls he => h.restored e calls (hr e calls he), fun e calls he => h.complete e calls (hr e calls he),
    h.foreign, h.removing⟩

lemma enter (h : d.Agreement) {w : Writing} (hw : ∀ c k, w.progress = .sending c → d.calls c = some k → k.answer = none) :
    Agreement { d with writings := d.writings ++ [w] } where
  keyed := h.keyed
  restored := h.restored
  complete := h.complete
  foreign := by
    intro id hnone hmem
    obtain hs | ⟨x, hx, m, c, k, hfacts⟩ := h.foreign id hnone hmem
    · exact .inl hs
    · exact .inr ⟨x, List.mem_append_left _ hx, m, c, k, hfacts⟩
  removing := by
    intro x hx id c k a hwrite hp hk ha
    obtain hx | hx := List.mem_append.mp hx
    · exact h.removing x hx id c k a hwrite hp hk ha
    · obtain rfl := List.mem_singleton.mp hx
      exact nomatch (hw c k hp hk).symm.trans ha

/-- An epoch begins to register all the members. -/
lemma restore (h : d.Agreement) (hbooks : d.Books) {id : Nat} {ms : List Member}
    (hms : ∀ m, m ∈ ms ↔ ∃ id, d.owned id = some m) (hapart : ∀ w ∈ d.writings, ∀ c, w.progress ≠ .sending c) :
    ((ms.foldl (fun d m => d.begin (.epoch id) (.register m)) d).setRunner id
      (.restoring ((List.range ms.length).map (d.lastCall + 1 + ·)))).Agreement := by
  have hregistering := hbooks.register id ms
  generalize ms.foldl (fun d m => d.begin (.epoch id) (.register m)) d = d' at *
  generalize (List.range ms.length).map (d.lastCall + 1 + ·) = ids at *
  -- Other epochs may still be registering the members; their calls stay as they are.
  have hruns {e : Nat} {calls : List Nat} (he : (e, .restoring calls) ∈ (d'.setRunner id (.restoring ids)).runners) :
      calls = ids ∨ (e, .restoring calls) ∈ d.runners := by
    obtain heq | ⟨he, -⟩ := mem_assign he
    · exact .inl (Runner.restoring.inj (Prod.mk.inj heq).2)
    · rw [hregistering.frame] at he
      exact .inr he
  have howned : d'.owned = d.owned := by rw [hregistering.frame]
  have hexchanges : d'.exchanges = d.exchanges := by rw [hregistering.frame]
  constructor
  case keyed =>
    show ∀ id m, d'.owned id = some m → m.id = id
    rw [howned]
    exact h.keyed
  case restored =>
    intro e calls he c hc
    show ∃ m : Member, d'.requested c = some (.register m) ∧ d'.owned m.id = some m
    rw [howned]
    obtain rfl | he := hruns he
    · obtain ⟨m, hm, hr⟩ := hregistering.asked c hc
      obtain ⟨key, hkey⟩ := (hms m).mp hm
      exact ⟨m, hr, (h.keyed key m hkey).symm ▸ hkey⟩
    · obtain ⟨m, hr, hm⟩ := h.restored e calls he c hc
      exact ⟨m, hregistering.kept c _ hr, hm⟩
  case complete =>
    intro e calls he key m hm
    have hkey : d.owned key = some m := howned ▸ hm
    obtain rfl | he := hruns he
    · obtain ⟨c, hc, k, hk, hr, ha⟩ := hregistering.each m ((hms m).mpr ⟨key, hkey⟩)
      exact ⟨c, hc, k, hk, hr, fun hdone => nomatch ha.symm.trans hdone⟩
    · obtain ⟨c, hc, k, hk, hr, hdone⟩ := h.complete e calls he key m hkey
      refine ⟨c, hc, k, hregistering.old c k hk, hr, ?_⟩
      show k.answer = some .done → (served d'.exchanges)[key]? = some m ∧ ¬ Stranded d'.exchanges key
      rw [hexchanges]
      exact hdone
  case foreign =>
    intro key hkey hmem
    have hkey : d.owned key = none := howned ▸ hkey
    have hmem : key ∈ served d.exchanges := hexchanges ▸ hmem
    obtain hs | ⟨w, hw, m, c, k, -, -, hp, -⟩ := h.foreign key hkey hmem
    · exact .inl (hexchanges.symm ▸ hs)
    · exact absurd hp (hapart w hw c)
  case removing =>
    intro w hw key c k a hwrite hp
    have hw : w ∈ d.writings := hregistering.writings_eq ▸ hw
    exact absurd hp (hapart w hw c)

/-- An epoch no longer registers the members; what other epochs wait for stays. -/
lemma endRestoring (h : d.Agreement) (hbooks : d.Books) (hapart : d.Apart) {id : Nat} {calls : List Nat}
    (hr : (id, .restoring calls) ∈ d.runners) {runner : Runner} (hrunner : ∀ calls', runner ≠ .restoring calls') :
    ((d.settle calls).setRunner id runner).Agreement := by
  have hwrites (w : Writing) (hw : w ∈ d.writings) (c : Nat) (hp : w.progress = .sending c) : False :=
    hapart.none_restoring hw hp id calls hr
  have hruns {e : Nat} {calls' : List Nat} (he : (e, .restoring calls') ∈ ((d.settle calls).setRunner id runner).runners) :
      (e, .restoring calls') ∈ d.runners ∧ e ≠ id := by
    obtain heq | he := mem_assign he
    · exact absurd (Prod.mk.inj heq).2.symm (hrunner calls')
    · exact he
  constructor
  case keyed => exact h.keyed
  case restored => exact fun e calls' he => h.restored e calls' (hruns he).1
  case complete =>
    intro e calls' he key m hm
    obtain ⟨he, hne⟩ := hruns he
    obtain ⟨c, hc, k, hk, hfacts⟩ := h.complete e calls' he key m hm
    have hother : c ∉ calls := fun hmem => hne (hbooks.disjoint e id calls' calls he hr c hc hmem)
    exact ⟨c, hc, k, (if_neg hother).trans hk, hfacts⟩
  case foreign =>
    intro key hkey hmem
    obtain hs | ⟨w, hw, m, c, k, -, -, hp, -⟩ := h.foreign key hkey hmem
    · exact .inl hs
    · exact (hwrites w hw c hp).elim
  case removing => exact fun w hw key c k a _ hp => (hwrites w hw c hp).elim

/-- A write returns. The members owned may have changed, as the answer said. -/
lemma endWrite (hapart : d.Apart) {w : Writing} {call : Nat} {result : Except Failure Unit}
    {owned : String → Option Member} (hw : w ∈ d.writings) (hp : w.progress = .sending call)
    (hkeyed : ∀ id m, owned id = some m → m.id = id)
    (hforeign : ∀ id, owned id = none → id ∈ served d.exchanges → Stranded d.exchanges id) :
    Agreement { (d.settle [call]).setProgress w.id (.done result) with owned } := by
  have hidle (x : Writing) (hx : x ∈ ((d.settle [call]).setProgress w.id (.done result)).writings) (c : Nat)
      (hc : x.progress = .sending c) : False := by
    obtain ⟨r, hr⟩ | ⟨hx, hne⟩ := Books.of_mem_setProgress hx
    · exact nomatch hr.symm.trans hc
    · exact hne (congrArg Writing.id (hapart.same_write hx hw hc hp))
  constructor
  case keyed => exact hkeyed
  case restored => exact fun e calls he => absurd he (hapart.none_restoring hw hp e calls)
  case complete => exact fun e calls he => absurd he (hapart.none_restoring hw hp e calls)
  case foreign => exact fun id hid hmem => .inl (hforeign id hid hmem)
  case removing => exact fun x hx id c k a _ hc => (hidle x hx c hc).elim

/-- While a write is in flight, what is foreign is stranded or just registered by it. -/
lemma foreign_of_sending (h : d.Agreement) (hapart : d.Apart) {w : Writing} {call : Nat} {k : Call} (hw : w ∈ d.writings)
    (hp : w.progress = .sending call) (hk : d.calls call = some k) {id : String} (hnone : d.owned id = none)
    (hmem : id ∈ served d.exchanges) :
    Stranded d.exchanges id ∨ k.answer = some .done ∧ ∃ m : Member, w.write = .register m ∧ m.id = id := by
  obtain hs | ⟨x, hx, m, c, k', hwrite, hid, hc, hk', hdone⟩ := h.foreign id hnone hmem
  · exact .inl hs
  · obtain rfl := hapart.same_write hw hx hp hc
    obtain rfl := Progress.sending.inj (hp.symm.trans hc)
    obtain rfl := Option.some.inj (hk.symm.trans hk')
    exact .inr ⟨hdone, m, hwrite, hid⟩

lemma reject (h : d.Agreement) (hapart : d.Apart) {w : Writing} {call : Nat} {k : Call} {code : StatusCode} {reason : String}
    (result : Except Failure Unit) (hw : w ∈ d.writings) (hp : w.progress = .sending call) (hk : d.calls call = some k)
    (ha : k.answer = some (.failed (.rejected code reason))) :
    ((d.settle [call]).setProgress w.id (.done result)).Agreement := by
  refine endWrite hapart hw hp h.keyed fun id hnone hmem => ?_
  obtain hs | ⟨hdone, -⟩ := h.foreign_of_sending hapart hw hp hk hnone hmem
  · exact hs
  · exact nomatch ha.symm.trans hdone

lemma own_keyed (h : d.Agreement) (w : Write) {id : String} {m : Member} (hm : w.own d.owned id = some m) : m.id = id := by
  cases w with
  | register m' =>
    have hm : (if m'.id = id then some m' else d.owned id) = some m := hm
    split at hm
    · next heq => exact Option.some.inj hm ▸ heq
    · exact h.keyed id m hm
  | updateMetadata member delta =>
    have hm : (if member = id then (d.owned id).map (·.mergeMetadata delta) else d.owned id) = some m := hm
    split at hm
    · obtain ⟨old, hold, rfl⟩ := Option.map_eq_some_iff.mp hm
      exact h.keyed id old hold
    · exact h.keyed id m hm
  | unregister member =>
    have hm : (if member = id then none else d.owned id) = some m := hm
    split at hm
    · exact nomatch hm
    · exact h.keyed id m hm

lemma effect (h : d.Agreement) (hapart : d.Apart) {w : Writing} {call : Nat} {k : Call} {a : Answer}
    (result : Except Failure Unit) (hw : w ∈ d.writings) (hp : w.progress = .sending call) (hk : d.calls call = some k)
    (ha : k.answer = some a) (hr : ∀ code reason, a ≠ .failed (.rejected code reason)) :
    Agreement { (d.settle [call]).setProgress w.id (.done result) with owned := w.write.own d.owned } := by
  refine endWrite hapart hw hp (fun id m => h.own_keyed w.write) fun id hnone hmem => ?_
  cases hwrite : w.write with
  | register m =>
    rw [hwrite] at hnone
    have hnone : (if m.id = id then some m else d.owned id) = none := hnone
    split at hnone
    · exact nomatch hnone
    · next hne =>
      obtain hs | ⟨-, m', hwrite', hid⟩ := h.foreign_of_sending hapart hw hp hk hnone hmem
      · exact hs
      · obtain rfl := Write.register.inj (hwrite.symm.trans hwrite')
        exact absurd hid hne
  | updateMetadata member delta =>
    rw [hwrite] at hnone
    have hnone : (if member = id then (d.owned id).map (·.mergeMetadata delta) else d.owned id) = none := hnone
    have hold : d.owned id = none := by
      split at hnone
      · exact Option.map_eq_none_iff.mp hnone
      · exact hnone
    obtain hs | ⟨-, m', hwrite', -⟩ := h.foreign_of_sending hapart hw hp hk hold hmem
    · exact hs
    · exact nomatch hwrite.symm.trans hwrite'
  | unregister member =>
    rw [hwrite] at hnone
    have hnone : (if member = id then none else d.owned id) = none := hnone
    split at hnone
    · next heq =>
      subst heq
      exact h.removing w hw member call k a hwrite hp hk ha hr hmem
    · obtain hs | ⟨-, m', hwrite', -⟩ := h.foreign_of_sending hapart hw hp hk hnone hmem
      · exact hs
      · exact nomatch hwrite.symm.trans hwrite'

/-- The owner of a call that changes what the server holds, while no write is in flight. -/
lemma restoring_of_writes (h : d.Agreement) (hbooks : d.Books) (howned : d.Owned) {c : Nat} {k : Call}
    (hk : d.calls c = some k) (hwrites : Writes k.request = true)
    (hidle : ∀ w ∈ d.writings, w.progress ≠ .sending c) :
    ∃ m : Member, k.request = .register m ∧ d.owned m.id = some m := by
  obtain ⟨w, hw, hp⟩ | ⟨e, calls, he, hc⟩ := howned c k hk hwrites
  · exact absurd hp (hidle w hw)
  · obtain ⟨m, hr, hm⟩ := h.restored e calls he c hc
    exact ⟨m, Option.some.inj ((hbooks.asked c k hk).2.symm.trans hr), hm⟩

lemma answer_complete (h : d.Agreement) (hbooks : d.Books) (howned : d.Owned) (hapart : d.Apart) {c : Nat} {k : Call}
    {a : Answer} (hk : d.calls c = some k) (hx : (d.give c a).exchanges = (k.request, a) :: d.exchanges) {e : Nat}
    {calls : List Nat} (he : (e, .restoring calls) ∈ d.runners) {id : String} {m : Member} (hm : d.owned id = some m) :
    ∃ x ∈ calls, ∃ k', (d.give c a).calls x = some k' ∧ k'.request = .register m ∧
      (k'.answer = some .done → (served (d.give c a).exchanges)[id]? = some m ∧ ¬ Stranded (d.give c a).exchanges id) := by
  have hidle (w : Writing) (hw : w ∈ d.writings) (c : Nat) : w.progress ≠ .sending c :=
    fun hp => hapart.none_restoring hw hp e calls he
  have hid : m.id = id := h.keyed id m hm
  obtain ⟨x, hxmem, old, hold, hr, hdone⟩ := h.complete e calls he id m hm
  have hgive : (d.give c a).calls x = some (if old.id = c then { old with answer := some a } else old) := by
    show (d.calls x).map _ = _
    rw [hold]
    rfl
  rw [(hbooks.asked x old hold).1] at hgive
  rw [hx, served_cons, stranded_cons]
  by_cases hsame : x = c
  · subst hsame
    obtain rfl := Option.some.inj (hk.symm.trans hold)
    rw [if_pos rfl] at hgive
    refine ⟨x, hxmem, _, hgive, hr, fun hans => ?_⟩
    obtain rfl := Option.some.inj hans
    rw [hr]
    refine ⟨by rw [getElem?_serve_register, if_pos hid], ?_⟩
    rintro (⟨f, heq, -⟩ | ⟨-, hne⟩)
    · exact nomatch (Prod.mk.inj heq).1
    · exact hne (.inr ⟨m, hid, rfl⟩)
  · rw [if_neg hsame] at hgive
    refine ⟨x, hxmem, old, hgive, hr, fun hans => ?_⟩
    obtain ⟨hheld, hstranded⟩ := hdone hans
    cases hwrites : Writes k.request with
    | false =>
      rw [serve_of_not_writes a hwrites]
      refine ⟨hheld, ?_⟩
      rintro (⟨f, heq, -⟩ | ⟨hs, -⟩)
      · rw [(Prod.mk.inj heq).1] at hwrites
        exact nomatch hwrites
      · exact hstranded hs
    | true =>
      -- Only the epoch's own registrations are in flight, and each carries what is owned.
      obtain ⟨m', hr', hm'⟩ := h.restoring_of_writes hbooks howned hk hwrites fun w hw => hidle w hw c
      rw [hr']
      constructor
      · by_cases ha : a = .done
        · subst ha
          rw [getElem?_serve_register]
          split
          · next heq =>
            subst heq
            exact hm'.symm.trans hm
          · exact hheld
        · rw [serve_of_not_done ha]
          exact hheld
      · rintro (⟨f, heq, -⟩ | ⟨hs, -⟩)
        · exact nomatch (Prod.mk.inj heq).1
        · exact hstranded hs

lemma answer (h : d.Agreement) (hbooks : d.Books) (howned : d.Owned) (hapart : d.Apart) {c : Nat} {k : Call} {a : Answer}
    (hk : d.calls c = some k) (hn : k.answer = none) (ha : ∀ i, a = .opened i → ∃ known, k.request = .subscribe known) :
    (d.give c a).Agreement := by
  have hid : k.id = c := (hbooks.asked c k hk).1
  have hrequest : d.requested c = some k.request := (hbooks.asked c k hk).2
  have hx : (d.give c a).exchanges = (k.request, a) :: d.exchanges := by
    unfold Desk.give
    rw [hrequest]
  have hgiven : (d.give c a).calls c = some { k with answer := some a } := by
    show (d.calls c).map _ = _
    rw [hk]
    exact congrArg some (if_pos hid)
  have hother {x : Nat} {k' : Call} (hk' : d.calls x = some k') (hne : x ≠ c) : (d.give c a).calls x = some k' := by
    show (d.calls x).map _ = _
    rw [hk']
    exact congrArg some (if_neg ((hbooks.asked x k' hk').1 ▸ hne))
  constructor
  case keyed => exact h.keyed
  case restored => exact h.restored
  case complete => exact fun e calls he id m hm => h.answer_complete hbooks howned hapart hk hx he hm
  case foreign =>
    intro id hnone hmem
    rw [hx] at hmem ⊢
    rw [served_cons] at hmem
    by_cases hsettles : Settles id (k.request, a)
    · obtain heq | ⟨m, hm, heq⟩ := hsettles
      · rw [heq, mem_serve_unregister] at hmem
        exact absurd rfl hmem.1
      · obtain ⟨hr, rfl⟩ := Prod.mk.inj heq
        -- A registration just answered: of a write that has not returned yet, or of an epoch, which sends only what is owned.
        obtain ⟨w, hw, hp⟩ | ⟨e, calls, he, hc⟩ := howned c k hk (by rw [hr]; rfl)
        · have hwrite : w.write = .register m := by
            have hsame := (hbooks.writing w hw c hp).symm.trans hrequest
            rw [hr] at hsame
            cases hcase : w.write with
            | register m' =>
              rw [hcase] at hsame
              exact congrArg Write.register (Request.register.inj (Option.some.inj hsame))
            | updateMetadata member delta => rw [hcase] at hsame; exact nomatch hsame
            | unregister member => rw [hcase] at hsame; exact nomatch hsame
          exact .inr ⟨w, hw, m, c, _, hwrite, hm, hp, hgiven, rfl⟩
        · obtain ⟨m', hr', hm'⟩ := h.restored e calls he c hc
          obtain rfl := Request.register.inj ((Option.some.inj (hrequest.symm.trans hr')).symm.trans hr)
          rw [hm] at hm'
          exact nomatch hnone.symm.trans hm'
    · rw [mem_serve_of_not_settles hsettles] at hmem
      obtain hs | ⟨w, hw, m, x, k', hwrite, hm, hp, hk', hdone⟩ := h.foreign id hnone hmem
      · exact .inl ((stranded_cons _ _ id).mpr (.inr ⟨hs, hsettles⟩))
      · have hne : x ≠ c := by
          rintro rfl
          obtain rfl := Option.some.inj (hk.symm.trans hk')
          exact nomatch hn.symm.trans hdone
        exact .inr ⟨w, hw, m, x, k', hwrite, hm, hp, hother hk' hne, hdone⟩
  case removing =>
    intro w hw id x k' a' hwrite hp hk' ha' hr' hmem
    have hx' : d.requested x = some (.unregister id) := by
      rw [hbooks.writing w hw x hp, hwrite]
      rfl
    rw [hx] at hmem ⊢
    rw [served_cons] at hmem
    by_cases hsame : x = c
    · subst hsame
      obtain rfl := Option.some.inj (hgiven.symm.trans hk')
      obtain rfl := Option.some.inj ha'
      have hr : k.request = .unregister id := Option.some.inj (hrequest.symm.trans hx')
      rw [hr] at hmem ⊢
      cases a with
      | done =>
        rw [mem_serve_unregister] at hmem
        exact absurd rfl hmem.1
      | opened i =>
        obtain ⟨known, hsubscribe⟩ := ha i rfl
        exact nomatch hr.symm.trans hsubscribe
      | failed f =>
        have hfail : f.isRejection = false := by
          cases f with
          | rejected code reason => exact absurd rfl (hr' code reason)
          | _ => rfl
        exact (stranded_cons _ _ id).mpr (.inl ⟨f, rfl, hfail, hmem⟩)
    · obtain ⟨old, hold, rfl⟩ := Books.of_calls_give hk'
      have hne : old.id ≠ c := (hbooks.asked x old hold).1 ▸ hsame
      rw [if_neg hne] at ha'
      have hwrites : Writes k.request = false := by
        by_contra hwrites
        obtain ⟨w', hw', hp'⟩ | ⟨e, calls, he, -⟩ := howned c k hk (Bool.not_eq_false _ ▸ hwrites)
        · obtain rfl := hapart.same_write hw hw' hp hp'
          exact hsame (Progress.sending.inj (hp.symm.trans hp'))
        · exact hapart.none_restoring hw hp e calls he
      rw [serve_of_not_writes a hwrites] at hmem
      have hs := h.removing w hw id x old a' hwrite hp hold ha' hr' hmem
      refine (stranded_cons _ _ id).mpr (.inr ⟨hs, ?_⟩)
      rintro (heq | ⟨m, -, heq⟩)
      · rw [(Prod.mk.inj heq).1] at hwrites
        exact nomatch hwrites
      · rw [(Prod.mk.inj heq).1] at hwrites
        exact nomatch hwrites

theorem step (h : d.Agreement) (hbooks : d.Books) (howned : d.Owned) (hapart : d.Apart) (hapart' : d'.Apart)
    (hstep : Step d d') : d'.Agreement := by
  cases hstep with
  | epoch id hid =>
    refine h.setRunners _ _ fun e calls he => ?_
    obtain he | he := List.mem_append.mp he
    · exact he
    · exact nomatch (Prod.mk.inj (List.mem_singleton.mp he)).2
  | restore id ms hr hms =>
    have hregistering := hbooks.register id ms
    refine h.restore hbooks hms fun w hw c hp => ?_
    have hw' := hregistering.writings_eq ▸ hw
    exact hapart'.none_restoring hw' hp id _ (hregistering.mem_runners hr)
  | subscribe id calls known deadline hr =>
    have hbooks' : ((d.settle calls).setRunner id .stopped).Books :=
      (hbooks.settle calls).setRunner (fun c deadline => nofun) fun calls => nofun
    have hend : ((d.settle calls).setRunner id .stopped).Agreement := h.endRestoring hbooks hapart hr nofun
    refine (hend.begin hbooks' (.epoch id) (.subscribe known)).setRunners _ _ fun e calls' he => ?_
    obtain heq | ⟨he, hne⟩ := mem_assign he
    · exact nomatch (Prod.mk.inj heq).2
    · exact mem_assign_of_ne he hne
  | endRestoring id calls hr => exact h.endRestoring hbooks hapart hr nofun
  | endOpening id call deadline runner hr hrunner =>
    obtain ⟨known, hcall⟩ := hbooks.opening id call deadline hr
    have hsettle : (d.settle [call]).Agreement := by
      refine h.settle hbooks fun c hc r hcr => ?_
      rw [List.mem_singleton.mp hc, hcall] at hcr
      exact Option.some.inj hcr ▸ rfl
    refine hsettle.setRunners _ _ fun e calls he => ?_
    obtain heq | ⟨he, -⟩ := mem_assign he
    · obtain rfl | ⟨i, rfl⟩ := hrunner <;> exact nomatch (Prod.mk.inj heq).2
    · exact he
  | endRunner id runner hr hrunner =>
    refine h.setRunners _ _ fun e calls he => ?_
    obtain heq | ⟨he, -⟩ := mem_assign he
    · exact nomatch (Prod.mk.inj heq).2
    · exact he
  | beat id deadline due =>
    exact (h.begin hbooks (.epoch id) .heartbeat).setRunners _ _ fun _ _ he => he
  | endBeat id call deadline due heart hh hheart =>
    have hcall := hbooks.beating id call deadline due hh
    have hsettle : (d.settle [call]).Agreement := by
      refine h.settle hbooks fun c hc r hcr => ?_
      rw [List.mem_singleton.mp hc, hcall] at hcr
      exact Option.some.inj hcr ▸ rfl
    exact hsettle.setRunners _ _ fun _ _ he => he
  | endHeart id => exact h.setRunners _ _ fun _ _ he => he
  | write id w =>
    refine (h.begin hbooks (.write id) w.request).enter fun c k hc hk => ?_
    obtain rfl := Progress.sending.inj hc
    exact Option.some.inj ((hbooks.calls_begin_new _ _).symm.trans hk) ▸ rfl
  | refuse id w result => exact h.enter fun c k hc => nomatch hc
  | reject w call result hw hp =>
    obtain hp | ⟨hp, k, code, reason, hk, ha⟩ := hp
    · exact absurd hp (hbooks.calm w hw call)
    · exact h.reject hapart result hw hp hk ha
  | effect w call k a result hw hp hk ha hr => exact h.effect hapart result hw hp hk ha hr
  | answer id k a hk hn ha => exact h.answer hbooks howned hapart hk hn ha

end Agreement

end Desk

end Roster.Session
