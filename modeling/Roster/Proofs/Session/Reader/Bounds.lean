import Roster.Proofs.Session.Reader.Pairs

/-! How far the streams were read: only as long as nothing in them ends an epoch. -/
namespace Roster.Session.Reader

variable {r r' : Reader}

/-- An item that does not end an epoch. -/
def Harmless (item : Item) : Prop := ∀ f, item = .failure f → ∃ g, f = .update g

structure Bounds (r : Reader) : Prop where
  within : ∀ (i : Nat) (t : Stream), r.streams[i]? = some t → t.taken ≤ t.items.length
  unread : ∀ (i : Nat) (t : Stream), r.streams[i]? = some t → (∀ x ∈ r.readings, x.2 ≠ i) → t.taken = 0
  cut : ∀ (i : Nat) (t : Stream), r.streams[i]? = some t →
    ∀ k item, k + 1 < t.taken → t.items[k]? = some item → Harmless item
  sound : ∀ id i, (id, .reading i) ∈ r.runners → ∀ t : Stream, r.streams[i]? = some t →
    ∀ k item, k < t.taken → t.items[k]? = some item → Harmless item

namespace Bounds

lemma frame (h : r.Bounds) (hrunners : ∀ id i, (id, .reading i) ∈ r'.runners → (id, .reading i) ∈ r.runners)
    (hreadings : r'.readings = r.readings) (hstreams : r'.streams = r.streams) : r'.Bounds where
  within := hstreams ▸ h.within
  unread := hreadings ▸ hstreams ▸ h.unread
  cut := hstreams ▸ h.cut
  sound := fun id i hr => hstreams ▸ h.sound id i (hrunners id i hr)

lemma setRunner (h : r.Bounds) (id : Nat) {q : Runner} (hq : ∀ i, q ≠ .reading i) : (r.setRunner id q).Bounds := by
  refine h.frame ?_ rfl rfl
  intro e i hmem
  obtain heq | ⟨hmem, -⟩ := mem_assign hmem
  · exact absurd (Prod.mk.inj heq).2.symm (hq i)
  · exact hmem

/-- A stream of a session, after one of them changed. -/
lemma getElem?_setStream {i j : Nat} {f : Stream → Stream} {t : Stream} (ht : (r.setStream i f).streams[j]? = some t) :
    ∃ old, r.streams[j]? = some old ∧ (t = old ∧ i ≠ j ∨ t = f old ∧ i = j) := by
  have hmodify : (r.setStream i f).streams[j]? = if i = j then f <$> r.streams[j]? else r.streams[j]? := by
    unfold Reader.setStream
    rw [List.getElem?_modify]
    split <;> simp
  rw [hmodify] at ht
  split at ht
  · next heq =>
    obtain ⟨old, hold, rfl⟩ := Option.map_eq_some_iff.mp ht
    exact ⟨old, hold, .inr ⟨rfl, heq⟩⟩
  · next hne => exact ⟨t, ht, .inl ⟨rfl, hne⟩⟩

/-- Items that arrive, and ends that go away, leave what was read. -/
lemma setStream (h : r.Bounds) (i : Nat) {f : Stream → Stream}
    (hf : ∀ t : Stream, t.taken ≤ t.items.length → (f t).taken = t.taken ∧ t.items <+: (f t).items) :
    (r.setStream i f).Bounds := by
  have hkeep {j : Nat} {t : Stream} (ht : (r.setStream i f).streams[j]? = some t) :
      ∃ old, r.streams[j]? = some old ∧ t.taken = old.taken ∧ old.items <+: t.items := by
    obtain ⟨old, hold, ⟨rfl, -⟩ | ⟨rfl, -⟩⟩ := getElem?_setStream ht
    · exact ⟨t, hold, rfl, List.prefix_refl _⟩
    · exact ⟨old, hold, hf old (h.within j old hold)⟩
  have hitem {j k : Nat} {old t : Stream} {item : Item} (hold : r.streams[j]? = some old) (hk : k < old.taken)
      (hpre : old.items <+: t.items) (hi : t.items[k]? = some item) : old.items[k]? = some item := by
    have hlt : k < old.items.length := Nat.lt_of_lt_of_le hk (h.within j old hold)
    obtain ⟨more, hmore⟩ := hpre
    rw [← hmore, List.getElem?_append_left hlt] at hi
    exact hi
  constructor
  case within =>
    intro j t ht
    obtain ⟨old, hold, htaken, hpre⟩ := hkeep ht
    rw [htaken]
    exact Nat.le_trans (h.within j old hold) hpre.length_le
  case unread =>
    intro j t ht hnone
    obtain ⟨old, hold, htaken, -⟩ := hkeep ht
    rw [htaken]
    exact h.unread j old hold hnone
  case cut =>
    intro j t ht k item hk hi
    obtain ⟨old, hold, htaken, hpre⟩ := hkeep ht
    rw [htaken] at hk
    exact h.cut j old hold k item hk (hitem hold (Nat.lt_of_succ_lt hk) hpre hi)
  case sound =>
    intro id j hr t ht k item hk hi
    obtain ⟨old, hold, htaken, hpre⟩ := hkeep ht
    rw [htaken] at hk
    exact h.sound id j hr old hold k item hk (hitem hold hk hpre hi)

lemma accept (h : r.Bounds) (hpaired : r.Paired) (opened : Nat → Nat → Prop) :
    Bounds { r with opened, streams := r.streams ++ [{}] } := by
  have hnew {j : Nat} {t : Stream} (ht : (r.streams ++ [({} : Stream)])[j]? = some t) :
      r.streams[j]? = some t ∨ j = r.streams.length ∧ t.taken = 0 := by
    obtain hlt | hle := Nat.lt_or_ge j r.streams.length
    · rw [List.getElem?_append_left hlt] at ht
      exact .inl ht
    · rw [List.getElem?_append_right hle, List.getElem?_singleton] at ht
      split at ht
      · next hz => exact .inr ⟨by omega, Option.some.inj ht ▸ rfl⟩
      · exact nomatch ht
  constructor
  case within =>
    intro j t ht
    obtain hold | ⟨-, hz⟩ := hnew ht
    · exact h.within j t hold
    · exact hz ▸ Nat.zero_le _
  case unread =>
    intro j t ht hnone
    obtain hold | ⟨-, hz⟩ := hnew ht
    · exact h.unread j t hold hnone
    · exact hz
  case cut =>
    intro j t ht k item hk hi
    obtain hold | ⟨-, hz⟩ := hnew ht
    · exact h.cut j t hold k item hk hi
    · omega
  case sound =>
    intro id j hr t ht k item hk hi
    obtain hold | ⟨hj, -⟩ := hnew ht
    · exact h.sound id j hr t hold k item hk hi
    · have hlt := hpaired.streams_lt _ (hpaired.reading id j hr)
      exact absurd hj (Nat.ne_of_lt hlt)

/-- A stream an epoch begins to read was not read before. -/
lemma read (h : r.Bounds) (hpaired : r.Paired) {id call i : Nat} {opened : Nat → Nat → Prop} (hi : r.opened call i) :
    Bounds { r.setRunner id (.reading i) with opened, log := .reading id i :: r.log } := by
  have hcons : readings { r.setRunner id (.reading i) with opened, log := .reading id i :: r.log } =
      (id, i) :: r.readings := rfl
  constructor
  case within => exact h.within
  case unread =>
    intro j t ht hnone
    rw [hcons] at hnone
    exact h.unread j t ht fun x hx => hnone x (List.mem_cons_of_mem _ hx)
  case cut => exact h.cut
  case sound =>
    intro e j hr t ht k item hk hitem
    obtain heq | ⟨hr, -⟩ := mem_assign hr
    · obtain rfl := Runner.reading.inj (Prod.mk.inj heq).2
      have hz := h.unread j t ht (hpaired.opened_fresh call j hi)
      omega
    · exact h.sound e j hr t ht k item hk hitem

/-- The next item of a stream is read; who reads it stops if the item says so. -/
lemma advance (h : r.Bounds) (hpaired : r.Paired) {id i : Nat} {t : Stream} {item : Item}
    (hr : (id, .reading i) ∈ r.runners) (ht : r.streams[i]? = some t) (hi : t.items[t.taken]? = some item)
    (hstreams : r'.streams = (r.setStream i advance).streams) (hreadings : r'.readings = r.readings)
    (hrunners : ∀ e j, (e, .reading j) ∈ r'.runners → (e, .reading j) ∈ r.runners ∧ (j = i → Harmless item)) :
    r'.Bounds := by
  have hlt : t.taken < t.items.length := (List.getElem?_eq_some_iff.mp hi).1
  have hold {j : Nat} {t' : Stream} (ht' : r'.streams[j]? = some t') :
      r.streams[j]? = some t' ∨ j = i ∧ t' = Reader.advance t := by
    rw [hstreams] at ht'
    obtain ⟨old, hold, ⟨rfl, -⟩ | ⟨rfl, rfl⟩⟩ := getElem?_setStream ht'
    · exact .inl hold
    · rw [ht, Option.some.injEq] at hold
      exact .inr ⟨rfl, hold ▸ rfl⟩
  constructor
  case within =>
    intro j t' ht'
    obtain ht' | ⟨rfl, rfl⟩ := hold ht'
    · exact h.within j t' ht'
    · exact hlt
  case unread =>
    intro j t' ht' hnone
    rw [hreadings] at hnone
    obtain ht' | ⟨rfl, rfl⟩ := hold ht'
    · exact h.unread j t' ht' hnone
    · exact absurd rfl (hnone _ (hpaired.reading id j hr))
  case cut =>
    intro j t' ht' k x hk hx
    obtain ht' | ⟨rfl, rfl⟩ := hold ht'
    · exact h.cut j t' ht' k x hk hx
    · exact h.sound id j hr t ht k x (Nat.lt_of_succ_lt_succ hk) hx
  case sound =>
    intro e j hr' t' ht' k x hk hx
    obtain ⟨hr', hitem⟩ := hrunners e j hr'
    obtain ht' | ⟨rfl, rfl⟩ := hold ht'
    · exact h.sound e j hr' t' ht' k x hk hx
    · obtain hk | rfl := Nat.lt_or_eq_of_le (Nat.le_of_lt_succ hk)
      · exact h.sound id j hr t ht k x hk hx
      · have hsame : item = x := Option.some.inj (hi.symm.trans hx)
        exact hsame ▸ hitem rfl

theorem step (h : r.Bounds) (hpaired : r.Paired) (hstep : Step r r') : r'.Bounds := by
  cases hstep with
  | forget opened ho => exact h.frame (fun _ _ hr => hr) rfl rfl
  | accept call opened ho => exact h.accept hpaired opened
  | perform op hop => exact h.frame (fun _ _ hr => hr) rfl rfl
  | part i f hf => exact h.setStream i fun t _ => ⟨(hf t).2, (hf t).1 ▸ List.prefix_refl _⟩
  | send i item => exact h.setStream i fun t _ => ⟨rfl, List.prefix_append _ _⟩
  | epoch _ =>
    refine h.frame ?_ rfl rfl
    intro id i hr
    obtain hr | heq := List.mem_append.mp hr
    · exact hr
    · exact nomatch (Prod.mk.inj (List.mem_singleton.mp heq)).2
  | tell id => exact h.frame (fun _ _ hr => hr) rfl rfl
  | restore id calls hq => exact h.setRunner id nofun
  | ask id calls call deadline hq => exact h.setRunner id nofun
  | read id call deadline i opened hq hi ho => exact h.read hpaired hi
  | update id i t u hr ht hu => exact h.advance hpaired hr ht hu rfl rfl fun e j he => ⟨he, fun _ f => nofun⟩
  | malformed id i t f hr ht hf =>
    refine h.advance hpaired hr ht hf rfl rfl fun e j he => ⟨he, fun _ g hg => ?_⟩
    exact ⟨f, (Item.failure.inj hg).symm⟩
  | fail id i t f hr ht hf =>
    refine h.advance hpaired hr ht hf rfl rfl fun e j he => ?_
    obtain heq | ⟨he, hne⟩ := mem_assign he
    · exact nomatch (Prod.mk.inj heq).2
    · refine ⟨he, ?_⟩
      rintro rfl
      have hsame := hpaired.epoch_unique (hpaired.reading e j he) (hpaired.reading id j hr) rfl
      exact absurd (Prod.mk.inj hsame).1 hne
  | stop id => exact h.setRunner id nofun

end Bounds

theorem bounds_start (settings : Settings) (connectivity : Connectivity) (now : Nat) :
    (start settings connectivity now).reader.Bounds :=
  ⟨nofun, nofun, nofun, nofun⟩

end Roster.Session.Reader
