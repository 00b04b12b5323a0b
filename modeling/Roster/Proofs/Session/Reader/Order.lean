import Roster.Proofs.Session.Reader.Pairs
import Roster.Proofs.Session.Watch.Control

/-! The order in which items are taken. Before an epoch takes one, all older epochs were told to stop. Nobody waits until they
did, so they may read on, and only by that are items taken out of the order of the epochs. -/
namespace Roster.Session

/-- An item an epoch took. -/
def Event.taken? : Event → Option (Nat × Item)
  | .took epoch item => some (epoch, item)
  | _ => none

/-- The later event is an item of an epoch that the earlier one told to stop. -/
def Event.defies : Event → Event → Bool
  | .took epoch _, .epochCancelled told => epoch = told
  | _, _ => false

namespace Watch

variable {w w' : Watch}

/-- An epoch that was told to stop was noted. -/
def Noted (w : Watch) : Prop := ∀ id, (id, true) ∈ w.tokens → ∃ t, (t, .epochCancelled id) ∈ w.log

lemma Noted.note (h : w.Noted) (e : Event) : (w.note e).Noted := by
  intro id hid
  obtain ⟨t, ht⟩ := h id hid
  exact ⟨t, List.mem_cons_of_mem _ ht⟩

lemma Noted.publish (h : w.Noted) (c : Connectivity) : (w.publish c).Noted := by
  unfold Watch.publish
  split
  · exact h
  · exact Noted.note (w := { w with published := c }) h _

lemma Noted.cancelLive (h : w.Noted) : w.cancelLive.Noted := by
  unfold Watch.cancelLive
  split
  · exact h
  · next live _ =>
    intro id hid
    obtain heq | ⟨hid, -⟩ := mem_assign hid
    · exact ⟨w.now, List.mem_cons.mpr (.inl (by rw [(Prod.mk.inj heq).1]))⟩
    · obtain ⟨t, ht⟩ := h id hid
      exact ⟨t, List.mem_cons_of_mem _ ht⟩

lemma Noted.beginEpoch (h : w.Noted) : w.beginEpoch.Noted := by
  unfold Watch.beginEpoch
  refine Noted.note (fun id hid => ?_) _
  obtain hid | hid := List.mem_append.mp hid
  · exact h.publish .ready id hid
  · exact nomatch (Prod.mk.inj (List.mem_singleton.mp hid)).2

theorem Noted.step (h : w.Noted) (hstep : Step w w') : w'.Noted := by
  cases hstep with
  | closed hp => exact h.publish .closed
  | broke id hid => exact Noted.note (w := { w with broken := w.broken ++ [id] }) h _
  | pause id rest hw hb hl => exact Noted.cancelLive (w := { w with broken := rest }) h
  | begin ha hc hl => exact Noted.beginEpoch (w := { w with reported := false }) h
  | depart ha hr hc => exact (Noted.cancelLive (w := { w with reported := false }) h).publish w.connectivity
  | finish ha hc => exact Noted.cancelLive (w := { w with reported := false }) h
  | quit hc hw => exact h.cancelLive
  | _ => exact h

theorem Noted.steps (h : w.Noted) (hsteps : Relation.ReflTransGen Step w w') : w'.Noted := by
  induction hsteps with
  | refl => exact h
  | tail _ hstep ih => exact ih.step hstep

end Watch

variable {s : Session} {settings : Settings} {connectivity : Connectivity} {now : Nat} {moves : List Move}

theorem allTold_of_noted (hcontrol : s.watch.Control) (hnoted : s.watch.Noted) : s.AllTold := by
  intro hl e he
  cases hc : e.cancelled with
  | false => exact nomatch hl.symm.trans (live_of_uncancelled hcontrol he hc)
  | true =>
    obtain ⟨t, ht⟩ := hnoted e.id (List.mem_map.mpr ⟨e, he, Prod.ext rfl hc⟩)
    exact ⟨t, (List.mem_filter.mp ht).1⟩

theorem run_reader (hrun : (start settings connectivity now).run moves = some s) :
    Reader.Steps (start settings connectivity now).reader s.reader := by
  have hkept : s.watch.Control ∧ s.watch.Noted ∧ Reader.Steps (start settings connectivity now).reader s.reader := by
    refine run_induction (P := fun t => t.watch.Control ∧ t.watch.Noted ∧
      Reader.Steps (start settings connectivity now).reader t.reader) hrun ⟨Watch.control_start .., nofun, .refl⟩ ?_
    rintro t t' m ⟨hcontrol, hnoted, hsteps⟩ hm
    exact ⟨hcontrol.steps (step_watch hm), hnoted.steps (step_watch hm),
      hsteps.trans (step_reader (allTold_of_noted hcontrol hnoted) hm)⟩
  exact hkept.2.2

namespace Reader

variable {r r' : Reader}

structure Fenced (r : Reader) : Prop where
  told : ∀ id ∈ r.runners.map (·.1), id < r.lastEpoch → .epochCancelled id ∈ r.log
  member : ∀ id item, .took id item ∈ r.log → id ∈ r.runners.map (·.1)
  /-- Before an item was taken, all older epochs were told to stop. -/
  fence : ∀ id item earlier, .took id item :: earlier <:+ r.log →
    ∀ older ∈ r.runners.map (·.1), older < id → .epochCancelled older ∈ earlier

namespace Fenced

lemma frame (h : r.Fenced) (hids : r'.runners.map (·.1) = r.runners.map (·.1)) (hlast : r'.lastEpoch = r.lastEpoch)
    (hlog : r'.log = r.log) : r'.Fenced where
  told := hids ▸ hlast ▸ hlog ▸ h.told
  member := hids ▸ hlog ▸ h.member
  fence := hids ▸ hlog ▸ h.fence

lemma note (h : r.Fenced) {e : Event} (he : e.taken? = none) : (r.note e).Fenced where
  told := fun id hid hlt => List.mem_cons_of_mem e (h.told id hid hlt)
  member := by
    intro id item hmem
    obtain rfl | hmem := List.mem_cons.mp hmem
    · exact nomatch he
    · exact h.member id item hmem
  fence := by
    intro id item earlier hsuffix
    obtain heq | hsuffix := List.suffix_cons_iff.mp hsuffix
    · obtain rfl := (List.cons.inj heq).1
      exact nomatch he
    · exact h.fence id item earlier hsuffix

lemma take (h : r.Fenced) (hpaired : r.Paired) {id : Nat} {q : Runner} (hr : (id, q) ∈ r.runners) (item : Item) :
    (r.note (.took id item)).Fenced where
  told := fun id hid hlt => List.mem_cons_of_mem _ (h.told id hid hlt)
  member := by
    intro id' item' hmem
    obtain heq | hmem := List.mem_cons.mp hmem
    · obtain ⟨rfl, -⟩ := Event.took.inj heq
      exact List.mem_map_of_mem hr
    · exact h.member id' item' hmem
  fence := by
    intro id' item' earlier hsuffix
    obtain heq | hsuffix := List.suffix_cons_iff.mp hsuffix
    · obtain ⟨htook, rfl⟩ := List.cons.inj heq
      obtain ⟨rfl, -⟩ := Event.took.inj htook
      exact fun older hmem hlt => h.told older hmem (Nat.lt_of_lt_of_le hlt (hpaired.known _ hr))
    · exact h.fence id' item' earlier hsuffix

lemma epoch (h : r.Fenced) (hpaired : r.Paired) (htold : ∀ t ∈ r.runners, .epochCancelled t.1 ∈ r.log) :
    Fenced { r with lastEpoch := r.lastEpoch + 1, runners := r.runners ++ [(r.lastEpoch + 1, .starting)] } := by
  have hmem {id : Nat} (hid : id ∈ (r.runners ++ [(r.lastEpoch + 1, Runner.starting)]).map (·.1)) :
      id ∈ r.runners.map (·.1) ∨ id = r.lastEpoch + 1 := by
    rw [List.map_append] at hid
    exact (List.mem_append.mp hid).imp_right List.mem_singleton.mp
  constructor
  case told =>
    intro id hid hlt
    obtain hid | rfl := hmem hid
    · obtain ⟨t, ht, rfl⟩ := List.mem_map.mp hid
      exact htold t ht
    · exact absurd hlt (Nat.lt_irrefl _)
  case member =>
    intro id item htook
    rw [List.map_append]
    exact List.mem_append_left _ (h.member id item htook)
  case fence =>
    intro id item earlier hsuffix older holder hlt
    obtain holder | rfl := hmem holder
    · exact h.fence id item earlier hsuffix older holder hlt
    · -- An epoch that took something was there before.
      obtain ⟨t, ht, rfl⟩ := List.mem_map.mp (h.member id item (hsuffix.subset List.mem_cons_self))
      have hle := hpaired.known t ht
      omega

theorem step (h : r.Fenced) (hpaired : r.Paired) (hstep : Step r r') : r'.Fenced := by
  have hadvance (i : Nat) : (r.setStream i advance).Fenced := h.frame rfl rfl rfl
  cases hstep with
  | perform op hop => exact (h.note (e := .performed op) rfl).frame rfl rfl rfl
  | epoch htold => exact h.epoch hpaired htold
  | tell id => exact h.note rfl
  | restore id calls hq => exact h.frame (map_fst_assign ..) rfl rfl
  | ask id calls call deadline hq => exact h.frame (map_fst_assign ..) rfl rfl
  | read id call deadline i opened hq hi ho =>
    exact (h.note (e := .reading id i) rfl).frame (map_fst_assign ..) rfl rfl
  | update id i t u hr ht hu =>
    have htake := (hadvance i).take (hpaired.setStream i advance) hr (.update u)
    exact (htake.note (e := .performed (.applyRemote u)) rfl).frame rfl rfl rfl
  | malformed id i t f hr ht hf => exact (hadvance i).take (hpaired.setStream i advance) hr _
  | fail id i t f hr ht hf =>
    exact ((hadvance i).take (hpaired.setStream i advance) hr (.failure f)).frame (map_fst_assign ..) rfl rfl
  | stop id => exact h.frame (map_fst_assign ..) rfl rfl
  | _ => exact h.frame rfl rfl rfl

end Fenced

theorem fenced_start (settings : Settings) (connectivity : Connectivity) (now : Nat) :
    (start settings connectivity now).reader.Fenced where
  told := List.forall_mem_nil _
  member := fun _ _ hmem => absurd hmem List.not_mem_nil
  fence := fun _ _ _ hsuffix => nomatch List.suffix_nil.mp hsuffix

end Reader

/-! In the history of a session -/

/-- What was taken of the streams, with the epochs that took it, oldest first. -/
def takings (s : Session) : List (Nat × Item) := (s.history.filterMap (·.2.taken?)).reverse

/-- What an epoch took of its stream. -/
def taken (s : Session) (id : Nat) : List Item := (s.takings.filter (·.1 = id)).map (·.2)

/-- No epoch takes an item after it was told to stop. -/
def Heeded (s : Session) : Prop := s.history.Pairwise fun later earlier => later.2.defies earlier.2 = false

/-- No epoch takes an item once a newer one took one. -/
def InTurn (s : Session) : Prop := s.takings.Pairwise (·.1 ≤ ·.1)

/-- Before an epoch takes an item, all older epochs were told to stop. -/
theorem told_of_taken (h : s.reader.Fenced) {t id : Nat} {item : Item} {earlier : List (Nat × Event)}
    (hsuffix : (t, .took id item) :: earlier <:+ s.history) {e : Epoch} (he : e ∈ s.epochs) (hlt : e.id < id) :
    ∃ t', (t', .epochCancelled e.id) ∈ earlier := by
  have hlog : .took id item :: (earlier.map (·.2)).filter Event.read <:+ s.reader.log :=
    List.IsSuffix.filter Event.read (List.IsSuffix.map Prod.snd hsuffix)
  have hid : e.id ∈ s.reader.runners.map (·.1) := List.mem_map.mpr ⟨_, List.mem_map_of_mem he, rfl⟩
  obtain ⟨hmem, -⟩ := List.mem_filter.mp (h.fence id item _ hlog e.id hid hlt)
  obtain ⟨x, hx, heq⟩ := List.mem_map.mp hmem
  exact ⟨x.1, heq ▸ hx⟩

theorem exists_epoch_of_taken (h : s.reader.Fenced) {t id : Nat} {item : Item} (hmem : (t, .took id item) ∈ s.history) :
    ∃ e ∈ s.epochs, e.id = id := by
  obtain ⟨x, hx, rfl⟩ := List.mem_map.mp (h.member id item ((mem_reader_log rfl).mpr ⟨t, hmem⟩))
  obtain ⟨e, he, rfl⟩ := List.mem_map.mp hx
  exact ⟨e, he, rfl⟩

theorem of_taken? {e : Event} {x : Nat × Item} (h : e.taken? = some x) : e = .took x.1 x.2 := by
  cases e with
  | took id item => obtain rfl := Option.some.inj h; rfl
  | _ => exact nomatch h

/-- A list is in order if each of its elements is in order with all that come after it. -/
theorem pairwise_of_suffix {α : Type} {R : α → α → Prop} {l : List α}
    (h : ∀ x rest, x :: rest <:+ l → ∀ y ∈ rest, R x y) : l.Pairwise R := by
  induction l with
  | nil => exact .nil
  | cons a l ih =>
    refine .cons (h a l (List.suffix_refl _)) (ih fun x rest hx => ?_)
    exact h x rest (hx.trans (List.suffix_cons a l))

/-- Epochs take their turns as long as they stop when they are told to. -/
theorem inTurn_of_heeded (h : s.reader.Fenced) (hheeded : s.Heeded) : s.InTurn := by
  refine List.pairwise_reverse.mpr (List.Pairwise.filterMap _ (fun _ _ hxy => hxy) (pairwise_of_suffix ?_))
  rintro ⟨t, x⟩ rest hx ⟨t', y⟩ hy a ha b hb
  obtain rfl := of_taken? ha
  obtain rfl := of_taken? hb
  obtain ⟨e, he, hid⟩ := exists_epoch_of_taken h (hx.subset List.mem_cons_self)
  by_contra hlt
  obtain ⟨between, earlier, rfl⟩ := List.append_of_mem hy
  -- The older epoch was told to stop before the newer one took its item, and so before it took this one.
  have hsuffix := (List.suffix_append between _).trans ((List.suffix_cons _ _).trans hx)
  obtain ⟨t'', htold⟩ := told_of_taken h hsuffix he (by omega)
  have hdefies := List.rel_of_pairwise_cons (hheeded.sublist hx.sublist)
    (List.mem_append_right between (List.mem_cons_of_mem _ htold))
  exact absurd hid.symm (of_decide_eq_false hdefies)

/-- The least key comes first. -/
theorem filter_append_of_least {α : Type} {l : List (Nat × α)} {key : Nat} (hl : l.Pairwise (·.1 ≤ ·.1))
    (hleast : ∀ x ∈ l, key ≤ x.1) : l.filter (·.1 = key) ++ l.filter (·.1 ≠ key) = l := by
  induction l with
  | nil => rfl
  | cons x l ih =>
    obtain ⟨hx, hl⟩ := List.pairwise_cons.mp hl
    obtain ⟨hkey, hleast⟩ := List.forall_mem_cons.mp hleast
    by_cases heq : x.1 = key
    · simpa [List.filter_cons, heq] using ih hl hleast
    · have hlate (y : Nat × α) (hy : y ∈ x :: l) : y.1 ≠ key := by
        obtain rfl | hy := List.mem_cons.mp hy
        · exact heq
        · have hle := hx y hy
          omega
      rw [List.filter_eq_nil_iff.mpr fun y hy => by simpa using hlate y hy, List.nil_append,
        List.filter_eq_self.mpr fun y hy => by simpa using hlate y hy]

/-- A list in the order of its keys is what each key has, key after key. -/
theorem eq_flatMap_filter {α : Type} {l : List (Nat × α)} {keys : List Nat} (hl : l.Pairwise (·.1 ≤ ·.1))
    (hkeys : keys.Pairwise (· < ·)) (hmem : ∀ x ∈ l, x.1 ∈ keys) : l = keys.flatMap fun key => l.filter (·.1 = key) := by
  induction keys generalizing l with
  | nil => exact List.eq_nil_iff_forall_not_mem.mpr fun x hx => absurd (hmem x hx) List.not_mem_nil
  | cons key keys ih =>
    obtain ⟨hlt, hkeys⟩ := List.pairwise_cons.mp hkeys
    have hleast (x : Nat × α) (hx : x ∈ l) : key ≤ x.1 :=
      (List.mem_cons.mp (hmem x hx)).elim (fun heq => Nat.le_of_eq heq.symm) fun hin => Nat.le_of_lt (hlt x.1 hin)
    have hrest := ih (l := l.filter (·.1 ≠ key)) (hl.filter _) hkeys fun x hx => by
      obtain ⟨hx, hne⟩ := List.mem_filter.mp hx
      exact (List.mem_cons.mp (hmem x hx)).resolve_left (of_decide_eq_true hne)
    calc l = l.filter (·.1 = key) ++ l.filter (·.1 ≠ key) := (filter_append_of_least hl hleast).symm
      _ = l.filter (·.1 = key) ++ keys.flatMap fun k => (l.filter (·.1 ≠ key)).filter (·.1 = k) := by rw [← hrest]
      _ = l.filter (·.1 = key) ++ keys.flatMap fun k => l.filter (·.1 = k) := by
        congr 1
        refine List.flatMap_congr fun k hk => ?_
        rw [List.filter_filter]
        refine List.filter_congr fun x _ => ?_
        have hne : k ≠ key := Nat.ne_of_gt (hlt k hk)
        by_cases hx : x.1 = k <;> simp [hx, hne]
      _ = (key :: keys).flatMap fun k => l.filter (·.1 = k) := rfl

end Roster.Session
