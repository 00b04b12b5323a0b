import Mathlib.Data.List.Nodup
import Roster.Proofs.Session.Reader

/-! Who reads what: an epoch reads one stream at most, and a stream is read by one epoch at most. -/
namespace Roster.Session

/-- The stream an epoch begins to read. -/
def Event.reading? : Event → Option (Nat × Nat)
  | .reading epoch stream => some (epoch, stream)
  | _ => none

namespace Reader

variable {r r' : Reader}

/-- The epochs that read, with their streams; newest first. -/
def readings (r : Reader) : List (Nat × Nat) := r.log.filterMap Event.reading?

structure Paired (r : Reader) : Prop where
  known : ∀ t ∈ r.runners, t.1 ≤ r.lastEpoch
  opened_lt : ∀ c i, r.opened c i → i < r.streams.length
  opened_inj : ∀ c c' i, r.opened c i → r.opened c' i → c = c'
  opened_fresh : ∀ c i, r.opened c i → ∀ x ∈ r.readings, x.2 ≠ i
  epochs : (r.readings.map (·.1)).Nodup
  streams : (r.readings.map (·.2)).Nodup
  streams_lt : ∀ x ∈ r.readings, x.2 < r.streams.length
  began : ∀ x ∈ r.readings, x.1 ∈ r.runners.map (·.1)
  same : ∀ x ∈ r.readings, ∀ t ∈ r.runners, t.1 = x.1 → t.2 = .reading x.2 ∨ t.2 = .stopped
  reading : ∀ id i, (id, .reading i) ∈ r.runners → (id, i) ∈ r.readings

namespace Paired

/-- An epoch that still has to ask for its stream has read none. -/
lemma readings_ne (h : r.Paired) {id : Nat} {q : Runner} (hq : (id, q) ∈ r.runners) (hs : q ≠ .stopped)
    (hr : ∀ i, q ≠ .reading i) {x : Nat × Nat} (hx : x ∈ r.readings) : x.1 ≠ id :=
  fun heq => (h.same x hx _ hq heq.symm).elim (hr x.2) hs

/-- No other epoch reads the stream that one reads. -/
lemma epoch_unique (h : r.Paired) {x y : Nat × Nat} (hx : x ∈ r.readings) (hy : y ∈ r.readings) (hsame : x.2 = y.2) : x = y :=
  List.inj_on_of_nodup_map h.streams hx hy hsame

lemma stream_unique (h : r.Paired) {x y : Nat × Nat} (hx : x ∈ r.readings) (hy : y ∈ r.readings) (hsame : x.1 = y.1) : x = y :=
  List.inj_on_of_nodup_map h.epochs hx hy hsame

/-- What the pairs do not depend on may change. -/
lemma frame (h : r.Paired) (hopened : ∀ c i, r'.opened c i → r.opened c i) (hlast : r'.lastEpoch = r.lastEpoch)
    (hrunners : r'.runners = r.runners) (hreadings : r'.readings = r.readings)
    (hlength : r.streams.length ≤ r'.streams.length) : r'.Paired where
  known := hrunners ▸ hlast ▸ h.known
  opened_lt := fun c i hc => Nat.lt_of_lt_of_le (h.opened_lt c i (hopened c i hc)) hlength
  opened_inj := fun c c' i hc hc' => h.opened_inj c c' i (hopened c i hc) (hopened c' i hc')
  opened_fresh := fun c i hc => hreadings ▸ h.opened_fresh c i (hopened c i hc)
  epochs := hreadings ▸ h.epochs
  streams := hreadings ▸ h.streams
  streams_lt := fun x hx => Nat.lt_of_lt_of_le (h.streams_lt x (hreadings ▸ hx)) hlength
  began := hreadings ▸ hrunners ▸ h.began
  same := hreadings ▸ hrunners ▸ h.same
  reading := hreadings ▸ hrunners ▸ h.reading

lemma note (h : r.Paired) {e : Event} (he : e.reading? = none) : (r.note e).Paired :=
  h.frame (fun _ _ hc => hc) rfl rfl (List.filterMap_cons_none he) (Nat.le_refl _)

/-- An epoch goes on but does not read yet, or stops. -/
lemma setRunner (h : r.Paired) {id : Nat} {q' : Runner} (hr' : ∀ i, q' ≠ .reading i)
    (hq : q' = .stopped ∨ ∃ q, (id, q) ∈ r.runners ∧ q ≠ .stopped ∧ ∀ i, q ≠ .reading i) : (r.setRunner id q').Paired := by
  have hids : (r.setRunner id q').runners.map (·.1) = r.runners.map (·.1) := map_fst_assign ..
  refine { h with known := ?known, began := ?began, same := ?same, reading := ?reading }
  case known =>
    intro t ht
    obtain ⟨x, hx, heq⟩ := List.mem_map.mp (hids ▸ List.mem_map_of_mem ht)
    exact heq ▸ h.known x hx
  case began => exact hids ▸ h.began
  case same =>
    intro x hx t ht heq
    obtain rfl | ⟨ht, -⟩ := mem_assign ht
    · obtain rfl | ⟨q, hq, hs, hr⟩ := hq
      · exact .inr rfl
      · exact absurd heq.symm (h.readings_ne hq hs hr hx)
    · exact h.same x hx t ht heq
  case reading =>
    intro e i ht
    obtain heq | ⟨ht, -⟩ := mem_assign ht
    · exact absurd (Prod.mk.inj heq).2.symm (hr' i)
    · exact h.reading e i ht

/-- An epoch begins to read the stream its call opened. -/
lemma read (h : r.Paired) {id call deadline i : Nat} {opened : Nat → Nat → Prop}
    (hq : (id, .opening call deadline) ∈ r.runners) (hi : r.opened call i)
    (ho : ∀ c j, opened c j → r.opened c j ∧ c ≠ call) :
    Paired { r.setRunner id (.reading i) with opened, log := .reading id i :: r.log } := by
  have hids : (r.setRunner id (.reading i)).runners.map (·.1) = r.runners.map (·.1) := map_fst_assign ..
  have hnew (x : Nat × Nat) (hx : x ∈ r.readings) : x.1 ≠ id := h.readings_ne hq nofun nofun hx
  have hcons : readings { r.setRunner id (.reading i) with opened, log := .reading id i :: r.log } =
      (id, i) :: r.readings := rfl
  constructor
  case known =>
    intro t ht
    obtain ⟨x, hx, heq⟩ := List.mem_map.mp (hids ▸ List.mem_map_of_mem ht)
    exact heq ▸ h.known x hx
  case opened_lt => exact fun c j hc => h.opened_lt c j (ho c j hc).1
  case opened_inj => exact fun c c' j hc hc' => h.opened_inj c c' j (ho c j hc).1 (ho c' j hc').1
  case opened_fresh =>
    intro c j hc x hx
    obtain ⟨hold, hne⟩ := ho c j hc
    rw [hcons] at hx
    obtain rfl | hx := List.mem_cons.mp hx
    · rintro rfl
      exact hne (h.opened_inj c call _ hold hi)
    · exact h.opened_fresh c j hold x hx
  case epochs =>
    rw [hcons, List.map_cons, List.nodup_cons]
    refine ⟨?_, h.epochs⟩
    intro hmem
    obtain ⟨x, hx, heq⟩ := List.mem_map.mp hmem
    exact hnew x hx heq
  case streams =>
    rw [hcons, List.map_cons, List.nodup_cons]
    refine ⟨?_, h.streams⟩
    intro hmem
    obtain ⟨x, hx, heq⟩ := List.mem_map.mp hmem
    exact h.opened_fresh call i hi x hx heq
  case streams_lt =>
    intro x hx
    rw [hcons] at hx
    obtain rfl | hx := List.mem_cons.mp hx
    · exact h.opened_lt call i hi
    · exact h.streams_lt x hx
  case began =>
    intro x hx
    rw [hcons] at hx
    show x.1 ∈ (r.setRunner id (.reading i)).runners.map (·.1)
    rw [hids]
    obtain rfl | hx := List.mem_cons.mp hx
    · exact List.mem_map_of_mem hq
    · exact h.began x hx
  case same =>
    intro x hx t ht heq
    rw [hcons] at hx
    obtain rfl | ⟨ht, hne⟩ := mem_assign ht
    · obtain rfl | hx := List.mem_cons.mp hx
      · exact .inl rfl
      · exact absurd heq.symm (hnew x hx)
    · obtain rfl | hx := List.mem_cons.mp hx
      · exact absurd heq hne
      · exact h.same x hx t ht heq
  case reading =>
    intro e j ht
    rw [hcons]
    obtain heq | ⟨ht, -⟩ := mem_assign ht
    · obtain ⟨rfl, hj⟩ := Prod.mk.inj heq
      obtain rfl := Runner.reading.inj hj
      exact List.mem_cons_self
    · exact List.mem_cons_of_mem _ (h.reading e j ht)

lemma epoch (h : r.Paired) :
    Paired { r with lastEpoch := r.lastEpoch + 1, runners := r.runners ++ [(r.lastEpoch + 1, .starting)] } := by
  have hmem {t : Nat × Runner} (ht : t ∈ r.runners ++ [(r.lastEpoch + 1, .starting)]) :
      t ∈ r.runners ∨ t = (r.lastEpoch + 1, .starting) :=
    (List.mem_append.mp ht).imp id List.mem_singleton.mp
  refine { h with known := ?known, began := ?began, same := ?same, reading := ?reading }
  case known =>
    intro t ht
    obtain ht | rfl := hmem ht
    · exact Nat.le_succ_of_le (h.known t ht)
    · exact Nat.le_refl _
  case began =>
    intro x hx
    rw [List.map_append]
    exact List.mem_append_left _ (h.began x hx)
  case same =>
    intro x hx t ht heq
    obtain ht | rfl := hmem ht
    · exact h.same x hx t ht heq
    · obtain ⟨y, hy, hyx⟩ := List.mem_map.mp (h.began x hx)
      have hle := h.known y hy
      dsimp only at heq
      omega
  case reading =>
    intro e i ht
    obtain ht | heq := hmem ht
    · exact h.reading e i ht
    · exact nomatch (Prod.mk.inj heq).2

lemma accept (h : r.Paired) {call : Nat} {opened : Nat → Nat → Prop}
    (ho : ∀ c i, opened c i → r.opened c i ∨ c = call ∧ i = r.streams.length) :
    Paired { r with opened, streams := r.streams ++ [{}] } := by
  have hlength : (r.streams ++ [({} : Stream)]).length = r.streams.length + 1 := List.length_append
  refine { h with opened_lt := ?opened_lt, opened_inj := ?opened_inj, opened_fresh := ?opened_fresh, streams_lt := ?streams_lt }
  case opened_lt =>
    intro c i hc
    rw [hlength]
    obtain hold | ⟨-, rfl⟩ := ho c i hc
    · exact Nat.lt_succ_of_lt (h.opened_lt c i hold)
    · exact Nat.lt_succ_self _
  case opened_inj =>
    intro c c' i hc hc'
    obtain hold | ⟨rfl, rfl⟩ := ho c i hc
    · obtain hold' | ⟨rfl, rfl⟩ := ho c' i hc'
      · exact h.opened_inj c c' i hold hold'
      · exact absurd (h.opened_lt c _ hold) (Nat.lt_irrefl _)
    · obtain hold' | ⟨rfl, -⟩ := ho c' _ hc'
      · exact absurd (h.opened_lt c' _ hold') (Nat.lt_irrefl _)
      · rfl
  case opened_fresh =>
    intro c i hc x hx
    obtain hold | ⟨-, rfl⟩ := ho c i hc
    · exact h.opened_fresh c i hold x hx
    · exact Nat.ne_of_lt (h.streams_lt x hx)
  case streams_lt =>
    intro x hx
    rw [hlength]
    exact Nat.lt_succ_of_lt (h.streams_lt x hx)

lemma setStream (h : r.Paired) (i : Nat) (f : Stream → Stream) : (r.setStream i f).Paired := by
  have hlength : (r.setStream i f).streams.length = r.streams.length := List.length_modify ..
  exact h.frame (fun _ _ hc => hc) rfl rfl rfl (Nat.le_of_eq hlength.symm)

theorem step (h : r.Paired) (hstep : Step r r') : r'.Paired := by
  cases hstep with
  | forget opened ho => exact h.frame ho rfl rfl rfl (Nat.le_refl _)
  | accept call opened ho => exact h.accept ho
  | perform op hop => exact h.frame (fun _ _ hc => hc) rfl rfl rfl (Nat.le_refl _)
  | part i f hf => exact h.setStream i f
  | send i item => exact h.setStream i _
  | epoch _ => exact h.epoch
  | tell id => exact h.note rfl
  | restore id calls hq => exact h.setRunner nofun (.inr ⟨_, hq, nofun, nofun⟩)
  | ask id calls call deadline hq => exact h.setRunner nofun (.inr ⟨_, hq, nofun, nofun⟩)
  | read id call deadline i opened hq hi ho => exact h.read hq hi ho
  | update id i t u hr ht hu =>
    have hnote := (h.setStream i advance).note (e := .took id (.update u)) rfl
    exact hnote.frame (fun _ _ hc => hc) rfl rfl rfl (Nat.le_refl _)
  | malformed id i t f hr ht hf => exact (h.setStream i advance).note rfl
  | fail id i t f hr ht hf => exact ((h.setStream i advance).note rfl).setRunner nofun (.inl rfl)
  | stop id => exact h.setRunner nofun (.inl rfl)

end Paired

theorem paired_start (settings : Settings) (connectivity : Connectivity) (now : Nat) :
    (start settings connectivity now).reader.Paired where
  known := List.forall_mem_nil _
  opened_lt := by rintro c i ⟨k, hk, -⟩; exact absurd hk List.not_mem_nil
  opened_inj := by rintro c c' i ⟨k, hk, -⟩; exact absurd hk List.not_mem_nil
  opened_fresh := fun c i _ => List.forall_mem_nil _
  epochs := List.nodup_nil
  streams := List.nodup_nil
  streams_lt := List.forall_mem_nil _
  began := List.forall_mem_nil _
  same := List.forall_mem_nil _
  reading := fun id i hr => absurd hr List.not_mem_nil

end Reader

end Roster.Session
