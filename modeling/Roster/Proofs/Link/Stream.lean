import Mathlib.Data.List.Forall2
import Roster.Proofs.Link
import Roster.Proofs.Wire.Message

/-! What comes out of an update stream. Each frame up to the end of the stream gives one item, a malformed update its fault; then
one item terminates the stream and marks the link lost. `Due` says which items are still to come, and taking one shortens it. -/
namespace Roster.Link

open Wire (Bytes UpdateMessage kindNumber)

/-- The item a frame stands for. -/
inductive Translated : Bytes → Item → Prop
  | update {bytes : Bytes} {m : UpdateMessage} {kind : UpdateKind} : UpdateMessage.decode? bytes = some m → m.id ≠ "" →
    m.kind = kindNumber kind → Translated bytes (.update ⟨m.id, kind, m.member.map (·.member), m.version⟩)
  | missingId {bytes : Bytes} {m : UpdateMessage} : UpdateMessage.decode? bytes = some m → m.id = "" →
    Translated bytes (.failure (.update .missingId))
  | unknownKind {bytes : Bytes} {m : UpdateMessage} : UpdateMessage.decode? bytes = some m → m.id ≠ "" →
    (∀ kind, m.kind ≠ kindNumber kind) → Translated bytes (.failure (.update (.unknownKind m.id m.kind)))

/-- After which of its frames a stream ends, and why. -/
inductive EndsAfter (s : Updates) (frames : List Bytes) : String → Prop
  | finished : s.frames = frames → s.ending = .finished → EndsAfter s frames "closed by registry"
  | failed {status : Status} : s.frames = frames → s.ending = .failed status → EndsAfter s frames status.message
  | undecodable {bytes : Bytes} {rest : List Bytes} : s.frames = frames ++ bytes :: rest → UpdateMessage.decode? bytes = none →
    EndsAfter s frames "failed to decode Protobuf message"

variable {s s' : Updates} {frames : List Bytes} {bytes : Bytes} {reason : String} {item : Item} {items : List Item}

theorem translated_iff : Translated bytes item ↔ ∃ m, UpdateMessage.decode? bytes = some m ∧ item = Item.ofMessage m := by
  constructor
  · intro h
    cases h with
    | @update m kind hm hid hkind =>
      refine ⟨m, hm, ?_⟩
      obtain ⟨hempty, -⟩ | ⟨-, hunknown, -⟩ | ⟨-, kind', hkind', hread⟩ := m.read_cases
      · exact absurd hempty hid
      · exact absurd hkind (hunknown kind)
      · rw [Item.ofMessage, hread, Wire.kindNumber_inj (hkind.symm.trans hkind')]
    | @missingId m hm hid => exact ⟨m, hm, by simp [Item.ofMessage, Update.ofMessage, hid]⟩
    | @unknownKind m hm hid hunknown =>
      refine ⟨m, hm, ?_⟩
      obtain ⟨hempty, -⟩ | ⟨-, -, hread⟩ | ⟨-, kind, hkind, -⟩ := m.read_cases
      · exact absurd hempty hid
      · rw [Item.ofMessage, hread]
      · exact absurd hkind (hunknown kind)
  · rintro ⟨m, hm, rfl⟩
    obtain ⟨hid, hread⟩ | ⟨hid, hkind, hread⟩ | ⟨hid, kind, hkind, hread⟩ := m.read_cases
    · rw [Item.ofMessage, hread]
      exact .missingId hm hid
    · rw [Item.ofMessage, hread]
      exact .unknownKind hm hid hkind
    · rw [Item.ofMessage, hread]
      exact .update hm hid hkind

/-- A frame stands for an update or for what is wrong with it, never for the end of the stream. -/
theorem Translated.update_or_fault (h : Translated bytes item) :
    (∃ u, item = .update u) ∨ ∃ f, item = .failure (.update f) := by
  cases h with
  | update => exact .inl ⟨_, rfl⟩
  | missingId => exact .inr ⟨_, rfl⟩
  | unknownKind => exact .inr ⟨_, rfl⟩

theorem Translated.ne_terminal (h : Translated bytes item) (reason : String) : item ≠ terminal reason := by
  obtain ⟨u, rfl⟩ | ⟨f, rfl⟩ := h.update_or_fault <;> simp [terminal]

/-! One item -/

/-- The items a stream has still to give. -/
inductive Due : Updates → List Item → Prop
  | done {s : Updates} : s.terminated = true → Due s []
  | pending {s : Updates} {frames : List Bytes} {translated : List Item} {reason : String} : s.terminated = false →
    EndsAfter s frames reason → List.Forall₂ Translated frames translated → Due s (translated ++ [terminal reason])

theorem next?_of_nil (hopen : s.terminated = false) (h : EndsAfter s [] reason) :
    s.next? = some (terminal reason, { s with frames := [], terminated := true }) := by
  cases h with
  | finished hframes hend => simp [Updates.next?, hopen, hframes, hend]
  | failed hframes hend => simp [Updates.next?, hopen, hframes, hend]
  | undecodable hframes hbad => simp [Updates.next?, hopen, hframes, hbad]

theorem EndsAfter.frames_eq (h : EndsAfter s frames reason) : ∃ rest, s.frames = frames ++ rest := by
  cases h with
  | finished hframes => exact ⟨[], by simp [hframes]⟩
  | failed hframes => exact ⟨[], by simp [hframes]⟩
  | undecodable hframes => exact ⟨_, hframes⟩

/-- Without its first frame a stream ends as before, one frame earlier. -/
theorem EndsAfter.tail (h : EndsAfter s (bytes :: frames) reason) :
    ∃ rest, s.frames = bytes :: rest ∧ EndsAfter { s with frames := rest } frames reason := by
  cases h with
  | finished hframes hend => exact ⟨frames, hframes, .finished rfl hend⟩
  | failed hframes hend => exact ⟨frames, hframes, .failed rfl hend⟩
  | undecodable hframes hbad => exact ⟨_, hframes, .undecodable rfl hbad⟩

theorem Due.next?_nil (h : Due s []) : s.next? = none := by
  generalize hitems : ([] : List Item) = items at h
  cases h with
  | done hover => simp [Updates.next?, hover]
  | pending => simp at hitems

/-- The next item is the first of those still to come, and terminates the stream if it is the last. -/
theorem Due.next?_cons {later : List Item} (h : Due s (item :: later)) :
    ∃ s', s.next? = some (item, s') ∧ s'.terminated = later.isEmpty ∧ Due s' later := by
  generalize hitems : item :: later = items at h
  cases h with
  | done => simp at hitems
  | pending hopen hend htranslated =>
    cases htranslated with
    | nil =>
      obtain ⟨rfl, rfl⟩ := List.cons.inj hitems
      exact ⟨_, next?_of_nil hopen hend, rfl, .done rfl⟩
    | cons hhead htail =>
      obtain ⟨rfl, rfl⟩ := List.cons.inj hitems
      obtain ⟨m, hm, rfl⟩ := translated_iff.mp hhead
      obtain ⟨rest, hrest, hend'⟩ := hend.tail
      refine ⟨{ s with frames := rest }, by simp [Updates.next?, hopen, hrest, hm], ?_, .pending hopen hend' htail⟩
      simp [hopen]

/-- A link is lost with the last item, and with no other. -/
theorem Due.take?_cons {later : List Item} (h : Due s (item :: later)) (l : Link) :
    ∃ s', l.take? s = some (item, if later.isEmpty then l.markLost else l, s') ∧ Due s' later := by
  obtain ⟨s', hs', hterminated, hdue⟩ := h.next?_cons
  exact ⟨s', by simp [take?, hs', hterminated], hdue⟩

theorem Due.take?_nil (h : Due s []) (l : Link) : l.take? s = none := by simp [take?, h.next?_nil]

theorem Due.take?_eq_none_iff (h : Due s items) (l : Link) : l.take? s = none ↔ items = [] := by
  cases items with
  | nil => exact iff_of_true (h.take?_nil l) rfl
  | cons item later =>
    obtain ⟨s', hs', -⟩ := h.take?_cons l
    simp [hs']

/-! All items -/

theorem Due.takeWithin {fuel : Nat} (h : Due s items) (hfuel : items.length ≤ fuel) (l : Link) :
    ∃ s', l.takeWithin fuel s = (items, if items.isEmpty then l else l.markLost, s') ∧ Due s' [] := by
  induction fuel generalizing s items l with
  | zero =>
    obtain rfl : items = [] := List.length_eq_zero_iff.mp (Nat.le_zero.mp hfuel)
    exact ⟨s, rfl, h⟩
  | succ fuel ih =>
    cases items with
    | nil => exact ⟨s, by simp [Link.takeWithin, h.take?_nil], h⟩
    | cons item later =>
      obtain ⟨s', hs', hdue⟩ := h.take?_cons l
      obtain ⟨s'', hs'', hover⟩ := ih hdue (Nat.le_of_succ_le_succ hfuel) (if later.isEmpty then l.markLost else l)
      refine ⟨s'', ?_, hover⟩
      simp only [Link.takeWithin, hs', hs'']
      cases later <;> simp

/-! Items taken amid all else that happens to the link -/

structure Reading where
  link : Link
  rest : Updates
  taken : List Item := []
  deriving DecidableEq

inductive Reading.Move
  | take
  | other (m : Link.Move)

def Reading.step (v : Reading) : Reading.Move → Option Reading
  | .take => (v.link.take? v.rest).map fun (item, link, rest) => { link, rest, taken := v.taken ++ [item] }
  | .other m => (v.link.step m).map fun link => { v with link }

def Reading.run (v : Reading) (moves : List Reading.Move) : Option Reading := moves.foldlM Reading.step v

/-- What was taken and what is still to come make up the same items throughout. -/
theorem due_of_run {l : Link} {moves : List Reading.Move} {v : Reading} (hrun : Reading.run { link := l, rest := s } moves = some v)
    (h : Due s items) : ∃ later, items = v.taken ++ later ∧ Due v.rest later := by
  refine foldlM_induction (P := fun v : Reading => ∃ later, items = v.taken ++ later ∧ Due v.rest later) hrun ⟨items, rfl, h⟩
    fun u v m ⟨later, hitems, hdue⟩ hstep => ?_
  cases m with
  | other m =>
    obtain ⟨l, -, rfl⟩ := Option.map_eq_some_iff.mp hstep
    exact ⟨later, hitems, hdue⟩
  | take =>
    obtain ⟨⟨item, l, rest⟩, htake, rfl⟩ := Option.map_eq_some_iff.mp hstep
    cases later with
    | nil => simp [hdue.take?_nil] at htake
    | cons first later =>
      obtain ⟨s', hs', hdue'⟩ := hdue.take?_cons u.link
      obtain ⟨rfl, rfl, rfl⟩ : first = item ∧ _ = l ∧ s' = rest := by simpa using hs'.symm.trans htake
      exact ⟨later, by simp [hitems], hdue'⟩

/-! Main statement -/

theorem exists_translated (h : ∀ bytes ∈ frames, UpdateMessage.decode? bytes ≠ none) :
    ∃ translated, List.Forall₂ Translated frames translated := by
  induction frames with
  | nil => exact ⟨[], .nil⟩
  | cons bytes frames ih =>
    obtain ⟨m, hm⟩ := Option.ne_none_iff_exists'.mp (h bytes List.mem_cons_self)
    obtain ⟨translated, htranslated⟩ := ih fun other hother => h other (List.mem_cons_of_mem bytes hother)
    exact ⟨_, .cons (translated_iff.mpr ⟨m, hm, rfl⟩) htranslated⟩

theorem ne_terminal_of_mem {translated : List Item} (h : List.Forall₂ Translated frames translated) (hitem : item ∈ translated)
    (reason : String) : item ≠ terminal reason := by
  induction h with
  | nil => simp at hitem
  | cons hhead _ ih =>
    obtain rfl | hitem := List.mem_cons.mp hitem
    · exact hhead.ne_terminal reason
    · exact ih hitem

/-- Of the items still to come the first terminates the stream exactly if no other comes after it. -/
theorem first_eq_terminal_iff {translated taken later : List Item} (h : List.Forall₂ Translated frames translated)
    (hitems : translated ++ [terminal reason] = taken ++ item :: later) : item = terminal reason ↔ later = [] := by
  obtain rfl | ⟨init, last, rfl⟩ := List.eq_nil_or_concat' later
  · have hlast := List.append_inj_right' hitems rfl
    exact iff_of_true (List.singleton_inj.mp hlast).symm rfl
  · rw [← List.cons_append, ← List.append_assoc] at hitems
    have hinit : translated = taken ++ item :: init := List.append_inj_left' hitems rfl
    exact iff_of_false (ne_terminal_of_mem h (by simp [hinit]) reason) (by simp)

/-- A stream that ends, in whatever way, after frames that can be decoded gives one item for each of these, in their order: the
update of a well-formed one and the fault of a malformed one. Then it gives one item more, which terminates it, and none after
that. This is so when all is taken at once, and when checks, answers and other streams act on the link in between. No item but
the terminating one does anything to the link, and that one makes a ready link a lost one. -/
theorem stream_translated (hopen : s.terminated = false) (hend : EndsAfter s frames reason)
    (hframes : ∀ bytes ∈ frames, UpdateMessage.decode? bytes ≠ none) :
    ∃ translated, List.Forall₂ Translated frames translated ∧ (∀ item ∈ translated, ∀ other, item ≠ terminal other) ∧
      (∀ l : Link, ∃ rest, l.takeAll s = (translated ++ [terminal reason], l.markLost, rest) ∧
        ∀ l' : Link, l'.take? rest = none) ∧
      ∀ (l : Link) (moves : List Reading.Move) (v : Reading), Reading.run { link := l, rest := s } moves = some v →
        v.taken <+: translated ++ [terminal reason] ∧
        (v.link.take? v.rest = none ↔ v.taken = translated ++ [terminal reason]) ∧
        ∀ item l' rest, v.link.take? v.rest = some (item, l', rest) →
          v.taken ++ [item] <+: translated ++ [terminal reason] ∧
          (l'.take? rest = none ↔ item = terminal reason) ∧
          l' = (if item = terminal reason then v.link.markLost else v.link) ∧
          (v.link.connectivity = .ready → (l'.connectivity ≠ .ready ↔ item = terminal reason)) := by
  obtain ⟨translated, htranslated⟩ := exists_translated hframes
  have hdue : Due s (translated ++ [terminal reason]) := .pending hopen hend htranslated
  refine ⟨translated, htranslated, fun item hitem => ne_terminal_of_mem htranslated hitem, fun l => ?_, fun l moves v hrun => ?_⟩
  · have hlen : (translated ++ [terminal reason]).length ≤ s.frames.length + 1 := by
      obtain ⟨rest, hrest⟩ := hend.frames_eq
      simp [hrest, htranslated.length_eq]
    obtain ⟨rest, hall, hover⟩ := hdue.takeWithin hlen l
    exact ⟨rest, by simpa [takeAll] using hall, hover.take?_nil⟩
  · obtain ⟨later, hitems, hlater⟩ := due_of_run hrun hdue
    refine ⟨⟨later, hitems.symm⟩, ?_, fun item l' rest htake => ?_⟩
    · rw [hlater.take?_eq_none_iff, hitems, List.self_eq_append_right]
    · cases later with
      | nil => simp [hlater.take?_nil] at htake
      | cons first later =>
        obtain ⟨s', hs', hdue'⟩ := hlater.take?_cons v.link
        obtain ⟨rfl, rfl, rfl⟩ : first = item ∧ _ = l' ∧ s' = rest := by simpa using hs'.symm.trans htake
        have hlast := first_eq_terminal_iff htranslated hitems
        refine ⟨⟨later, by simp [hitems]⟩, ?_, ?_, fun hready => ?_⟩
        · rw [hlast, hdue'.take?_eq_none_iff]
        · simp [hlast]
        · rw [hlast]
          cases later with
          | nil => simp [markLost, hready, Connectivity.lost]
          | cons => simp [hready]

/-- A registration of "a" without its member, and an update without an id. -/
def sound : List Bytes := [[0x0a, 1, 0x61, 0x10, 1], [0x10, 1]]

/-- Two frames that can be decoded, one that is cut off, and one that is never looked at. -/
def cutOff : Updates := { frames := sound ++ [[0x0a], [0x10, 1]], ending := .stays }

/-- The second item is taken after the link was lost and restored. -/
def restoredBetween : List Reading.Move := [.take, .other (.probed false), .other (.probed true), .take]

/-- Whereupon two items were taken, and the link is as it was. -/
def twoTaken : Reading := {
  link := { clientId := "c", settings := {} }
  rest := { cutOff with frames := [[0x0a], [0x10, 1]] }
  taken := [.update ⟨"a", .register, none, none⟩, .failure (.update .missingId)] }

theorem cut_off_amid_probes :
    cutOff.terminated = false ∧ EndsAfter cutOff sound "failed to decode Protobuf message" ∧
      (∀ bytes ∈ sound, UpdateMessage.decode? bytes ≠ none) ∧
      Reading.run { link := { clientId := "c", settings := {} }, rest := cutOff } restoredBetween = some twoTaken ∧
      ∃ l rest, twoTaken.link.take? twoTaken.rest = some (terminal "failed to decode Protobuf message", l, rest) ∧
        l = twoTaken.link.markLost ∧ l.connectivity ≠ .ready ∧ l.take? rest = none := by
  have hend : EndsAfter cutOff sound "failed to decode Protobuf message" := .undecodable rfl (by decide +kernel)
  have hframes : ∀ bytes ∈ sound, UpdateMessage.decode? bytes ≠ none := by decide +kernel
  have hrun : Reading.run { link := { clientId := "c", settings := {} }, rest := cutOff } restoredBetween = some twoTaken := by
    decide +kernel
  obtain ⟨⟨item, l, rest⟩, htake⟩ : ∃ next, twoTaken.link.take? twoTaken.rest = some next :=
    Option.isSome_iff_exists.mp (by decide +kernel)
  have hitem : item = terminal "failed to decode Protobuf message" := by
    have hfirst : (twoTaken.link.take? twoTaken.rest).map (·.1) = some (terminal "failed to decode Protobuf message") := by
      decide +kernel
    simpa [htake] using hfirst
  obtain ⟨translated, -, -, -, hreading⟩ := stream_translated rfl hend hframes
  obtain ⟨-, -, hnext⟩ := hreading _ _ _ hrun
  obtain ⟨-, hover, hl, hready⟩ := hnext item l rest htake
  subst hitem
  exact ⟨rfl, hend, hframes, hrun, l, rest, htake, hl, (hready rfl).mpr rfl, hover.mpr rfl⟩

end Roster.Link
