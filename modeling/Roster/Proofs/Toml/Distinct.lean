import Mathlib.Data.List.Nodup
import Mathlib.Data.Option.Basic
import Roster.Toml

/-! In what is read from TOML, no table has two entries of one name. -/
namespace Roster

namespace Document

/-- No table in a tree has two entries of one name. -/
inductive Distinct : Document → Prop
  | single {d : Document} : (∀ ds, d ≠ .list ds) → (∀ es, d ≠ .table es) → Distinct d
  | list {ds : List Document} : (∀ d ∈ ds, Distinct d) → Distinct (.list ds)
  | table {es : List (String × Document)} : (es.map (·.1)).Nodup → (∀ e ∈ es, Distinct e.2) → Distinct (.table es)

theorem Distinct.of_table {es : List (String × Document)} (h : Distinct (.table es)) :
    (es.map (·.1)).Nodup ∧ ∀ e ∈ es, Distinct e.2 := by
  cases h with
  | single _ hno => exact absurd rfl (hno es)
  | table hnodup hentries => exact ⟨hnodup, hentries⟩

end Document

namespace Toml

open Document (Distinct)

/-! While a document is read -/

inductive Node.Sound : Node → Prop
  | value {d : Document} : Distinct d → Sound (.value d)
  | table {origin : Origin} {es : Entries} : (es.map (·.1)).Nodup → (∀ e ∈ es, Sound e.2) → Sound (.table origin es)
  | tables {items : List Entries} : (∀ es ∈ items, (es.map (·.1)).Nodup) → (∀ es ∈ items, ∀ e ∈ es, Sound e.2) →
    Sound (.tables items)

namespace Entries

def Sound (es : Entries) : Prop := (es.map (·.1)).Nodup ∧ ∀ e ∈ es, e.2.Sound

variable {es es' : Entries} {key : String} {n : Node} {path : List String} {d : Document} {lines : List (List String × Document)}

theorem sound_nil : Sound [] := ⟨List.nodup_nil, nofun⟩

theorem Sound.of_get? (h : es.Sound) (hget : es.get? key = some n) : n.Sound := by
  obtain ⟨e, he, rfl⟩ := Option.map_eq_some_iff.mp hget
  exact h.2 e (List.mem_of_find?_eq_some he)

theorem Sound.put (h : es.Sound) (hn : n.Sound) : (es.put key n).Sound := by
  unfold Entries.put
  cases hget : es.get? key with
  | none =>
    have habsent : key ∉ es.map (·.1) := by
      intro hmem
      obtain ⟨e, he, rfl⟩ := List.mem_map.mp hmem
      simpa using List.find?_eq_none.mp (Option.map_eq_none_iff.mp hget) e he
    constructor
    · rw [List.map_append]
      exact List.nodup_append_comm.mp (List.nodup_cons.mpr ⟨habsent, h.1⟩)
    · exact List.forall_mem_append.mpr ⟨h.2, List.forall_mem_singleton.mpr hn⟩
  | some old =>
    constructor
    · have hkeys : (es.map fun e => if e.1 = key then (key, n) else e).map (·.1) = es.map (·.1) := by
        rw [List.map_map]
        exact List.map_congr_left fun e _ => by by_cases heq : e.1 = key <;> simp [heq]
      exact hkeys ▸ h.1
    · refine List.forall_mem_map.mpr fun e he => ?_
      split
      · exact hn
      · exact h.2 e he

theorem Sound.descend {dotted : Bool} {change : Origin → Entries → Option Entries} {origin : Origin} (h : es.Sound)
    (hchange : ∀ origin es es', es.Sound → change origin es = some es' → es'.Sound)
    (hdescend : es.descend dotted change path origin = some es') : es'.Sound := by
  induction path generalizing es es' origin with
  | nil => exact hchange origin es es' h hdescend
  | cons key path ih =>
    unfold Entries.descend at hdescend
    cases hget : es.get? key with
    | none =>
      rw [hget] at hdescend
      obtain ⟨inner, hinner, hput⟩ := Option.bind_eq_some_iff.mp hdescend
      obtain rfl := Option.some.inj hput
      have hsound := ih sound_nil hinner
      exact h.put (.table hsound.1 hsound.2)
    | some n =>
      rw [hget] at hdescend
      cases h.of_get? hget with
      | value _ => exact nomatch hdescend
      | table hnodup hentries =>
        obtain ⟨_, _, hdescend⟩ := Option.bind_eq_some_iff.mp hdescend
        obtain ⟨inner, hinner, hput⟩ := Option.bind_eq_some_iff.mp hdescend
        obtain rfl := Option.some.inj hput
        have hsound := ih ⟨hnodup, hentries⟩ hinner
        exact h.put (.table hsound.1 hsound.2)
      | @tables items hnodup hentries =>
        cases items with
        | nil => exact nomatch hdescend
        | cons newest older =>
          obtain ⟨inner, hinner, hput⟩ := Option.bind_eq_some_iff.mp hdescend
          obtain rfl := Option.some.inj hput
          rw [List.forall_mem_cons] at hnodup hentries
          have hsound := ih ⟨hnodup.1, hentries.1⟩ hinner
          exact h.put (.tables (List.forall_mem_cons.mpr ⟨hsound.1, hnodup.2⟩)
            (List.forall_mem_cons.mpr ⟨hsound.2, hentries.2⟩))

theorem Sound.addValue (h : es.Sound) (hd : Distinct d) (hadd : es.addValue path d = some es') : es'.Sound := by
  unfold Entries.addValue at hadd
  split at hadd
  · exact nomatch hadd
  · refine h.descend (fun _ es es' hes hchange => ?_) hadd
    obtain ⟨_, _, hput⟩ := Option.bind_eq_some_iff.mp hchange
    obtain rfl := Option.some.inj hput
    exact hes.put (.value hd)

theorem Sound.addValues (h : es.Sound) (hlines : ∀ l ∈ lines, Distinct l.2) (hadd : es.addValues lines = some es') :
    es'.Sound := by
  induction lines generalizing es with
  | nil => exact Option.some.inj hadd ▸ h
  | cons l lines ih =>
    rw [List.forall_mem_cons] at hlines
    obtain ⟨inner, hinner, hadd⟩ := Option.bind_eq_some_iff.mp hadd
    exact ih (h.addValue hlines.1 hinner) hlines.2 hadd

theorem Sound.addPart {p : Part} (h : es.Sound) (hp : ∀ l ∈ p.lines, Distinct l.2) (hadd : es.addPart p = some es') :
    es'.Sound := by
  unfold Entries.addPart at hadd
  split at hadd
  · exact h.addValues hp hadd
  · split at hadd
    · exact nomatch hadd
    · refine h.descend (fun _ es es' hes hchange => ?_) hadd
      split at hchange
      · obtain ⟨inner, hinner, hput⟩ := Option.bind_eq_some_iff.mp hchange
        obtain rfl := Option.some.inj hput
        have hsound := sound_nil.addValues hp hinner
        exact hes.put (.table hsound.1 hsound.2)
      · next hget _ =>
        obtain ⟨inner, hinner, hput⟩ := Option.bind_eq_some_iff.mp hchange
        obtain rfl := Option.some.inj hput
        cases hes.of_get? hget with
        | table hnodup hentries =>
          have hsound := Sound.addValues ⟨hnodup, hentries⟩ hp hinner
          exact hes.put (.table hsound.1 hsound.2)
      · obtain ⟨inner, hinner, hput⟩ := Option.bind_eq_some_iff.mp hchange
        obtain rfl := Option.some.inj hput
        have hsound := sound_nil.addValues hp hinner
        exact hes.put (.tables (List.forall_mem_singleton.mpr hsound.1) (List.forall_mem_singleton.mpr hsound.2))
      · next hget _ =>
        obtain ⟨inner, hinner, hput⟩ := Option.bind_eq_some_iff.mp hchange
        obtain rfl := Option.some.inj hput
        cases hes.of_get? hget with
        | tables hnodup hentries =>
          have hsound := sound_nil.addValues hp hinner
          exact hes.put (.tables (List.forall_mem_cons.mpr ⟨hsound.1, hnodup⟩)
            (List.forall_mem_cons.mpr ⟨hsound.2, hentries⟩))
      · exact nomatch hchange

end Entries

theorem Node.entriesToDocuments_eq_map (es : Entries) :
    Node.entriesToDocuments es = es.map fun e => (e.1, e.2.toDocument) := by
  induction es with
  | nil => rw [entriesToDocuments]; rfl
  | cons e es ih => rw [entriesToDocuments, ih]; rfl

theorem Node.itemsToDocuments_eq_map (items : List Entries) :
    Node.itemsToDocuments items = items.map fun es => .table (Node.entriesToDocuments es) := by
  induction items with
  | nil => rw [itemsToDocuments]; rfl
  | cons es items ih => rw [itemsToDocuments, ih]; rfl

theorem distinct_table {es : Entries} (hnodup : (es.map (·.1)).Nodup) (h : ∀ e ∈ es, Distinct e.2.toDocument) :
    Distinct (.table (Node.entriesToDocuments es)) := by
  rw [Node.entriesToDocuments_eq_map]
  refine .table ?_ (List.forall_mem_map.mpr h)
  rw [List.map_map]
  exact hnodup

theorem Node.Sound.distinct {n : Node} (h : n.Sound) : Distinct n.toDocument := by
  induction h with
  | value hd => exact hd
  | table hnodup _ ih => exact distinct_table hnodup ih
  | tables hnodup _ ih =>
    rw [Node.toDocument, Node.itemsToDocuments_eq_map]
    refine .list fun d hd => ?_
    obtain ⟨es, hes, rfl⟩ := List.mem_map.mp (List.mem_reverse.mp hd)
    exact distinct_table (hnodup es hes) (ih es hes)

theorem Entries.Sound.distinct {es : Entries} (h : es.Sound) : Distinct (.table (Node.entriesToDocuments es)) :=
  distinct_table h.1 fun e he => (h.2 e he).distinct

/-! Reading -/

/-- What is read, if anything, is of some kind. -/
def Yields {α : Type} (P : α → Prop) (m : Scan α) : Prop := ∀ cs a rest, m.run cs = some (a, rest) → P a

namespace Yields

variable {α β : Type} {P : α → Prop} {Q : β → Prop}

theorem pure {a : α} (h : P a) : Yields P (Pure.pure a) := by
  rintro cs b rest hrun
  exact (Prod.mk.inj (Option.some.inj hrun)).1 ▸ h

theorem failure : Yields P failure := nofun

theorem lift {o : Option α} (h : ∀ a, o = some a → P a) : Yields P (liftM o) := by
  rintro cs b rest hrun
  obtain ⟨a, ha, hrun⟩ := Option.bind_eq_some_iff.mp hrun
  exact (Prod.mk.inj (Option.some.inj hrun)).1 ▸ h a ha

theorem seq {m : Scan β} {f : β → Scan α} (hm : Yields Q m) (hf : ∀ b, Q b → Yields P (f b)) : Yields P (m >>= f) := by
  rintro cs a rest hrun
  obtain ⟨⟨b, cs'⟩, hb, hrun⟩ := Option.bind_eq_some_iff.mp hrun
  exact hf b (hm cs b cs' hb) cs' a rest hrun

/-- What comes before does not matter. -/
theorem bind {m : Scan β} {f : β → Scan α} (hf : ∀ b, Yields P (f b)) : Yields P (m >>= f) :=
  seq (Q := fun _ => True) (fun _ _ _ _ => trivial) fun b _ => hf b

end Yields

theorem yields_elements {element : Scan Document} (helement : Yields Distinct element) (fuel : Nat) :
    Yields (∀ d ∈ ·, Distinct d) (elements element fuel) := by
  induction fuel with
  | zero => exact .failure
  | succ fuel ih =>
    refine .bind fun _ => .bind fun closed => ?_
    cases closed with
    | true => exact .pure nofun
    | false =>
      refine .seq helement fun d hd => .bind fun _ => .bind fun comma => ?_
      cases comma with
      | true => exact .seq ih fun ds hds => .pure (List.forall_mem_cons.mpr ⟨hd, hds⟩)
      | false => exact .bind fun _ => .pure (List.forall_mem_singleton.mpr hd)

theorem yields_keyValue {element : Scan Document} (helement : Yields Distinct element) :
    Yields (fun l => Distinct l.2) (keyValue element) :=
  .bind fun _ => .bind fun _ => .bind fun _ => .seq helement fun _ hd => .bind fun _ => .pure hd

theorem yields_inlineEntries {element : Scan Document} (helement : Yields Distinct element) (fuel : Nat) :
    Yields (∀ l ∈ ·, Distinct l.2) (inlineEntries element fuel) := by
  induction fuel with
  | zero => exact .failure
  | succ fuel ih =>
    refine .seq (yields_keyValue helement) fun l hl => .bind fun comma => ?_
    cases comma with
    | true => exact .seq ih fun ls hls => .pure (List.forall_mem_cons.mpr ⟨hl, hls⟩)
    | false => exact .bind fun _ => .pure (List.forall_mem_singleton.mpr hl)

theorem yields_scalar : Yields Distinct scalar := by
  refine .bind fun cs => ?_
  dsimp only
  split
  · exact .pure (.single nofun nofun)
  split
  · exact .pure (.single nofun nofun)
  refine .lift fun d hd => ?_
  simp only [Option.orElse_eq_orElse, Option.orElse_eq_or, Option.or_eq_some_iff, Option.map_eq_some_iff] at hd
  obtain ⟨_, _, rfl⟩ | ⟨-, ⟨_, _, rfl⟩ | ⟨-, _, _, rfl⟩⟩ := hd
  · exact .single nofun nofun
  · exact .single nofun nofun
  · exact .single nofun nofun

theorem yields_valueOver {inner : Option (Scan Document)} (hinner : ∀ m ∈ inner, Yields Distinct m) :
    Yields Distinct (valueOver inner) := by
  refine .bind fun next => ?_
  split
  · exact .bind fun _ => .pure (.single nofun nofun)
  · exact .bind fun _ => .pure (.single nofun nofun)
  · next element =>
    exact .bind fun _ => .bind fun _ => .seq (yields_elements (hinner element rfl) _) fun ds hds => .pure (.list hds)
  · next element =>
    refine .bind fun _ => .bind fun _ => .bind fun closed => ?_
    cases closed with
    | true => exact .pure (.table List.nodup_nil nofun)
    | false =>
      refine .bind fun _ => .seq (yields_inlineEntries (hinner element rfl) _) fun lines hlines => ?_
      refine .seq (.lift fun es hes => Entries.sound_nil.addValues hlines hes) fun es hes => .pure hes.distinct
  · exact yields_scalar

theorem yields_value (room : Nat) : Yields Distinct (value room) := by
  induction room with
  | zero => exact yields_valueOver nofun
  | succ room ih => exact yields_valueOver fun m hm => Option.some.inj hm ▸ ih

def Line.Sound : Line → Prop
  | .header _ _ => True
  | .entry _ d => Distinct d

theorem yields_header : Yields Line.Sound header := by
  refine .bind fun listed => ?_
  cases listed with
  | true => exact .bind fun _ => .bind fun _ => .pure trivial
  | false => exact .bind fun _ => .bind fun _ => .bind fun _ => .pure trivial

theorem yields_linesFrom (fuel : Nat) : Yields (∀ l ∈ ·, l.Sound) (linesFrom fuel) := by
  induction fuel with
  | zero => exact .failure
  | succ fuel ih =>
    refine .bind fun _ => .bind fun next => ?_
    split
    · exact .pure nofun
    · exact .bind fun _ => ih
    · exact .bind fun _ => ih
    · exact .bind fun _ => ih
    · refine .seq yields_header fun l hl => .bind fun _ => .seq ih fun ls hls => ?_
      exact .pure (List.forall_mem_cons.mpr ⟨hl, hls⟩)
    · refine .seq (yields_keyValue (yields_value _)) fun l hl => .bind fun _ => .seq ih fun ls hls => ?_
      exact .pure (List.forall_mem_cons.mpr ⟨hl, hls⟩)

theorem distinct_of_mem_parts {ls : List Line} (h : ∀ l ∈ ls, l.Sound) :
    ∀ p ∈ (parts ls).1 :: (parts ls).2, ∀ l ∈ p.lines, Distinct l.2 := by
  induction ls with
  | nil => exact List.forall_mem_singleton.mpr nofun
  | cons l ls ih =>
    rw [List.forall_mem_cons] at h
    have ih := List.forall_mem_cons.mp (ih h.2)
    cases l with
    | header listed path => exact List.forall_mem_cons.mpr ⟨nofun, List.forall_mem_cons.mpr ⟨ih.1, ih.2⟩⟩
    | entry path d => exact List.forall_mem_cons.mpr ⟨List.forall_mem_cons.mpr ⟨h.1, ih.1⟩, ih.2⟩

theorem Entries.Sound.addParts {ps : List Part} {es es' : Entries} (h : es.Sound)
    (hps : ∀ p ∈ ps, ∀ l ∈ p.lines, Distinct l.2) (hadd : ps.foldlM Entries.addPart es = some es') : es'.Sound := by
  induction ps generalizing es with
  | nil => exact Option.some.inj hadd ▸ h
  | cons p ps ih =>
    rw [List.forall_mem_cons] at hps
    obtain ⟨inner, hinner, hadd⟩ := Option.bind_eq_some_iff.mp hadd
    exact ih (h.addPart hps.1 hinner) hps.2 hadd

theorem yields_document : Yields (fun es => Distinct (.table es)) document := by
  refine .bind fun _ => .bind fun _ => .seq (yields_linesFrom _) fun ls hls => ?_
  refine .seq (.lift fun es hes => Entries.sound_nil.addParts (distinct_of_mem_parts hls) hes) fun es hes => ?_
  exact .pure hes.distinct

/-- A document that is one gives no name twice. -/
theorem distinct_of_parse {s : String} {es : List (String × Document)} (h : parse s = some es) : Distinct (.table es) := by
  obtain ⟨⟨es, rest⟩, hrun, rfl⟩ := Option.map_eq_some_iff.mp h
  exact yields_document _ _ _ hrun

end Toml

end Roster
