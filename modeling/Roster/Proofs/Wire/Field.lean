import Roster.Wire.Field

/-! Fields are read back from the bytes they were written to, whatever number of them follows. -/
namespace Roster.Wire

/-- What is ever written: numbers of 64 bits, and texts and messages whose length is such a number. -/
def Payload.Fits : Payload → Prop
  | varint n => n < UInt64.size
  | block bytes => bytes.length < UInt64.size
  | fixed64 _ | group | fixed32 _ => False

structure Field.Fits (f : Field) : Prop where
  pos : 0 < f.number
  /-- The number and the form share a word of 32 bits. -/
  lt : 8 * f.number + 7 < UInt32.size
  payload : f.payload.Fits

variable {number form : Nat} {f : Field} {fs : List Field} {room : Nat}

theorem key?_encodeKey (hpos : 0 < number) (hlt : 8 * number + 7 < UInt32.size) (hform : form < 8) (rest : Bytes) :
    key? (encodeKey number form ++ rest) = some (number, form, rest) := by
  have hword : 8 * number + form < UInt64.size := Nat.lt_trans (by omega) (show UInt32.size < UInt64.size by decide)
  have hkey : (guard (8 * number + form < UInt32.size ∧ 8 ≤ 8 * number + form) : Option Unit) = some () := if_pos (by omega)
  have hnumber : (8 * number + form) / 8 = number := by omega
  have hrest : (8 * number + form) % 8 = form := by omega
  unfold key? encodeKey
  rw [varint?_encodeVarint _ hword]
  refine (congrArg (Option.bind · _) hkey).trans ?_
  rw [Option.bind_some, hnumber, hrest]
  rfl

theorem take?_append (bytes rest : Bytes) : take? bytes.length (bytes ++ rest) = some (bytes, rest) := by
  simp [take?]

/-- The bytes of a field after its key. -/
def Payload.encode (number : Nat) : Payload → Bytes
  | varint n => encodeVarint n
  | fixed64 bytes | fixed32 bytes => bytes
  | block bytes => encodeVarint bytes.length ++ bytes
  | group => encodeKey number groupEnd

theorem Field.encode_eq (f : Field) :
    f.encode = encodeKey f.number f.payload.form ++ f.payload.encode f.number := by
  unfold Field.encode
  cases f.payload <;> rfl

theorem payload?_encode {p : Payload} (h : p.Fits) (passGroup : Nat → Bytes → Option Bytes) (rest : Bytes) :
    payload? passGroup number (p.encode number ++ rest) p.form = some (p, rest) := by
  cases p with
  | varint n => simp [Payload.encode, Payload.form, payload?, varint?_encodeVarint n h]
  | block bytes =>
    have hlength := varint?_encodeVarint bytes.length h (bytes ++ rest)
    simp [Payload.encode, Payload.form, payload?, hlength, take?_append]
  | fixed64 bytes => exact h.elim
  | group => exact h.elim
  | fixed32 bytes => exact h.elim

theorem encodeVarint_ne_nil (n : Nat) : encodeVarint n ≠ [] := by
  rw [encodeVarint]
  split <;> exact List.cons_ne_nil _ _

theorem Field.length_encode_pos (f : Field) : 0 < f.encode.length := by
  rw [f.encode_eq, encodeKey, List.length_append]
  exact Nat.add_pos_left (List.length_pos_iff.mpr (encodeVarint_ne_nil _)) _

theorem encodeFields_cons (f : Field) (fs : List Field) : encodeFields (f :: fs) = f.encode ++ encodeFields fs := rfl

theorem Payload.form_lt (p : Payload) : p.form < 8 := by
  cases p <;> simp [form]

theorem fieldsFrom_encode_append (h : f.Fits) (fuel : Nat) (rest : Bytes) :
    fieldsFrom room (fuel + 1) (f.encode ++ rest) = (fieldsFrom room fuel rest).map (f :: ·) := by
  have hkey := key?_encodeKey h.pos h.lt f.payload.form_lt (f.payload.encode f.number ++ rest)
  rw [← List.append_assoc, ← f.encode_eq] at hkey
  cases hbytes : f.encode ++ rest with
  | nil =>
    have hlength := congrArg List.length hbytes
    have hpos := f.length_encode_pos
    simp only [List.length_append, List.length_nil] at hlength
    omega
  | cons b bs =>
    rw [hbytes] at hkey
    rw [fieldsFrom]
    · simp only [hkey, payload?_encode h.payload, Option.bind_eq_bind, Option.bind_some, Option.map_eq_bind]
      rfl
    · exact nofun

theorem fieldsFrom_encodeFields (h : ∀ f ∈ fs, f.Fits) (fuel : Nat) (hfuel : (encodeFields fs).length ≤ fuel) :
    fieldsFrom room fuel (encodeFields fs) = some fs := by
  induction fs generalizing fuel with
  | nil => cases fuel <;> rfl
  | cons f fs ih =>
    rw [encodeFields_cons, List.length_append] at hfuel
    have hpos := f.length_encode_pos
    obtain ⟨fuel, rfl⟩ : ∃ less, fuel = less + 1 := Nat.exists_eq_add_one.mpr (by omega)
    have hrest := ih (fun g hg => h g (List.mem_cons_of_mem f hg)) fuel (by omega)
    rw [encodeFields_cons, fieldsFrom_encode_append (h f List.mem_cons_self), hrest]
    rfl

theorem fields?_encodeFields (h : ∀ f ∈ fs, f.Fits) : fields? room (encodeFields fs) = some fs :=
  fieldsFrom_encodeFields h _ (Nat.le_refl _)

/-- A message within a message is shorter than the whole. -/
theorem length_block_lt {bytes : Bytes} (h : ⟨number, .block bytes⟩ ∈ fs) :
    bytes.length < (encodeFields fs).length := by
  induction fs with
  | nil => exact nomatch h
  | cons f fs ih =>
    rw [encodeFields_cons, List.length_append]
    obtain rfl | h := List.mem_cons.mp h
    · have hlength := List.length_pos_iff.mpr (encodeVarint_ne_nil bytes.length)
      simp only [Field.encode_eq, Payload.encode, List.length_append]
      omega
    · have := ih h
      omega

end Roster.Wire
