import Roster.Proofs.Glob.Language

/-! Comparing bytes decides patterns over characters. UTF-8 is self-synchronising: where the bytes of a character stand among
those of a text, the character stands in the text. So what a star takes in front of a character is whole characters,
although the comparison lets it take one byte at a time. -/
namespace Roster.Glob

open String (utf8EncodeChar)

variable {c d : Char} {l p : List Char} {run rest : List UInt8}

/-! The bytes of characters -/

def bytes (l : List Char) : List UInt8 := l.flatMap utf8EncodeChar

theorem bytes_nil : bytes [] = [] := rfl

theorem bytes_cons (c : Char) (l : List Char) : bytes (c :: l) = utf8EncodeChar c ++ bytes l := List.flatMap_cons

theorem bytes_append (l m : List Char) : bytes (l ++ m) = bytes l ++ bytes m := List.flatMap_append

theorem toList_toUTF8 (s : String) : s.toUTF8.data.toList = bytes s.toList := by
  conv => lhs; rw [← String.ofList_toList (s := s)]
  exact congrArg Array.toList List.data_toByteArray

theorem bytes_eq_nil_iff : bytes l = [] ↔ l = [] := by
  cases l with
  | nil => simp [bytes_nil]
  | cons c l => simp [bytes_cons]

/-- The bytes of a character are not the beginning of another's. -/
theorem encode_append_inj {x y : List UInt8} (h : utf8EncodeChar c ++ x = utf8EncodeChar d ++ y) : c = d ∧ x = y := by
  have hread (c : Char) (x : List UInt8) : (utf8EncodeChar c ++ x).toByteArray.utf8DecodeChar? 0 = some c := by
    rw [List.toByteArray_append]
    exact ByteArray.utf8DecodeChar?_utf8EncodeChar_append
  have hc := hread c x
  rw [h, hread d y] at hc
  obtain rfl := Option.some.inj hc
  exact ⟨rfl, List.append_cancel_left h⟩

/-- The byte of a star is in no other character. -/
theorem star_notMem_encode (hc : c ≠ '*') : ∀ b ∈ utf8EncodeChar c, b ≠ 42 := by
  rintro b hb rfl
  obtain ⟨i, hi, hget⟩ := List.mem_iff_getElem.mp hb
  have hfirst : (utf8EncodeChar c)[i].IsUTF8FirstByte := by
    rw [hget]
    decide
  obtain rfl := UInt8.isUTF8FirstByte_getElem_utf8EncodeChar.mp hfirst
  have hstar : utf8EncodeChar c ++ [] = utf8EncodeChar '*' ++ (utf8EncodeChar c).tail := by
    rw [List.append_nil, ← List.cons_head_tail String.utf8EncodeChar_ne_nil, List.head_eq_getElem, hget]
    rfl
  exact hc (encode_append_inj hstar).1

/-- Inside a character no other begins. -/
theorem not_firstByte_inside {b : UInt8} {tail : List UInt8} (hrun : run ≠ []) (h : utf8EncodeChar d = run ++ b :: tail) :
    ¬ b.IsUTF8FirstByte := by
  have hlt : run.length < (utf8EncodeChar d).length := by simp [h]
  have hget : (utf8EncodeChar d)[run.length] = b := by simp [h]
  rw [← hget, UInt8.isUTF8FirstByte_getElem_utf8EncodeChar]
  exact mt List.length_eq_zero_iff.mp hrun

theorem head_isUTF8FirstByte {b : UInt8} {tail x : List UInt8} (h : utf8EncodeChar c ++ x = b :: tail) :
    b.IsUTF8FirstByte := by
  obtain ⟨first, more, hc⟩ := List.exists_cons_of_ne_nil (String.utf8EncodeChar_ne_nil (c := c))
  rw [hc] at h
  obtain rfl : first = b := (List.cons.inj h).1
  have hfirst := UInt8.isUTF8FirstByte_getElem_zero_utf8EncodeChar (c := c)
  simp only [hc] at hfirst
  exact hfirst

/-- Where the bytes of a character stand among those of a text, it stands in the text. -/
theorem exists_char_of_bytes (h : bytes l = run ++ (utf8EncodeChar c ++ rest)) :
    ∃ before after, l = before ++ c :: after ∧ bytes before = run ∧ bytes after = rest := by
  induction l generalizing run with
  | nil => simp [bytes_nil] at h
  | cons d l ih =>
    rw [bytes_cons] at h
    obtain ⟨later, rfl, hlater⟩ | ⟨tail, hd, htail⟩ := List.append_eq_append_iff.mp h
    · obtain ⟨before, after, rfl, hbefore, hafter⟩ := ih hlater
      exact ⟨d :: before, after, rfl, by rw [bytes_cons, hbefore], hafter⟩
    cases tail with
    | nil =>
      have hall : bytes l = [] ++ (utf8EncodeChar c ++ rest) := htail.symm
      obtain ⟨before, after, rfl, hbefore, hafter⟩ := ih hall
      obtain rfl := bytes_eq_nil_iff.mp hbefore
      exact ⟨[d], after, rfl, by rw [bytes_cons, hd]; simp [bytes_nil], hafter⟩
    | cons b tail =>
      -- The character begins before the end of `d`, so it is `d`.
      have hrun : run = [] := by
        by_contra hrun
        exact not_firstByte_inside hrun hd (head_isUTF8FirstByte htail)
      subst hrun
      obtain ⟨rfl, hrest⟩ := encode_append_inj h
      exact ⟨[], l, rfl, rfl, hrest⟩

/-! Patterns over bytes and over characters -/

theorem generates_bytes (h : Generates '*' p l) : Generates 42 (bytes p) (bytes l) := by
  induction h with
  | nil => exact .nil
  | literal hc _ ih =>
    rw [bytes_cons, bytes_cons]
    exact (generates_append_iff (star_notMem_encode hc)).mpr ⟨_, rfl, ih⟩
  | star run _ ih =>
    rw [bytes_append]
    exact .star (bytes run) ih

/-- What follows some bytes of a text may begin inside a character. Then a pattern can generate it only by a star, which takes
what is in front as well. -/
theorem generates_of_bytes (hl : bytes l = run ++ rest) (h : Generates 42 (bytes p) rest) :
    Generates '*' ('*' :: p) l ∧ (run = [] → Generates '*' p l) := by
  induction p generalizing l run rest with
  | nil =>
    obtain rfl := generates_nil_iff.mp h
    refine ⟨?_, fun hrun => ?_⟩
    · have hstar : Generates '*' ['*'] (l ++ []) := .star l .nil
      rwa [List.append_nil] at hstar
    · obtain rfl := bytes_eq_nil_iff.mp (hl.trans (by rw [hrun]; rfl))
      exact .nil
  | cons c p ih =>
    by_cases hc : c = '*'
    · subst hc
      obtain ⟨more, rest, rfl, hrest⟩ := generates_star_iff.mp (show Generates 42 (42 :: bytes p) rest from h)
      have hall : bytes l = (run ++ more) ++ rest := by rw [hl, List.append_assoc]
      have hstar := (ih hall hrest).1
      exact ⟨.star [] hstar, fun _ => hstar⟩
    · rw [bytes_cons] at h
      obtain ⟨rest, rfl, hrest⟩ := (generates_append_iff (star_notMem_encode hc)).mp h
      obtain ⟨before, after, rfl, rfl, hafter⟩ := exists_char_of_bytes hl
      have hall : bytes after = [] ++ rest := hafter
      have htail : Generates '*' (c :: p) (c :: after) := .literal hc ((ih hall hrest).2 rfl)
      refine ⟨.star before htail, fun hrun => ?_⟩
      obtain rfl := bytes_eq_nil_iff.mp hrun
      exact htail

theorem generates_bytes_iff : Generates 42 (bytes p) (bytes l) ↔ Generates '*' p l := by
  have hwhole : bytes l = [] ++ bytes l := rfl
  exact ⟨fun h => (generates_of_bytes hwhole h).2 rfl, generates_bytes⟩

/-- A text is accepted exactly if each star of the pattern can be replaced, on its own, by some whole characters that make
it the text; comparing characters in place of bytes gives the same answer. -/
theorem matchesText_iff_characters (pattern text : String) :
    (matchesText pattern text = true ↔ Generates '*' pattern.toList text.toList) ∧
      matchesText pattern text = accepts '*' pattern.toList.toArray text.toList.toArray := by
  have hchars : matchesText pattern text = true ↔ Generates '*' pattern.toList text.toList := by
    rw [matchesText, accepts_iff_generates, toList_toUTF8, toList_toUTF8]
    exact generates_bytes_iff
  refine ⟨hchars, ?_⟩
  rw [Bool.eq_iff_iff, hchars, accepts_iff_generates]

/-- The two characters end with the same byte. -/
example : matchesText "*¼" "ü" = false := rfl

end Roster.Glob
