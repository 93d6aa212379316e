import ServiceContract.Json.Read
import Mathlib.Data.List.Basic
import Mathlib.Tactic.SplitIfs
/-!
# Characters of bytes in UTF-8

The reader of JSON takes bytes character by character (`charactersFrom`), since bytes that belong to
no character may stand in it where nobody looks. Where the bytes are those of a text, it comes upon
the characters of this text (`charactersFrom_of_fromUTF8?`).
-/

namespace ServiceContract.Json

/-! ## Bytes -/

theorem loop_toList (bytes : ByteArray) (i : Nat) (done : List UInt8) :
    ByteArray.toList.loop bytes i done = done.reverse ++ bytes.data.toList.drop i := by
  induction hn : bytes.size - i generalizing i done with
  | zero =>
    rw [ByteArray.toList.loop, if_neg (by omega)]
    have hlength : bytes.data.toList.length = bytes.size := rfl
    rw [List.drop_of_length_le (by omega), List.append_nil]
  | succ n ih =>
    have hi : i < bytes.data.toList.length := by
      have hlength : bytes.data.toList.length = bytes.size := rfl
      omega
    have hget : bytes.get! i = bytes.data.toList[i] := by
      have h : bytes.get! i = bytes.data[i]! := rfl
      rw [h]
      simp at hi
      simp [hi]
    rw [ByteArray.toList.loop, if_pos (by omega), ih _ _ (by omega), hget,
      List.drop_eq_getElem_cons hi]
    simp

theorem toList_data (bytes : ByteArray) : bytes.toList = bytes.data.toList :=
  (loop_toList bytes 0 []).trans (by simp)

/-! ## Texts -/

/-- Bytes are a text exactly if they are its bytes. -/
theorem fromUTF8?_eq_some_iff {bytes : ByteArray} {s : String} :
    String.fromUTF8? bytes = some s ↔ s.toByteArray = bytes := by
  constructor
  · intro h
    unfold String.fromUTF8? at h
    split_ifs at h with hvalid
    obtain rfl := Option.some.inj h
    rfl
  · rintro rfl
    rw [String.fromUTF8?, dif_pos s.isValidUTF8]
    rfl

/-- The bytes of a text are those of its characters. -/
theorem toList_of_fromUTF8? {bytes : ByteArray} {s : String}
    (h : String.fromUTF8? bytes = some s) :
    bytes.toList = s.toList.flatMap String.utf8EncodeChar := by
  rw [toList_data, ← fromUTF8?_eq_some_iff.1 h]
  conv_lhs => rw [← String.ofList_toList (s := s), String.toByteArray_ofList]
  rw [List.utf8Encode, List.data_toByteArray]

/-! ## Characters -/

/-- Bytes that begin with those of two characters begin with those of one. -/
theorem eq_of_utf8EncodeChar_append {c d : Char} {cs ds : List UInt8}
    (h : String.utf8EncodeChar c ++ cs = String.utf8EncodeChar d ++ ds) : c = d := by
  have hc : (String.utf8EncodeChar c ++ cs).toByteArray.utf8DecodeChar? 0 = some c := by
    rw [List.toByteArray_append]
    exact ByteArray.utf8DecodeChar?_utf8EncodeChar_append
  rw [h, List.toByteArray_append, ByteArray.utf8DecodeChar?_utf8EncodeChar_append] at hc
  exact (Option.some.inj hc).symm

/-- The character that some of the first bytes are, with their number. -/
def first? (bytes : List UInt8) (count : Nat) : Option (Char × Nat) :=
  match (String.fromUTF8? ⟨(bytes.take count).toArray⟩).map String.toList with
  | some [c] => some (c, count)
  | _ => none

theorem leading?_eq (bytes : List UInt8) : leading? bytes = [1, 2, 3, 4].findSome? (first? bytes) :=
  rfl

/-- The bytes of a character give it back. -/
theorem first?_utf8EncodeChar (c : Char) (rest : List UInt8) :
    first? (String.utf8EncodeChar c ++ rest) c.utf8Size = some (c, c.utf8Size) := by
  have hwhole :
      String.fromUTF8? ⟨(String.utf8EncodeChar c).toArray⟩ = some (String.ofList [c]) := by
    rw [fromUTF8?_eq_some_iff, String.toByteArray_ofList]
    simp [List.utf8Encode, ByteArray.ext_iff]
  rw [first?, ← String.length_utf8EncodeChar c, List.take_left, hwhole, Option.map_some,
    String.toList_ofList]

/-- Fewer bytes than those of a character are none. -/
theorem first?_of_lt {c : Char} {count : Nat} (hcount : count < c.utf8Size) (rest : List UInt8) :
    first? (String.utf8EncodeChar c ++ rest) count = none := by
  unfold first?
  split
  · rename_i d hd
    obtain ⟨s, hs, hchars⟩ := Option.map_eq_some_iff.1 hd
    have htake : (String.utf8EncodeChar c ++ rest).take count = String.utf8EncodeChar d := by
      simpa [toList_data, hchars] using toList_of_fromUTF8? hs
    have hboth : String.utf8EncodeChar c ++ rest =
        String.utf8EncodeChar d ++ (String.utf8EncodeChar c ++ rest).drop count := by
      rw [← htake, List.take_append_drop]
    have hsame := eq_of_utf8EncodeChar_append hboth
    have hshort := congrArg List.length htake
    have hlength := String.length_utf8EncodeChar c
    rw [← hsame, List.length_take] at hshort
    omega
  · rfl

/-- The number of bytes of the first character is found by trying one to four. -/
theorem leading?_utf8EncodeChar (c : Char) (rest : List UInt8) :
    leading? (String.utf8EncodeChar c ++ rest) = some (c, c.utf8Size) := by
  have hnone : ∀ count < c.utf8Size, first? (String.utf8EncodeChar c ++ rest) count = none :=
    fun count hcount => first?_of_lt hcount rest
  have hsome := first?_utf8EncodeChar c rest
  have hpos := c.utf8Size_pos
  have hfour := c.utf8Size_le_four
  rw [leading?_eq]
  obtain h | h | h | h : c.utf8Size = 1 ∨ c.utf8Size = 2 ∨ c.utf8Size = 3 ∨ c.utf8Size = 4 := by
    omega
  all_goals
    rw [h] at hnone hsome ⊢
    simp [List.findSome?, hnone, hsome]

theorem charactersFrom_succ_append (skipped : List UInt8) (rest : List UInt8) :
    charactersFrom skipped.length (skipped ++ rest) = charactersFrom 0 rest := by
  induction skipped with
  | nil => rfl
  | cons b skipped ih => exact ih

theorem charactersFrom_utf8Encode (cs : List Char) :
    charactersFrom 0 (cs.flatMap String.utf8EncodeChar) = cs := by
  induction cs with
  | nil => rfl
  | cons c cs ih =>
    have hlength := String.length_utf8EncodeChar c
    have hpos := c.utf8Size_pos
    rw [List.flatMap_cons]
    have hlead := leading?_utf8EncodeChar c (cs.flatMap String.utf8EncodeChar)
    cases hbytes : String.utf8EncodeChar c with
    | nil => simp [hbytes] at hlength; omega
    | cons b others =>
      rw [hbytes] at hlead hlength
      rw [List.cons_append] at hlead ⊢
      have hothers : c.utf8Size - 1 = others.length := by
        rw [← hlength, List.length_cons, Nat.add_sub_cancel]
      rw [charactersFrom, hlead]
      dsimp only
      rw [hothers, charactersFrom_succ_append, ih]

/-- The characters of the bytes of a text are those of the text. -/
theorem charactersFrom_of_fromUTF8? {bytes : ByteArray} {s : String}
    (h : String.fromUTF8? bytes = some s) : charactersFrom 0 bytes.toList = s.toList := by
  rw [toList_of_fromUTF8? h, charactersFrom_utf8Encode]

end ServiceContract.Json
