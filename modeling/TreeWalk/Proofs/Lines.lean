/-
# The lines of a text

Bytes are cut into lines behind each line feed.  So the lines of two rows of bytes are the lines of
the first one and those of the second one, provided that the first one leaves no line open
(`Line.split_append`).

In the bytes of a text, a line feed is never a part of another character.  Hence the lines of a
text are texts themselves (`Line.exists_encode_of_mem_split`).
-/
import Mathlib.Data.List.Basic
import TreeWalk.Text.Line

namespace TreeWalk
namespace Line

variable {a line bytes : List UInt8} {s : String}

/-! ### Cutting behind line feeds -/

lemma split_cons_feed (bytes : List UInt8) : split (feed :: bytes) = [feed] :: split bytes := by
  rw [split]
  cases split bytes with
  | nil => rfl
  | cons line lines => simp [consByte]

lemma split_ne_nil (h : bytes ≠ []) : split bytes ≠ [] := by
  intro hnil
  apply h
  rw [← flatten_split bytes, hnil]
  rfl

lemma consByte_append {lines : List (List UInt8)} (h : lines ≠ []) (x : UInt8)
    (more : List (List UInt8)) : consByte x (lines ++ more) = consByte x lines ++ more := by
  obtain ⟨line, rest, rfl⟩ := List.exists_cons_of_ne_nil h
  by_cases hx : x = feed <;> simp [consByte, hx]

/-- Behind bytes that leave no line open, other bytes are cut as if they stood alone. -/
theorem split_append (h : a = [] ∨ a.getLast? = some feed) (b : List UInt8) :
    split (a ++ b) = split a ++ split b := by
  induction a with
  | nil => rfl
  | cons x a ih =>
    by_cases ha : a = []
    · subst ha
      obtain rfl : x = feed := by simpa using h
      exact split_cons_feed b
    · have hlast : a.getLast? = some feed := by
        rwa [List.getLast?_cons_of_ne_nil ha, or_iff_right (List.cons_ne_nil x a)] at h
      rw [List.cons_append, split, ih (Or.inr hlast), consByte_append (split_ne_nil ha), ← split]

/-- The first line ends behind the first line feed. -/
lemma split_line (h : feed ∉ line) (bytes : List UInt8) :
    split (line ++ feed :: bytes) = (line ++ [feed]) :: split bytes := by
  induction line with
  | nil => exact split_cons_feed bytes
  | cons x line ih =>
    rw [List.mem_cons, not_or] at h
    rw [List.cons_append, split, ih h.2, consByte, if_neg (Ne.symm h.1)]
    rfl

/-- Without a line feed there is one line only. -/
lemma split_of_notMem (hne : line ≠ []) (h : feed ∉ line) : split line = [line] := by
  induction line with
  | nil => exact absurd rfl hne
  | cons x line ih =>
    rw [List.mem_cons, not_or] at h
    by_cases hline : line = []
    · rw [hline]
      rfl
    · rw [split, ih hline h.2, consByte, if_neg (Ne.symm h.1)]

/-! ### The bytes of a text -/

/-- The bytes that encode a text. -/
def encode (s : String) : List UInt8 :=
  s.toUTF8.data.toList

lemma encode_ofList (text : List Char) :
    encode (String.ofList text) = text.flatMap String.utf8EncodeChar := by
  rw [encode, String.toUTF8_eq_toByteArray, String.toByteArray_ofList, List.utf8Encode,
    List.data_toByteArray]

lemma encode_append (s t : String) : encode (s ++ t) = encode s ++ encode t := by
  simp [encode]

/-- A text with a line feed behind it. -/
lemma encode_append_feed (s : String) : encode (s ++ "\n") = encode s ++ [feed] := by
  rw [encode_append]
  exact congrArg _ (encode_ofList ['\n'])

theorem decode?_encode (s : String) : decode? (encode s) = some s := by
  have hbytes : (⟨(encode s).toArray⟩ : ByteArray) = s.toByteArray := by simp [encode]
  rw [decode?, hbytes, String.fromUTF8?, dif_pos s.isValidUTF8]
  rfl

lemma encode_eq_nil_iff : encode s = [] ↔ s = "" := by
  constructor
  · intro h
    have hnil := decode?_encode s
    rw [h] at hnil
    exact (Option.some.inj hnil).symm
  · rintro rfl
    rfl

/-- Characters outside of ASCII have no byte in common with it. -/
lemma le_of_mem_utf8EncodeChar {c : Char} (hc : 127 < c.val.toNat) :
    ∀ x ∈ String.utf8EncodeChar c, 128 ≤ x.toNat := by
  fun_cases String.utf8EncodeChar c with
  | case1 v hv => exact absurd hc (Nat.not_lt.mpr hv)
  | case2 | case3 | case4 =>
    simp only [List.forall_mem_cons, UInt8.toNat_ofNat', List.not_mem_nil, false_imp_iff,
      implies_true, and_true]
    omega

lemma feed_mem_utf8EncodeChar_iff (c : Char) : feed ∈ String.utf8EncodeChar c ↔ c = '\n' := by
  constructor
  · intro h
    by_cases hc : c.val.toNat ≤ 127
    · rw [String.utf8EncodeChar_eq_singleton (Char.utf8Size_eq_one_iff.mpr hc),
        List.mem_singleton] at h
      have hcode : 10 = c.val.toNat % 2 ^ 8 :=
        (congrArg UInt8.toNat h).trans (UInt32.toNat_toUInt8 c.val)
      rw [Nat.mod_eq_of_lt (by omega)] at hcode
      exact Char.ext (UInt32.toNat_inj.mp hcode.symm)
    · exact absurd (le_of_mem_utf8EncodeChar (Nat.lt_of_not_le hc) feed h) (by decide)
  · rintro rfl
    decide

lemma feed_mem_encode_iff : feed ∈ encode s ↔ '\n' ∈ s.toList := by
  rw [← s.ofList_toList, encode_ofList, String.toList_ofList]
  simp [feed_mem_utf8EncodeChar_iff]

lemma feed_notMem_encode_ofList {text : List Char} (h : '\n' ∉ text) :
    feed ∉ encode (String.ofList text) := by
  rwa [feed_mem_encode_iff, String.toList_ofList]

/-- A line of a text is a text. -/
theorem exists_encode_of_mem_split (h : line ∈ split (encode s)) : ∃ t, line = encode t := by
  obtain ⟨text, rfl⟩ := s.exists_eq_ofList
  induction hn : text.length using Nat.strongRecOn generalizing text with
  | ind n ih =>
    by_cases hfeed : '\n' ∈ text
    · obtain ⟨before, behind, rfl, hbefore⟩ := List.eq_append_cons_of_mem hfeed
      have hbytes : encode (String.ofList (before ++ '\n' :: behind)) =
          encode (String.ofList before) ++ feed :: encode (String.ofList behind) := by
        simp only [encode_ofList, List.flatMap_append, List.flatMap_cons]
        rfl
      rw [hbytes, split_line (feed_notMem_encode_ofList hbefore)] at h
      rcases List.mem_cons.mp h with rfl | h
      · exact ⟨String.ofList before ++ "\n", (encode_append_feed _).symm⟩
      · refine ih behind.length ?_ behind h rfl
        rw [← hn, List.length_append, List.length_cons]
        omega
    · by_cases hnil : encode (String.ofList text) = []
      · rw [hnil] at h
        cases h
      · rw [split_of_notMem hnil (feed_notMem_encode_ofList hfeed), List.mem_singleton] at h
        exact ⟨_, h⟩

end Line
end TreeWalk
