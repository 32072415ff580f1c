import Mathlib.Data.String.Basic

/-!
# The order of bytes

Names are put in order by their characters.  The bytes of their encodings give the same
order: a character with a greater number has a greater encoding, and the two differ at a
byte that both encodings have.
-/

namespace MatrixScript.Text

/-- The bytes of a text. -/
def bytes (text : String) : List UInt8 :=
  text.toByteArray.data.toList

theorem bytes_eq (text : String) : bytes text = text.toList.flatMap String.utf8EncodeChar := by
  rw [bytes, ← String.utf8Encode_toList, List.utf8Encode, List.data_toByteArray]

/-- A byte that is not greater comes first, if what follows does so after equal bytes. -/
theorem cons_lt_cons {first second : Nat} {firsts seconds : List UInt8} (small : second < 256)
    (below : first ≤ second) (rest : first = second → firsts < seconds) :
    UInt8.ofNat first :: firsts < UInt8.ofNat second :: seconds := by
  rw [List.cons_lt_cons_iff]
  rcases Nat.lt_or_eq_of_le below with less | same
  · refine .inl (UInt8.lt_iff_toNat_lt.mpr ?_)
    rw [UInt8.toNat_ofNat', UInt8.toNat_ofNat']
    omega
  · exact .inr ⟨congrArg UInt8.ofNat same, rest same⟩

/-- The encoding of a greater character is greater, whatever comes behind. -/
theorem utf8EncodeChar_lt {first second : Char} (less : first < second)
    (firsts seconds : List UInt8) :
    String.utf8EncodeChar first ++ firsts < String.utf8EncodeChar second ++ seconds := by
  have below : first.val.toNat < second.val.toNat := less
  have bound : second.val.toNat < 1114112 := by
    rcases second.valid with low | high
    · exact Nat.lt_trans low (by decide)
    · exact high.2
  simp only [String.utf8EncodeChar]
  generalize first.val.toNat = left at below
  generalize second.val.toNat = right at below bound
  -- Encodings of different lengths differ in the first byte.  Those of one length differ
  -- somewhere, or else the numbers would be equal.
  split_ifs
  all_goals
    repeat' refine cons_lt_cons (by omega) (by omega) fun _ => ?_
  all_goals omega

theorem flatMap_utf8EncodeChar_lt {firsts seconds : List Char} (less : firsts < seconds) :
    firsts.flatMap String.utf8EncodeChar < seconds.flatMap String.utf8EncodeChar := by
  induction less with
  | nil =>
      rename_i char rest
      have some : String.utf8EncodeChar char ≠ [] := String.utf8EncodeChar_ne_nil
      rcases List.exists_cons_of_ne_nil some with ⟨byte, more, encoded⟩
      rw [List.flatMap_nil, List.flatMap_cons, encoded]
      exact List.nil_lt_cons byte _
  | rel less =>
      rw [List.flatMap_cons, List.flatMap_cons]
      exact utf8EncodeChar_lt less _ _
  | cons less ih =>
      rw [List.flatMap_cons, List.flatMap_cons]
      exact List.append_left_lt ih

theorem bytes_lt_of_lt {first second : String} (less : first < second) :
    bytes first < bytes second := by
  rw [bytes_eq, bytes_eq]
  exact flatMap_utf8EncodeChar_lt (String.lt_iff.mp less)

/-- Texts are in the order of their bytes. -/
theorem lt_iff_bytes_lt (first second : String) : first < second ↔ bytes first < bytes second := by
  constructor
  · exact bytes_lt_of_lt
  · intro less
    rcases lt_trichotomy first second with below | rfl | above
    · exact below
    · exact absurd less (List.lt_irrefl _)
    · exact absurd less (List.lt_asymm (bytes_lt_of_lt above))

end MatrixScript.Text
