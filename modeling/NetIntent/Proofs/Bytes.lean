import Mathlib.Data.Char
import NetIntent.Proofs.OrderedMap

namespace NetIntent

/-!
# Texts and their bytes

Texts are compared and searched character by character, and are stored as bytes. Both come to the
same, since the encoding of a character tells where it ends, and keeps the order.

* `Text.bytes` — the UTF-8 of a text;
* `Text.Parts` — one list of bytes parts from another one at a place that both have, downwards;
* `Text.encode_parts` — the encodings of two characters do, in the order of the characters;
* `Text.bytes_lt_iff` — the order of texts is the order of their bytes;
* `Text.bytes_prefix_iff` — a text begins with a piece just if its bytes begin with those of the
  piece.
-/

namespace Text

/-- The bytes of a text in UTF-8. -/
def bytes (text : String) : List UInt8 := text.toUTF8.data.toList

/-- The bytes of a text are those of its characters, one after the other. -/
theorem bytes_eq_flatMap (text : String) :
    bytes text = text.toList.flatMap String.utf8EncodeChar := by
  rw [bytes, String.toUTF8_eq_toByteArray, ← String.utf8Encode_toList, List.utf8Encode,
    List.toList_data_toByteArray]

/-! ### The encodings of characters -/

/-- The lists agree up to some place that both have, and the first one has the smaller byte there. -/
def Parts : List UInt8 → List UInt8 → Prop
  | x :: a, y :: b => x < y ∨ x = y ∧ Parts a b
  | _, _ => False

/-- Whatever follows them, the first list is the smaller one. -/
theorem Parts.append_lt {a b : List UInt8} (h : Parts a b) (u v : List UInt8) :
    a ++ u < b ++ v := by
  induction a generalizing b with
  | nil => exact h.elim
  | cons x a ih =>
    cases b with
    | nil => exact h.elim
    | cons y b =>
      rw [List.cons_append, List.cons_append, List.cons_lt_cons_iff]
      exact h.imp_right fun hrest => ⟨hrest.1, ih hrest.2⟩

/-- Whatever follows them, neither begins with the other one. -/
theorem Parts.not_begins {a b : List UInt8} (h : Parts a b) (u v : List UInt8) :
    ¬ a ++ u <+: b ++ v ∧ ¬ b ++ v <+: a ++ u := by
  constructor
  · rintro ⟨rest, heq⟩
    have hlt := h.append_lt (u ++ rest) v
    rw [← heq, List.append_assoc] at hlt
    exact List.lt_irrefl _ hlt
  · rintro ⟨rest, heq⟩
    have hlt := h.append_lt u (v ++ rest)
    rw [← heq, List.append_assoc] at hlt
    exact List.lt_irrefl _ hlt

/-- The encodings of two characters part in the order of the characters. -/
theorem encode_parts {c d : Char} (h : c < d) :
    Parts (String.utf8EncodeChar c) (String.utf8EncodeChar d) := by
  have hlt : c.val.toNat < d.val.toNat := h
  have hd : d.val.toNat < 0x110000 := by
    rcases d.valid with hlow | hhigh
    · exact Nat.lt_trans hlow (by decide)
    · exact hhigh.2
  -- The bytes hold the digits to the base of 64.
  have hdigits : ∀ n : Nat, n / 4096 = n / 64 / 64 ∧ n / 262144 = n / 64 / 64 / 64 := by omega
  simp only [String.utf8EncodeChar, hdigits]
  -- If one takes more bytes, its first byte is greater; else they part at the first digit in which
  -- they differ.
  split_ifs
  all_goals
    simp only [Parts, UInt8.lt_iff_toNat_lt, ← UInt8.toNat_inj, UInt8.toNat_ofNat']
    omega

/-! ### The bytes of texts -/

/-- Characters in order have encodings in order. -/
theorem flatMap_encode_lt {as bs : List Char} (h : as < bs) :
    as.flatMap String.utf8EncodeChar < bs.flatMap String.utf8EncodeChar := by
  induction as generalizing bs with
  | nil =>
    cases bs with
    | nil => exact absurd h (List.not_lt_nil _)
    | cons d bs =>
      -- a character has at least one byte
      obtain ⟨x, rest, hd⟩ := List.exists_cons_of_ne_nil (String.utf8EncodeChar_ne_nil (c := d))
      rw [List.flatMap_cons, hd]
      exact List.nil_lt_cons _ _
  | cons c as ih =>
    cases bs with
    | nil => exact absurd h (List.not_lt_nil _)
    | cons d bs =>
      rw [List.flatMap_cons, List.flatMap_cons]
      rcases List.cons_lt_cons_iff.1 h with hlt | ⟨rfl, hlt⟩
      · exact (encode_parts hlt).append_lt _ _
      · exact List.append_left_lt (ih hlt)

/-- The order of texts is the order of their bytes. -/
theorem bytes_lt_iff {a b : String} : bytes a < bytes b ↔ a < b := by
  have hmono : ∀ {a b : String}, a < b → bytes a < bytes b := by
    intro a b h
    rw [bytes_eq_flatMap, bytes_eq_flatMap]
    exact flatMap_encode_lt (String.lt_iff.1 h)
  constructor
  · intro h
    by_contra hnot
    -- Otherwise the texts are equal, or come in the other order, and so do their bytes.
    rcases Decidable.eq_or_ne a b with rfl | hne
    · exact List.lt_irrefl _ h
    · have hba : b < a := by
        by_contra hba
        exact hne (String.le_antisymm (String.not_lt.1 hba) (String.not_lt.1 hnot))
      exact List.lt_asymm h (hmono hba)
  · exact hmono

/-- Characters begin with others just if their encodings do. -/
theorem flatMap_encode_prefix_iff {as bs : List Char} :
    as.flatMap String.utf8EncodeChar <+: bs.flatMap String.utf8EncodeChar ↔ as <+: bs := by
  induction as generalizing bs with
  | nil => simp
  | cons c as ih =>
    cases bs with
    | nil => simp
    | cons d bs =>
      rw [List.flatMap_cons, List.flatMap_cons, List.cons_prefix_cons]
      rcases lt_trichotomy c d with hlt | rfl | hlt
      · exact iff_of_false ((encode_parts hlt).not_begins _ _).1 fun h => ne_of_lt hlt h.1
      · rw [List.prefix_append_right_inj, ih, and_iff_right rfl]
      · exact iff_of_false ((encode_parts hlt).not_begins _ _).2 fun h => ne_of_gt hlt h.1

/-- A text begins with a piece just if its bytes begin with those of the piece. -/
theorem bytes_prefix_iff {piece text : String} :
    bytes piece <+: bytes text ↔ beginsWith piece text = true := by
  rw [bytes_eq_flatMap, bytes_eq_flatMap, flatMap_encode_prefix_iff, beginsWith_iff]

end Text

end NetIntent
