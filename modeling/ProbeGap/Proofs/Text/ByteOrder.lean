import ProbeGap.Table

/-!
# The byte order of names

Names are compared character by character. That is also the order of their UTF-8 bytes:
a character with a greater code point is encoded either with a greater first byte that
differs, or with a greater byte behind equal ones, and no encoding of a character begins
that of another. So tables of names list them in byte order.
-/

namespace ProbeGap

/-- The UTF-8 bytes of a name. -/
def nameBytes (name : String) : List UInt8 :=
  name.toList.flatMap String.utf8EncodeChar

/-- The bytes are those that the name is stored in. -/
theorem toByteArray_nameBytes (name : String) : (nameBytes name).toByteArray = name.toUTF8 := by
  have hencode : name.toList.utf8Encode = name.toByteArray := String.utf8Encode_toList
  rw [String.toUTF8_eq_toByteArray, ← hencode]
  rfl

/-! ## §1. Bytes of two numbers -/

/-- The bytes `p` and `q` are in the order of the numbers `m` and `n`: those of the smaller
number come first, whatever follows, and equal numbers have equal bytes. -/
structure InByteOrder (m n : Nat) (p q : List UInt8) : Prop where
  lt : m < n → ∀ xs ys, p ++ xs < q ++ ys
  eq : m = n → p = q

/-- A smaller first byte decides the order. -/
theorem lead_lt {a b : Nat} (hab : a < b) (hb : b < 256) (xs ys : List UInt8) :
    UInt8.ofNat a :: xs < UInt8.ofNat b :: ys := by
  rw [List.cons_lt_cons_iff, UInt8.lt_iff_toNat_lt, UInt8.toNat_ofNat', UInt8.toNat_ofNat']
  omega

/-- First bytes that grow with the numbers. -/
theorem InByteOrder.lead {m n a b : Nat} (hlt : m < n → a < b) (heq : m = n → a = b)
    (hb : b < 256) : InByteOrder m n [UInt8.ofNat a] [UInt8.ofNat b] := by
  refine ⟨fun hmn xs ys => lead_lt (hlt hmn) hb xs ys, fun hmn => ?_⟩
  rw [heq hmn]

/-- A further byte adds a digit of six bits to either number. -/
theorem InByteOrder.further {m n v w a b : Nat} {p q : List UInt8} (h : InByteOrder m n p q)
    (hv : v = 64 * m + a) (hw : w = 64 * n + b) (ha : a < 64) (hb : b < 64) :
    InByteOrder v w (p ++ [UInt8.ofNat (a + 128)]) (q ++ [UInt8.ofNat (b + 128)]) := by
  refine ⟨fun hvw xs ys => ?_, fun hvw => ?_⟩
  · rw [List.append_assoc, List.append_assoc]
    rcases Nat.lt_or_ge m n with hmn | hmn
    · exact h.lt hmn _ _
    · have hsame : m = n := by omega
      rw [h.eq hsame]
      exact List.append_left_lt (lead_lt (by omega) (by omega) xs ys)
  · have hsame : m = n := by omega
    have hdigit : a = b := by omega
    rw [h.eq hsame, hdigit]

section lengths

variable {v w : Nat}

/-- Encodings of two bytes. -/
theorem inByteOrder_two (hv : v ≤ 0x7ff) (hw : w ≤ 0x7ff) :
    InByteOrder v w [UInt8.ofNat (v / 64 % 32 + 192), UInt8.ofNat (v % 64 + 128)]
      [UInt8.ofNat (w / 64 % 32 + 192), UInt8.ofNat (w % 64 + 128)] := by
  have hlead : InByteOrder (v / 64) (w / 64) [UInt8.ofNat (v / 64 % 32 + 192)]
      [UInt8.ofNat (w / 64 % 32 + 192)] := .lead (by omega) (by omega) (by omega)
  exact hlead.further (by omega) (by omega) (by omega) (by omega)

/-- Encodings of three bytes. -/
theorem inByteOrder_three (hv : v ≤ 0xffff) (hw : w ≤ 0xffff) :
    InByteOrder v w
      [UInt8.ofNat (v / 4096 % 16 + 224), UInt8.ofNat (v / 64 % 64 + 128),
        UInt8.ofNat (v % 64 + 128)]
      [UInt8.ofNat (w / 4096 % 16 + 224), UInt8.ofNat (w / 64 % 64 + 128),
        UInt8.ofNat (w % 64 + 128)] := by
  have hlead : InByteOrder (v / 4096) (w / 4096) [UInt8.ofNat (v / 4096 % 16 + 224)]
      [UInt8.ofNat (w / 4096 % 16 + 224)] := .lead (by omega) (by omega) (by omega)
  have hsecond := hlead.further (v := v / 64) (w := w / 64) (a := v / 64 % 64)
    (b := w / 64 % 64) (by omega) (by omega) (by omega) (by omega)
  exact hsecond.further (by omega) (by omega) (by omega) (by omega)

/-- Encodings of four bytes. -/
theorem inByteOrder_four (hv : v ≤ 0x10ffff) (hw : w ≤ 0x10ffff) :
    InByteOrder v w
      [UInt8.ofNat (v / 262144 % 8 + 240), UInt8.ofNat (v / 4096 % 64 + 128),
        UInt8.ofNat (v / 64 % 64 + 128), UInt8.ofNat (v % 64 + 128)]
      [UInt8.ofNat (w / 262144 % 8 + 240), UInt8.ofNat (w / 4096 % 64 + 128),
        UInt8.ofNat (w / 64 % 64 + 128), UInt8.ofNat (w % 64 + 128)] := by
  have hlead : InByteOrder (v / 262144) (w / 262144) [UInt8.ofNat (v / 262144 % 8 + 240)]
      [UInt8.ofNat (w / 262144 % 8 + 240)] := .lead (by omega) (by omega) (by omega)
  have hsecond := hlead.further (v := v / 4096) (w := w / 4096) (a := v / 4096 % 64)
    (b := w / 4096 % 64) (by omega) (by omega) (by omega) (by omega)
  have hthird := hsecond.further (v := v / 64) (w := w / 64) (a := v / 64 % 64)
    (b := w / 64 % 64) (by omega) (by omega) (by omega) (by omega)
  exact hthird.further (by omega) (by omega) (by omega) (by omega)

end lengths

/-! ## §2. Characters and names -/

/-- A smaller character decides the order of the bytes, whatever follows. -/
theorem utf8EncodeChar_append_lt {c d : Char} (h : c < d) (xs ys : List UInt8) :
    String.utf8EncodeChar c ++ xs < String.utf8EncodeChar d ++ ys := by
  have hlt : c.val.toNat < d.val.toNat := h
  have hd : d.val.toNat ≤ 0x10ffff := by
    rcases d.valid with hlow | hhigh <;> omega
  unfold String.utf8EncodeChar
  generalize c.val.toNat = v at hlt
  generalize d.val.toNat = w at hlt hd
  dsimp only
  -- Encodings of different lengths differ in the first byte.
  split
  · split
    · exact lead_lt (by omega) (by omega) _ _
    · split
      · exact lead_lt (by omega) (by omega) _ _
      · split <;> exact lead_lt (by omega) (by omega) _ _
  · split
    · split
      · omega
      · split
        · exact (inByteOrder_two (by omega) (by omega)).lt hlt _ _
        · split <;> exact lead_lt (by omega) (by omega) _ _
    · split
      · split
        · omega
        · split
          · omega
          · split
            · exact (inByteOrder_three (by omega) (by omega)).lt hlt _ _
            · exact lead_lt (by omega) (by omega) _ _
      · split
        · omega
        · split
          · omega
          · split
            · omega
            · exact (inByteOrder_four (by omega) hd).lt hlt _ _

/-- Lists of characters that ascend have bytes that ascend. -/
theorem flatMap_utf8EncodeChar_lt {cs ds : List Char} (h : cs < ds) :
    cs.flatMap String.utf8EncodeChar < ds.flatMap String.utf8EncodeChar := by
  induction cs generalizing ds with
  | nil =>
    cases ds with
    | nil => exact absurd h (List.lt_irrefl [])
    | cons d ds =>
      cases hd : String.utf8EncodeChar d with
      | nil => exact absurd hd String.utf8EncodeChar_ne_nil
      | cons b bs =>
        rw [List.flatMap_nil, List.flatMap_cons, hd]
        exact List.nil_lt_cons _ _
  | cons c cs ih =>
    cases ds with
    | nil => exact absurd h (List.not_lt_nil _)
    | cons d ds =>
      rw [List.flatMap_cons, List.flatMap_cons]
      rcases List.cons_lt_cons_iff.mp h with hlt | ⟨rfl, hrest⟩
      · exact utf8EncodeChar_append_lt hlt _ _
      · exact List.append_left_lt (ih hrest)

/-- The order of names is the order of their bytes. -/
theorem nameBytes_lt_iff {a b : String} : nameBytes a < nameBytes b ↔ a < b := by
  constructor
  · intro h
    apply Classical.byContradiction
    intro hnot
    by_cases hgt : b < a
    · exact List.lt_asymm h (flatMap_utf8EncodeChar_lt hgt)
    · have heq : a = b := Key.connected hnot hgt
      subst heq
      exact List.lt_irrefl _ h
  · exact flatMap_utf8EncodeChar_lt

end ProbeGap
