import ProbeGap.Json.Printer
import ProbeGap.Json.Literal

/-!
# Reading quoted texts

A text within quotes is read back as that text, whatever characters it has. Each character
is written as itself or escaped, and read as one piece that denotes it: control characters
without a letter of their own come back as 16-bit units, all others as characters. No unit
that is written is a surrogate, so pieces are never read in pairs.

Main statement: `exists_pieces`.
-/

namespace ProbeGap

/-! ## §1. Pieces -/

/-- Whether a piece stands for a character, alone and beside any other piece. -/
def StringPiece.Denotes (piece : StringPiece) (c : Char) : Prop :=
  piece = .character c ∨ (piece = .unit c.toNat ∧ c.toNat < 0xD800)

theorem plainCharacters?_cons {piece : StringPiece} {c : Char} (h : piece.Denotes c)
    (pieces : List StringPiece) :
    plainCharacters? (piece :: pieces) = (plainCharacters? pieces).map (c :: ·) := by
  rcases h with rfl | ⟨rfl, hlow⟩
  · rw [plainCharacters?]
  · have hhigh : ¬ (0xD800 ≤ c.toNat ∧ c.toNat < 0xDC00) := by omega
    have hlower : ¬ (0xDC00 ≤ c.toNat ∧ c.toNat < 0xE000) := by omega
    have hsurrogate : ¬ (0xD800 ≤ c.toNat ∧ c.toNat < 0xE000) := by omega
    have hback : Char.ofNat c.toNat = c := Char.ofNat_toNat c
    cases pieces with
    | nil => simp only [plainCharacters?, hsurrogate, if_false, hback]
    | cons next pieces =>
      cases next with
      | character d => simp only [plainCharacters?, hsurrogate, if_false, hback]
      | unit low => simp only [plainCharacters?, hhigh, hlower, if_false, hback]

/-! ## §2. Characters -/

/-- Two hexadecimal digits give back a value below 32. -/
theorem unitOfHex?_hexDigit : ∀ n : Fin 32,
    unitOfHex? '0' '0' (hexDigit (n.val / 16)) (hexDigit (n.val % 16)) = some n.val := by
  decide

/-- A character that needs no escape is read as itself. -/
theorem readString_plain {c : Char} (hquote : c ≠ '"') (hbackslash : c ≠ '\\')
    (hcontrol : ¬ c.toNat < 0x20) (done : List StringPiece) (rest : List Char) :
    readString done (c :: rest) = readString (.character c :: done) rest := by
  rw [readString]
  · rw [if_neg (not_or.mpr ⟨hbackslash, hcontrol⟩)]
  · exact hquote
  · exact fun _ _ _ _ _ h => absurd h hbackslash
  · exact fun _ _ h => absurd h hbackslash

/-- A written character is read as one piece that denotes it. -/
theorem readString_escapedCharacter (c : Char) :
    ∃ piece : StringPiece, piece.Denotes c ∧ ∀ done rest,
      readString done (escapedCharacter c ++ rest) = readString (piece :: done) rest := by
  unfold escapedCharacter
  -- Seven characters have a letter of their own.
  iterate 7
    split
    · next h => exact ⟨.character c, .inl rfl, fun _ _ => by rw [h]; rfl⟩
  split
  · next hcontrol =>
    refine ⟨.unit c.toNat, .inr ⟨rfl, by omega⟩, fun done rest => ?_⟩
    have hunit := unitOfHex?_hexDigit ⟨c.toNat, hcontrol⟩
    show readString done ('\\' :: 'u' :: '0' :: '0' :: hexDigit (c.toNat / 16)
      :: hexDigit (c.toNat % 16) :: rest) = _
    rw [readString, hunit]
  · next hquote hbackslash _ _ _ _ _ hcontrol =>
    exact ⟨.character c, .inl rfl, readString_plain hquote hbackslash hcontrol⟩

/-! ## §3. Texts -/

/-- Written characters up to the closing quote are read as pieces that denote them. -/
theorem readString_flatMap (cs : List Char) :
    ∃ pieces, plainCharacters? pieces = some cs ∧ ∀ done rest,
      readString done (cs.flatMap escapedCharacter ++ '"' :: rest)
        = some (done.reverse ++ pieces, rest) := by
  induction cs with
  | nil =>
    refine ⟨[], rfl, fun done rest => ?_⟩
    rw [List.append_nil]
    rfl
  | cons c cs ih =>
    obtain ⟨pieces, hplain, hread⟩ := ih
    obtain ⟨piece, hdenotes, hchar⟩ := readString_escapedCharacter c
    refine ⟨piece :: pieces, ?_, fun done rest => ?_⟩
    · rw [plainCharacters?_cons hdenotes, hplain, Option.map_some]
    · rw [List.flatMap_cons, List.append_assoc, hchar, hread, List.reverse_cons,
        List.append_assoc, List.singleton_append]

/-- Pieces that a text within quotes is read as. -/
structure ArePieces (s : String) (pieces : List StringPiece) : Prop where
  text : stringText? pieces = some s
  read : ∀ rest, readString [] (s.toList.flatMap escapedCharacter ++ '"' :: rest)
    = some (pieces, rest)

/-- Every text within quotes is read as pieces that stand for it. -/
theorem exists_pieces (s : String) : ∃ pieces, ArePieces s pieces := by
  obtain ⟨pieces, hplain, hread⟩ := readString_flatMap s.toList
  refine ⟨pieces, ?_, fun rest => hread [] rest⟩
  unfold stringText?
  rw [hplain, Option.map_some, String.ofList_toList]

end ProbeGap
