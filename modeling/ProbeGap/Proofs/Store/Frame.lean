import ProbeGap.Proofs.Store.Snapshot
import ProbeGap.Store.Opening

/-!
# Snapshot files are read back

Of the codec of snapshot files no more is used than that it is lossless: what was wrapped is
unwrapped again (`LawfulCodec`). Frames are. A frame gives back the content that was put into
it, of whatever size. The content is cut into stored blocks of at most `blockLimit` bytes; the
reader is followed from block to block, and what it has found so far and what is still to come
make up the content at every step.

Main statement: a snapshot file holds the dump that was written into it, and so does its
payload (`snapshots_are_read_back`), up to times with the text of another time
(`Dump.carried`).
-/

namespace ProbeGap

/-- A codec that gives back what was wrapped. -/
class LawfulCodec [Codec] : Prop where
  unwrap?_wrap : ∀ content, Codec.unwrap? (Codec.wrap content) = some content

/-! ## §1. Stored blocks -/

/-- The header of a stored block is told apart into its three parts. -/
theorem takeLittleEndian_storedHeader (last : Bool) {size : Nat} (h : size ≤ blockLimit)
    (rest : List UInt8) :
    ∃ header, takeLittleEndian 3 (storedHeader last size ++ rest) = some (header, rest) ∧
      header / 8 = size ∧ header / 2 % 4 = 0 ∧ (header % 2 = 1 ↔ last = true) := by
  have hlimit : blockLimit = 131072 := rfl
  have hwidth : Nat.pow 256 3 = 16777216 := rfl
  refine ⟨8 * size + if last then 1 else 0, takeLittleEndian_append ?_ rest, ?_⟩
  · split <;> omega
  · cases last
    · refine ⟨?_, ?_, ?_⟩ <;> simp <;> omega
    · refine ⟨?_, ?_, ?_⟩ <;> simp <;> omega

/-- The last block ends the content. -/
theorem readBlocks_last (fuel : Nat) (done : List (List UInt8)) {s : List UInt8}
    (h : s.length ≤ blockLimit) :
    readBlocks (fuel + 1) done (storedHeader true s.length ++ s) = some (done.reverse.flatten ++ s)
    := by
  obtain ⟨header, htake, hsize, hkind, hlast⟩ := takeLittleEndian_storedHeader true h s
  have hends : header % 2 = 1 := hlast.mpr rfl
  unfold readBlocks
  rw [htake]
  simp only [hsize, hkind, hends, Nat.le_refl, if_true, List.take_length]
  rw [List.reverse_cons, List.flatten_append, List.flatten_singleton]

/-- Any other block is followed by more. -/
theorem readBlocks_next (fuel : Nat) (done : List (List UInt8)) {piece : List UInt8}
    (h : piece.length ≤ blockLimit) (rest : List UInt8) :
    readBlocks (fuel + 1) done (storedHeader false piece.length ++ piece ++ rest)
      = readBlocks fuel (piece :: done) rest := by
  obtain ⟨header, htake, hsize, hkind, hlast⟩ :=
    takeLittleEndian_storedHeader false h (piece ++ rest)
  have hgoesOn : ¬ header % 2 = 1 := fun hends => absurd (hlast.mp hends) (by decide)
  have hfits : piece.length ≤ (piece ++ rest).length := by
    rw [List.length_append]
    omega
  rw [readBlocks, List.append_assoc, htake]
  simp only [hsize, hkind, hgoesOn, hfits, if_true, if_false, List.take_left, List.drop_left]

/-- Stored blocks are read back, with the pieces found before in front. -/
theorem readBlocks_storedBlocks {fuel readFuel : Nat} (hfuel : fuel < readFuel)
    (done : List (List UInt8)) {s : List UInt8} (h : s.length / blockLimit ≤ fuel) :
    readBlocks readFuel done (storedBlocks fuel s) = some (done.reverse.flatten ++ s) := by
  -- By induction on the blocks to come; a block that was read moves to those found before.
  have hlimit : blockLimit = 131072 := rfl
  induction fuel generalizing readFuel done s with
  | zero =>
    obtain ⟨readFuel, rfl⟩ := Nat.exists_eq_add_one_of_ne_zero (Nat.ne_of_gt hfuel)
    have hshort : s.length ≤ blockLimit := by
      rw [hlimit] at h ⊢
      omega
    exact readBlocks_last readFuel done hshort
  | succ fuel ih =>
    obtain ⟨readFuel, rfl⟩ := Nat.exists_eq_add_one_of_ne_zero (Nat.ne_zero_of_lt hfuel)
    unfold storedBlocks
    split
    · rename_i hshort
      exact readBlocks_last readFuel done hshort
    · rename_i hlong
      have hpiece : (s.take blockLimit).length = blockLimit := by
        rw [List.length_take]
        omega
      have hrest : (s.drop blockLimit).length / blockLimit ≤ fuel := by
        rw [List.length_drop]
        rw [hlimit] at h hlong ⊢
        omega
      have hnext := readBlocks_next readFuel done (Nat.le_of_eq hpiece)
        (storedBlocks fuel (s.drop blockLimit))
      rw [hpiece] at hnext
      rw [hnext, ih (by omega) (s.take blockLimit :: done) hrest, List.reverse_cons,
        List.flatten_append, List.flatten_singleton, List.append_assoc, List.take_append_drop]

/-- Blocks are at least as long as their content. -/
theorem length_le_storedBlocks (fuel : Nat) (s : List UInt8) :
    s.length ≤ (storedBlocks fuel s).length := by
  induction fuel generalizing s with
  | zero =>
    unfold storedBlocks
    rw [List.length_append]
    omega
  | succ fuel ih =>
    unfold storedBlocks
    split
    · rw [List.length_append]
      omega
    · have hrest := ih (s.drop blockLimit)
      rw [List.length_drop] at hrest
      rw [List.length_append, List.length_append, List.length_take]
      omega

/-! ## §2. Frames -/

theorem length_littleEndian (width n : Nat) : (littleEndian width n).length = width := by
  induction width generalizing n with
  | zero => rfl
  | succ width ih =>
    unfold littleEndian
    rw [List.length_cons, ih]

/-- A frame gives back its content. -/
@[simp] theorem Frame.unwrap?_wrap (content : List UInt8) :
    Frame.unwrap? (Frame.wrap content) = some content := by
  have hheader : headerLength (0xE0 : UInt8).toNat = (littleEndian 8 content.length).length := by
    rw [length_littleEndian]
    rfl
  have hcount : content.length / blockLimit ≤ content.length := Nat.div_le_self _ _
  have hlength := length_le_storedBlocks (content.length / blockLimit) content
  show readBlocks _ [] (List.drop (headerLength (0xE0 : UInt8).toNat)
    (littleEndian 8 content.length ++ storedBlocks (content.length / blockLimit) content)) = _
  rw [hheader, List.drop_left, readBlocks_storedBlocks _ [] (Nat.le_refl _)]
  · rfl
  · show _ < (littleEndian 8 _ ++ storedBlocks _ content).length + 1
    rw [List.length_append]
    omega

instance Frame.lawful : LawfulCodec :=
  ⟨Frame.unwrap?_wrap⟩

/-! ## §3. Files -/

@[simp] theorem byteList_fileOfBytes (bytes : List UInt8) : byteList (fileOfBytes bytes) = bytes :=
  rfl

theorem Dump.decode?_encode {d : Dump} (hd : d.IsCountable) :
    Dump.decode? d.encode = some d.carried := by
  have hpayload := Dump.decode?_encode_append hd []
  rwa [List.append_nil] at hpayload

theorem readSnapshot_snapshotFile [Codec] [LawfulCodec] {d : Dump} (hd : d.IsCountable)
    (path : String) : readSnapshot path (.file (snapshotFile d)) = .ok d.carried := by
  unfold readSnapshot snapshotFile
  simp only [byteList_fileOfBytes, LawfulCodec.unwrap?_wrap, Option.bind_some,
    Dump.decode?_encode hd]

/-- A dump is read back from its payload, and from the file in which a codec has put the
payload. It comes back as it is, unless it has a time whose text is that of another one; that
time, and nothing else, becomes the other one. -/
theorem snapshots_are_read_back [Codec] [LawfulCodec] {d : Dump} (hd : d.IsCountable) :
    Dump.decode? d.encode = some d.carried ∧
      (∀ path, readSnapshot path (.file (snapshotFile d)) = .ok d.carried) ∧
      (d.carried = d ↔ ∀ s ∈ d.samples, s.IsSettled) :=
  ⟨Dump.decode?_encode hd, readSnapshot_snapshotFile hd, Dump.carried_eq_self_iff⟩

/-- Texts, numbers and times at the ends of their ranges. -/
theorem boundaryDump_is_read_back :
    boundaryDump.IsCountable ∧ Dump.decode? boundaryDump.encode = some boundaryDump ∧
      readSnapshot "a.zst" (.file (snapshotFile boundaryDump)) = .ok boundaryDump := by
  obtain ⟨hpayload, hfile, -⟩ := snapshots_are_read_back boundaryDump_isCountable
  rw [carried_boundaryDump] at hpayload hfile
  exact ⟨boundaryDump_isCountable, hpayload, hfile "a.zst"⟩

/-- The row of `strayDump` is decoded, but at the instant that its text names: half a second
later than the second whose nanoseconds ran on. -/
theorem strayDump_is_moved :
    strayDump.IsCountable ∧ Dump.decode? strayDump.encode ≠ some strayDump ∧
      (Dump.decode? strayDump.encode).map (fun d => d.samples.map fun s =>
        s.timestamp.map fun t => (t.seconds, t.nanos)) = some [some (1746093601, 500000000)] := by
  rw [Dump.decode?_encode strayDump_isCountable]
  refine ⟨strayDump_isCountable, ?_, by decide +kernel⟩
  intro h
  exact carried_strayDump_ne (Option.some.inj h)

end ProbeGap
