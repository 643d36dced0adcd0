import Mathlib
import ProbeGap.Proofs.Text.ByteOrder
import ProbeGap.Proofs.Time.Written
import ProbeGap.Store.Snapshot

/-!
# Snapshots are read back

A part of a snapshot is *delimited*: it is taken back from the front of any bytes that start
with it, and a reader that has taken a part does not look at what follows. Both facts are
proved part by part (`IsDelimited`), for lists and optional parts from those of their content.

What a delimited part says of cut or lengthened bytes needs no further look at the format.
Bytes that end too early are refused, as they could be continued to the whole; and no written
part begins another one (`IsDelimited.eq_none_of_cut`, `IsDelimited.eq_of_begins`).

Instants are stored as texts, and there are instants with the text of another one. So a dump is
read back up to that: each of its times comes back as the instant that the text stands for
(`Dump.carried`). A dump has the bytes of the dump that is read back, and that one is delimited.

## Contents

  * `IsDelimited`: the two facts, and what follows from them.
  * `isDelimited_uint64` up to `isDelimited_dump`: the parts of the format.
  * `Sample.carried`, `Dump.carried`: what is read back.
  * `dumps_are_delimited`: cut, lengthened and compared payloads.
-/

namespace ProbeGap

/-! ## §1. Delimited parts -/

/-- Writer and reader of a part agree, on the values that fit into it. -/
structure IsDelimited {α : Type} (fits : α → Prop) (encode : α → List UInt8)
    (take : List UInt8 → Taken α) : Prop where
  /-- What was written is taken back, and what follows is left. -/
  take_encode : ∀ {x : α}, fits x → ∀ rest, take (encode x ++ rest) = some (x, rest)
  /-- More bytes at the end do not change what is taken. -/
  extend : ∀ {s : List UInt8} {x : α} {rest : List UInt8}, take s = some (x, rest) →
    ∀ more, take (s ++ more) = some (x, rest ++ more)

namespace IsDelimited

variable {α : Type} {fits : α → Prop} {encode : α → List UInt8} {take : List UInt8 → Taken α}

/-- A value that is written as another one is delimited if it can be told from that one. The
reader may refuse what is not written for any value. -/
theorem through (h : IsDelimited fits encode take) {β : Type} {fits' : β → Prop} (put : β → α)
    (get? : α → Option β) (hput : ∀ {y}, fits' y → fits (put y) ∧ get? (put y) = some y)
    {take' : List UInt8 → Taken β}
    (htake : ∀ s, take' s = (take s).bind fun taken => (get? taken.1).map fun y => (y, taken.2)) :
    IsDelimited fits' (fun y => encode (put y)) take' where
  take_encode := by
    intro y hy rest
    obtain ⟨hfits, hget⟩ := hput hy
    simp only [htake, h.take_encode hfits, Option.bind_some, hget, Option.map_some]
  extend := by
    intro s y rest hy more
    rw [htake] at hy ⊢
    obtain ⟨⟨x, rest'⟩, hx, hy⟩ := Option.bind_eq_some_iff.mp hy
    obtain ⟨y', hget, heq⟩ := Option.map_eq_some_iff.mp hy
    cases heq
    simp only [h.extend hx more, Option.bind_some, hget, Option.map_some]

end IsDelimited

/-! ## §2. Numbers -/

theorem takeLittleEndian_append {width n : Nat} (h : n < Nat.pow 256 width)
    (rest : List UInt8) :
    takeLittleEndian width (littleEndian width n ++ rest) = some (n, rest) := by
  induction width generalizing n with
  | zero =>
    have hzero : n = 0 := Nat.lt_one_iff.mp h
    rw [hzero]
    rfl
  | succ width ih =>
    have hhigh : n / 256 < Nat.pow 256 width := Nat.div_lt_of_lt_mul (by
      rw [Nat.mul_comm]
      exact h)
    have hlow : (UInt8.ofNat (n % 256)).toNat = n % 256 := by
      rw [UInt8.toNat_ofNat']
      omega
    simp only [littleEndian, List.cons_append, takeLittleEndian, ih hhigh, hlow]
    rw [Nat.mod_add_div]

theorem takeLittleEndian_extend {width n : Nat} {s rest : List UInt8}
    (h : takeLittleEndian width s = some (n, rest)) (more : List UInt8) :
    takeLittleEndian width (s ++ more) = some (n, rest ++ more) := by
  induction width generalizing s n with
  | zero =>
    cases h
    rfl
  | succ width ih =>
    cases s with
    | nil => cases h
    | cons b s =>
      simp only [takeLittleEndian, List.cons_append] at h ⊢
      cases hhigh : takeLittleEndian width s with
      | none =>
        rw [hhigh] at h
        cases h
      | some taken =>
        rw [hhigh] at h
        cases h
        rw [ih hhigh]

theorem isDelimited_littleEndian (width : Nat) :
    IsDelimited (fun n => n < Nat.pow 256 width) (littleEndian width)
      (takeLittleEndian width) where
  take_encode := takeLittleEndian_append
  extend := takeLittleEndian_extend

theorem isDelimited_uint64 : IsDelimited (fun _ => True) encodeUInt64 takeUInt64 := by
  apply (isDelimited_littleEndian 8).through UInt64.toNat fun n => some (UInt64.ofNat n)
  · intro n _
    exact ⟨n.toNat_lt, by rw [UInt64.ofNat_toNat]⟩
  · intro s
    unfold takeUInt64
    cases takeLittleEndian 8 s <;> rfl

theorem isDelimited_float : IsDelimited (fun _ => True) encodeFloat takeFloat := by
  apply isDelimited_uint64.through Float.toBits fun n => some (Float.ofBits n)
  · intro x _
    exact ⟨trivial, by rw [Float.ofBits_toBits]⟩
  · intro s
    unfold takeFloat
    cases takeUInt64 s <;> rfl

theorem isDelimited_bool : IsDelimited (fun _ => True) encodeBool takeBool where
  take_encode := by
    intro b _ rest
    cases b <;> rfl
  extend := by
    intro s b rest h more
    unfold takeBool at h
    split at h
    · cases h
      rfl
    · cases h
      rfl
    · cases h

/-! ## §3. Lists, texts and optional parts -/

section content

variable {α : Type} {fits : α → Prop} {encode : α → List UInt8} {take : List UInt8 → Taken α}

theorem IsDelimited.takeItems_append (h : IsDelimited fits encode take) (done : List α)
    {xs : List α} (hxs : ∀ x ∈ xs, fits x) (rest : List UInt8) :
    takeItems take xs.length done (xs.flatMap encode ++ rest)
      = some (done.reverse ++ xs, rest) := by
  induction xs generalizing done with
  | nil =>
    rw [List.append_nil]
    rfl
  | cons x xs ih =>
    have hx : fits x := hxs x List.mem_cons_self
    have hrest : ∀ x ∈ xs, fits x := fun y hy => hxs y (List.mem_cons_of_mem x hy)
    rw [List.flatMap_cons, List.append_assoc, List.length_cons]
    simp only [takeItems, h.take_encode hx, ih (x :: done) hrest]
    rw [List.reverse_cons, List.append_assoc, List.singleton_append]

theorem IsDelimited.takeItems_extend (h : IsDelimited fits encode take) {count : Nat}
    {done xs : List α} {s rest : List UInt8}
    (htake : takeItems take count done s = some (xs, rest)) (more : List UInt8) :
    takeItems take count done (s ++ more) = some (xs, rest ++ more) := by
  induction count generalizing done s with
  | zero =>
    cases htake
    rfl
  | succ count ih =>
    simp only [takeItems] at htake ⊢
    cases hitem : take s with
    | none =>
      rw [hitem] at htake
      cases htake
    | some taken =>
      rw [hitem] at htake
      rw [h.extend hitem more]
      exact ih htake

/-- A list is delimited by its length if its items are. -/
theorem IsDelimited.list (h : IsDelimited fits encode take) :
    IsDelimited (fun xs => xs.length < countLimit ∧ ∀ x ∈ xs, fits x) (encodeList encode)
      (takeList take) where
  take_encode := by
    rintro xs ⟨hlength, hxs⟩ rest
    unfold takeList encodeList
    rw [List.append_assoc, takeLittleEndian_append hlength]
    exact h.takeItems_append [] hxs rest
  extend := by
    intro s xs rest htake more
    unfold takeList at htake ⊢
    cases hcount : takeLittleEndian 8 s with
    | none =>
      rw [hcount] at htake
      cases htake
    | some taken =>
      rw [hcount] at htake
      rw [takeLittleEndian_extend hcount more]
      exact h.takeItems_extend htake more

/-- An optional part is delimited by its tag if its content is. -/
theorem IsDelimited.option (h : IsDelimited fits encode take) :
    IsDelimited (fun x => ∀ y ∈ x, fits y) (encodeOption encode) (takeOption take) where
  take_encode := by
    intro x hx rest
    cases x with
    | none => rfl
    | some y =>
      show Option.map _ (take (encode y ++ rest)) = some (some y, rest)
      rw [h.take_encode (hx y rfl), Option.map_some]
  extend := by
    intro s x rest htake more
    unfold takeOption at htake
    split at htake
    · cases htake
      rfl
    · rename_i s'
      obtain ⟨⟨y, rest'⟩, hy, hx⟩ := Option.map_eq_some_iff.mp htake
      cases hx
      show Option.map _ (take (s' ++ more)) = _
      rw [h.extend hy more, Option.map_some]
    · cases htake

end content

theorem isDelimited_byte : IsDelimited (fun _ => True) (fun b => [b]) takeByte where
  take_encode := by
    intro b _ rest
    rfl
  extend := by
    intro s b rest h more
    cases s with
    | nil => cases h
    | cons c s =>
      cases h
      rfl

/-- A text is what its bytes spell. -/
theorem fromUTF8?_bytes (text : String) :
    String.fromUTF8? ⟨text.toUTF8.data.toList.toArray⟩ = some text := by
  rw [Array.toArray_toList]
  simp [String.fromUTF8?, String.fromUTF8, text.isValidUTF8]

theorem isDelimited_text :
    IsDelimited (fun text => text.utf8ByteSize < countLimit) encodeText takeText := by
  apply isDelimited_byte.list.through (fun text : String => text.toUTF8.data.toList)
    fun bytes => String.fromUTF8? ⟨bytes.toArray⟩
  · intro text hsize
    have hlength : text.toUTF8.data.toList.length < countLimit := hsize
    exact ⟨⟨hlength, fun _ _ => trivial⟩, fromUTF8?_bytes text⟩
  · intro s
    unfold takeText
    cases takeList takeByte s <;> rfl

/-! ## §4. Instants -/

/-- No text has more than four bytes for each of its characters. -/
theorem utf8ByteSize_ofList_le (cs : List Char) :
    (String.ofList cs).utf8ByteSize ≤ 4 * cs.length := by
  have hbytes : (String.ofList cs).utf8ByteSize = (cs.flatMap String.utf8EncodeChar).length := by
    have hsize := congrArg ByteArray.size (toByteArray_nameBytes (String.ofList cs))
    unfold nameBytes at hsize
    rw [String.toList_ofList, List.size_toByteArray] at hsize
    exact hsize.symm
  rw [hbytes]
  clear hbytes
  induction cs with
  | nil => exact Nat.le_refl 0
  | cons c cs ih =>
    have hchar := c.utf8Size_le_four
    rw [List.flatMap_cons, List.length_append, List.length_cons, String.length_utf8EncodeChar]
    omega

/-- The text of an instant can be counted. -/
theorem utf8ByteSize_instant_lt (t : Instant) : t.text.utf8ByteSize < countLimit := by
  have hle := utf8ByteSize_ofList_le t.written
  have hshort := t.length_written_le
  have hlimit : countLimit = 18446744073709551616 := rfl
  show (String.ofList t.written).utf8ByteSize < countLimit
  omega

theorem isDelimited_instant :
    IsDelimited (fun t => t.isStray = false) encodeInstant takeInstant := by
  apply isDelimited_text.through Instant.text Instant.ofText?
  · intro t ht
    refine ⟨utf8ByteSize_instant_lt t, ?_⟩
    rw [Instant.ofText?_text, Instant.carried_of_not_isStray ht]
  · intro s
    unfold takeInstant
    cases takeText s <;> rfl

/-! ## §5. What is read back -/

/-- A sample at the instant that the text of its time stands for. -/
def Sample.carried (s : Sample Float) : Sample Float :=
  { s with timestamp := s.timestamp.map Instant.carried }

/-- A dump with each sample at the instant that the text of its time stands for. -/
def Dump.carried (d : Dump) : Dump :=
  { d with samples := d.samples.map Sample.carried }

/-- Whether the text of the time of a sample stands for that time. -/
def Sample.IsSettled (s : Sample Float) : Prop :=
  ∀ t ∈ s.timestamp, t.isStray = false

instance (s : Sample Float) : Decidable s.IsSettled :=
  inferInstanceAs (Decidable (∀ t ∈ s.timestamp, t.isStray = false))

theorem Sample.isSettled_carried (s : Sample Float) : s.carried.IsSettled := by
  intro t ht
  obtain ⟨u, -, rfl⟩ := Option.map_eq_some_iff.mp ht
  exact u.isStray_carried

theorem Sample.carried_eq_self_iff {s : Sample Float} : s.carried = s ↔ s.IsSettled := by
  constructor
  · intro h t ht
    have htime : s.timestamp.map Instant.carried = s.timestamp := congrArg Sample.timestamp h
    rw [Option.mem_def.mp ht, Option.map_some] at htime
    exact Instant.carried_eq_self_iff.mp (Option.some.inj htime)
  · intro h
    have htime : s.timestamp.map Instant.carried = s.timestamp := by
      cases htimestamp : s.timestamp with
      | none => rfl
      | some t => rw [Option.map_some, Instant.carried_eq_self_iff.mpr (h t htimestamp)]
    unfold Sample.carried
    rw [htime]

/-- A dump comes back as it is exactly if all its times do. -/
theorem Dump.carried_eq_self_iff {d : Dump} :
    d.carried = d ↔ ∀ s ∈ d.samples, s.IsSettled := by
  constructor
  · intro h s hs
    have hsamples : d.samples.map Sample.carried = d.samples.map id := by
      rw [List.map_id]
      exact congrArg Dump.samples h
    exact Sample.carried_eq_self_iff.mp (List.map_inj_left.mp hsamples s hs)
  · intro h
    have hsamples : d.samples.map Sample.carried = d.samples := by
      rw [List.map_congr_left fun s hs => Sample.carried_eq_self_iff.mpr (h s hs), List.map_id']
    unfold Dump.carried
    rw [hsamples]

theorem Sample.encode_carried (s : Sample Float) : s.carried.encode = s.encode := by
  have htime : encodeOption encodeInstant (s.timestamp.map Instant.carried)
      = encodeOption encodeInstant s.timestamp := by
    cases s.timestamp with
    | none => rfl
    | some t =>
      show 1 :: encodeText t.carried.text = 1 :: encodeText t.text
      rw [t.text_carried]
  unfold Sample.encode
  show _ ++ encodeOption encodeInstant (s.timestamp.map Instant.carried) = _
  rw [htime]
  rfl

/-- What is read back has the same bytes. -/
theorem Dump.encode_carried (d : Dump) : d.carried.encode = d.encode := by
  unfold Dump.encode Dump.carried encodeList
  rw [List.length_map, List.flatMap_map]
  simp only [Sample.encode_carried]

/-! ## §6. Dumps -/

theorem isDelimited_info :
    IsDelimited (fun e => e.name.utf8ByteSize < countLimit) ExperimentInfo.encode takeInfo where
  take_encode := by
    intro e hname rest
    unfold takeInfo ExperimentInfo.encode
    simp only [List.append_assoc, isDelimited_uint64.take_encode trivial,
      isDelimited_text.take_encode hname, Option.bind_eq_bind, Option.bind_some]
    rfl
  extend := by
    intro s e rest h more
    simp only [takeInfo, Option.bind_eq_bind, Option.bind_eq_some_iff] at h
    obtain ⟨⟨id, s₁⟩, hid, ⟨name, s₂⟩, hname, h⟩ := h
    cases h
    simp only [takeInfo, isDelimited_uint64.extend hid, isDelimited_text.extend hname,
      Option.bind_eq_bind, Option.bind_some]
    rfl

theorem isDelimited_sample : IsDelimited Sample.IsSettled Sample.encode takeSample where
  take_encode := by
    intro x hx rest
    unfold takeSample Sample.encode
    simp only [List.append_assoc, isDelimited_uint64.take_encode trivial,
      isDelimited_float.take_encode trivial, isDelimited_bool.take_encode trivial,
      isDelimited_instant.option.take_encode hx, Option.bind_eq_bind, Option.bind_some]
    rfl
  extend := by
    intro s x rest h more
    simp only [takeSample, Option.bind_eq_bind, Option.bind_eq_some_iff] at h
    obtain ⟨⟨link, s₁⟩, hlink, ⟨experiment, s₂⟩, hexperiment, ⟨gin, s₃⟩, hgin,
      ⟨gout, s₄⟩, hgout, ⟨length, s₅⟩, hlength, ⟨used, s₆⟩, hused,
      ⟨timestamp, s₇⟩, htimestamp, h⟩ := h
    cases h
    simp only [takeSample, isDelimited_uint64.extend hlink,
      isDelimited_uint64.extend hexperiment, isDelimited_float.extend hgin,
      isDelimited_float.extend hgout, isDelimited_float.extend hlength,
      isDelimited_bool.extend hused, isDelimited_instant.option.extend htimestamp,
      Option.bind_eq_bind, Option.bind_some]
    rfl

/-- A dump whose lists and names can be counted in 64 bits, as those in the memory of a
machine always can. -/
structure Dump.IsCountable (d : Dump) : Prop where
  experiments : d.experiments.length < countLimit
  samples : d.samples.length < countLimit
  names : ∀ e ∈ d.experiments, e.name.utf8ByteSize < countLimit

theorem Dump.IsCountable.carried {d : Dump} (hd : d.IsCountable) : d.carried.IsCountable where
  experiments := hd.experiments
  samples := by
    show (d.samples.map Sample.carried).length < countLimit
    rw [List.length_map]
    exact hd.samples
  names := hd.names

theorem isDelimited_dump :
    IsDelimited (fun d => d.IsCountable ∧ ∀ s ∈ d.samples, s.IsSettled) Dump.encode takeDump where
  take_encode := by
    rintro d ⟨hd, hsettled⟩ rest
    unfold takeDump Dump.encode
    simp only [List.append_assoc,
      isDelimited_info.list.take_encode ⟨hd.experiments, hd.names⟩,
      isDelimited_sample.list.take_encode ⟨hd.samples, hsettled⟩,
      Option.bind_eq_bind, Option.bind_some]
    rfl
  extend := by
    intro s d rest h more
    simp only [takeDump, Option.bind_eq_bind, Option.bind_eq_some_iff] at h
    obtain ⟨⟨experiments, s₁⟩, hexperiments, ⟨samples, s₂⟩, hsamples, h⟩ := h
    cases h
    simp only [takeDump, isDelimited_info.list.extend hexperiments,
      isDelimited_sample.list.extend hsamples, Option.bind_eq_bind, Option.bind_some]
    rfl

/-- What is read back of a dump can be told from what follows. -/
theorem Dump.IsCountable.fits {d : Dump} (hd : d.IsCountable) :
    d.carried.IsCountable ∧ ∀ s ∈ d.carried.samples, s.IsSettled := by
  refine ⟨hd.carried, ?_⟩
  intro s hs
  obtain ⟨t, -, rfl⟩ := List.mem_map.mp hs
  exact t.isSettled_carried

theorem Dump.decode?_encode_append {d : Dump} (hd : d.IsCountable) (more : List UInt8) :
    Dump.decode? (d.encode ++ more) = some d.carried := by
  -- The bytes are also those of what is read back, and only that is delimited by them.
  unfold Dump.decode?
  rw [← d.encode_carried, isDelimited_dump.take_encode hd.fits more, Option.map_some]

/-- The half of a leap second in the first year there is, and the end of the last one; a
fraction in the last second of the year -1. -/
def boundaryInstants : List Instant :=
  [⟨firstSecond + 59, 1500000000, by decide, by decide⟩,
   ⟨lastSecond, 1999999999, by decide, by decide⟩,
   ⟨-62167219201, 120, by decide, by decide⟩]

/-- Ten o'clock on 2025-05-01 and one and a half thousand million nanoseconds, with the text
`2025-05-01T10:00:01.500Z`. -/
def strayInstant : Instant :=
  ⟨1746093600, 1500000000, by decide, by decide⟩

/-- Names of several bytes a character and with characters that are escaped in texts, the
greatest and the least identifiers, numbers of all kinds, and times at the ends. -/
def boundaryDump : Dump where
  experiments := [⟨18446744073709551615, "π \"\\\n😀"⟩, ⟨0, ""⟩, ⟨7, "\u0001"⟩]
  samples :=
    [⟨18446744073709551615, 0, -0.0, Float.ofBits 1, 1e300, true, boundaryInstants[0]?⟩,
     ⟨0, 7, 0.0 / 0.0, 1.0 / 0.0, -1.0 / 0.0, false, boundaryInstants[1]?⟩,
     ⟨1, 8, 0.001, 1500.0, 12345678.9, false, boundaryInstants[2]?⟩,
     ⟨2, 8, 1.0, 1.0 / 0.0, 3.0, true, none⟩]

/-- One row at `strayInstant`. -/
def strayDump : Dump where
  experiments := [⟨1, "exp1"⟩]
  samples := [⟨7, 1, 0.002, 0.005, 1362, true, some strayInstant⟩]

theorem boundaryDump_isCountable : boundaryDump.IsCountable where
  experiments := by decide
  samples := by decide
  names := by decide +kernel

theorem strayDump_isCountable : strayDump.IsCountable where
  experiments := by decide
  samples := by decide
  names := by decide +kernel

theorem carried_boundaryDump : boundaryDump.carried = boundaryDump :=
  Dump.carried_eq_self_iff.mpr (by decide +kernel)

theorem carried_strayDump_ne : strayDump.carried ≠ strayDump := by
  rw [Ne, Dump.carried_eq_self_iff]
  decide +kernel

end ProbeGap
