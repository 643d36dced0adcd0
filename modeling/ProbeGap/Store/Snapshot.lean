import ProbeGap.Store.Basic
import ProbeGap.Time.Reading
import ProbeGap.Time.Written

/-!
# Snapshots

A snapshot is a dump in bytes. Every part is written in a fixed form:

  * numbers as eight bytes, the lowest first, doubles by their bits;
  * a truth value as one byte, zero or one;
  * a list or a text as its length and its content, a text in UTF-8;
  * an optional part as one byte that says whether it is there, and the part;
  * an instant as the text in which it is written.

The reader takes parts from the front and leaves the rest, so that what follows a dump
is not looked at. Bytes that end too early or do not have the form are refused.
-/

namespace ProbeGap

/-- A part read from the front of bytes, and the bytes behind it. -/
abbrev Taken (α : Type) := Option (α × List UInt8)

/-! ## §1. Numbers -/

/-- The lowest bytes of a number, the lowest first. -/
def littleEndian : (width : Nat) → Nat → List UInt8
  | 0, _ => []
  | width + 1, n => UInt8.ofNat (n % 256) :: littleEndian width (n / 256)

/-- Take a number of so many bytes. -/
def takeLittleEndian : (width : Nat) → List UInt8 → Taken Nat
  | 0, s => some (0, s)
  | _ + 1, [] => none
  | width + 1, b :: s =>
    match takeLittleEndian width s with
    | some (n, s) => some (b.toNat + 256 * n, s)
    | none => none

/-- The bytes of a 64-bit number. -/
def encodeUInt64 (n : UInt64) : List UInt8 :=
  littleEndian 8 n.toNat

/-- Take a 64-bit number. -/
def takeUInt64 (s : List UInt8) : Taken UInt64 :=
  (takeLittleEndian 8 s).map fun (n, s) => (UInt64.ofNat n, s)

/-- The bytes of a double. -/
def encodeFloat (x : Float) : List UInt8 :=
  encodeUInt64 x.toBits

/-- Take a double. -/
def takeFloat (s : List UInt8) : Taken Float :=
  (takeUInt64 s).map fun (n, s) => (Float.ofBits n, s)

/-- The byte of a truth value. -/
def encodeBool (b : Bool) : List UInt8 :=
  [if b then 1 else 0]

/-- Take a truth value. -/
def takeBool : List UInt8 → Taken Bool
  | 0 :: s => some (false, s)
  | 1 :: s => some (true, s)
  | _ => none

/-! ## §2. Lists, texts and optional parts -/

/-- The bytes of a list: its length, then its items. -/
def encodeList {α : Type} (encode : α → List UInt8) (xs : List α) : List UInt8 :=
  littleEndian 8 xs.length ++ xs.flatMap encode

/-- Take so many items. The items taken so far are given in reverse. -/
def takeItems {α : Type} (take : List UInt8 → Taken α) :
    (count : Nat) → (done : List α) → List UInt8 → Taken (List α)
  | 0, done, s => some (done.reverse, s)
  | count + 1, done, s =>
    match take s with
    | some (x, s) => takeItems take count (x :: done) s
    | none => none

/-- Take a list. -/
def takeList {α : Type} (take : List UInt8 → Taken α) (s : List UInt8) : Taken (List α) :=
  match takeLittleEndian 8 s with
  | some (count, s) => takeItems take count [] s
  | none => none

/-- The bytes of a text. -/
def encodeText (text : String) : List UInt8 :=
  encodeList (fun b => [b]) text.toUTF8.data.toList

/-- Take a byte. -/
def takeByte : List UInt8 → Taken UInt8
  | b :: s => some (b, s)
  | [] => none

/-- Take a text, which must be UTF-8. -/
def takeText (s : List UInt8) : Taken String :=
  match takeList takeByte s with
  | some (bytes, s) => (String.fromUTF8? ⟨bytes.toArray⟩).map fun text => (text, s)
  | none => none

/-- The bytes of an optional part. -/
def encodeOption {α : Type} (encode : α → List UInt8) : Option α → List UInt8
  | none => [0]
  | some x => 1 :: encode x

/-- Take an optional part. -/
def takeOption {α : Type} (take : List UInt8 → Taken α) : List UInt8 → Taken (Option α)
  | 0 :: s => some (none, s)
  | 1 :: s => (take s).map fun (x, s) => (some x, s)
  | _ => none

/-- The bytes of an instant. -/
def encodeInstant (t : Instant) : List UInt8 :=
  encodeText t.text

/-- Take an instant. -/
def takeInstant (s : List UInt8) : Taken Instant :=
  match takeText s with
  | some (text, s) => (Instant.ofText? text).map fun t => (t, s)
  | none => none

/-! ## §3. Dumps -/

/-- The bytes of a named experiment. -/
def ExperimentInfo.encode (e : ExperimentInfo) : List UInt8 :=
  encodeUInt64 e.id ++ encodeText e.name

/-- Take a named experiment. -/
def takeInfo (s : List UInt8) : Option (ExperimentInfo × List UInt8) := do
  let (id, s) ← takeUInt64 s
  let (name, s) ← takeText s
  return (⟨id, name⟩, s)

/-- The bytes of a sample. -/
def Sample.encode (x : Sample Float) : List UInt8 :=
  encodeUInt64 x.link ++ encodeUInt64 x.experiment ++ encodeFloat x.gin ++ encodeFloat x.gout
    ++ encodeFloat x.length ++ encodeBool x.used ++ encodeOption encodeInstant x.timestamp

/-- Take a sample. -/
def takeSample (s : List UInt8) : Option (Sample Float × List UInt8) := do
  let (link, s) ← takeUInt64 s
  let (experiment, s) ← takeUInt64 s
  let (gin, s) ← takeFloat s
  let (gout, s) ← takeFloat s
  let (length, s) ← takeFloat s
  let (used, s) ← takeBool s
  let (timestamp, s) ← takeOption takeInstant s
  return (⟨link, experiment, gin, gout, length, used, timestamp⟩, s)

/-- The bytes of a dump. -/
def Dump.encode (d : Dump) : List UInt8 :=
  encodeList ExperimentInfo.encode d.experiments ++ encodeList Sample.encode d.samples

/-- Take a dump. -/
def takeDump (s : List UInt8) : Option (Dump × List UInt8) := do
  let (experiments, s) ← takeList takeInfo s
  let (samples, s) ← takeList takeSample s
  return (⟨experiments, samples⟩, s)

/-- The dump at the front of bytes. -/
def Dump.decode? (s : List UInt8) : Option Dump :=
  (takeDump s).map (·.1)

end ProbeGap
