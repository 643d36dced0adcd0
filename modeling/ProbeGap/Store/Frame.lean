import ProbeGap.Store.Snapshot

/-!
# Codecs and frames

The bytes of a snapshot are wrapped before they are stored. How that is done is a parameter
of the store files: a `Codec` wraps content and unwraps what was stored.

The codec at hand is that of frames in the Zstandard format. A frame starts with a magic
number and a header, which may tell the size of the content, and goes on with blocks. Each
block has a header of three bytes: whether it is the last, its kind and its size. Frames are
written with stored blocks alone, which hold their content as it is. Stored blocks and blocks
of one repeated byte are read back; compressed blocks are refused, so frames of other writers
may be out of reach.
-/

namespace ProbeGap

/-- A way to wrap bytes. -/
class Codec where
  /-- Wrap some content. -/
  wrap : List UInt8 → List UInt8
  /-- The content of what was wrapped, if it is that. -/
  unwrap? : List UInt8 → Option (List UInt8)

/-! ## §1. Writing -/

/-- The four bytes that a frame starts with. -/
def frameMagic : List UInt8 := [0x28, 0xB5, 0x2F, 0xFD]

/-- The greatest size of a block. -/
def blockLimit : Nat := 131072

/-- The header of a stored block. -/
def storedHeader (last : Bool) (size : Nat) : List UInt8 :=
  littleEndian 3 (8 * size + if last then 1 else 0)

/-- Content as stored blocks. The fuel bounds their number. -/
def storedBlocks : (fuel : Nat) → List UInt8 → List UInt8
  | 0, s => storedHeader true s.length ++ s
  | fuel + 1, s =>
    if s.length ≤ blockLimit then storedHeader true s.length ++ s
    else storedHeader false blockLimit ++ s.take blockLimit
      ++ storedBlocks fuel (s.drop blockLimit)

/-- The frame of some content. Its header tells the size in eight bytes. -/
def Frame.wrap (content : List UInt8) : List UInt8 :=
  -- The descriptor says: one segment, no dictionary, a size of eight bytes.
  frameMagic ++ 0xE0 :: littleEndian 8 content.length
    ++ storedBlocks (content.length / blockLimit) content

/-! ## §2. Reading -/

/-- How many header bytes follow the descriptor: one for the window unless the frame is a
single segment, some for a dictionary and some for the size of the content. -/
def headerLength (descriptor : Nat) : Nat :=
  let single := descriptor / 32 % 2
  let window := 1 - single
  let dictionary := [0, 1, 2, 4].getD (descriptor % 4) 0
  let size := [single, 2, 4, 8].getD (descriptor / 64) 0
  window + dictionary + size

/-- The content of blocks up to the last one. The fuel bounds their number; the content
found so far is given in pieces, in reverse. -/
def readBlocks : (fuel : Nat) → (done : List (List UInt8)) → List UInt8 → Option (List UInt8)
  | 0, _, _ => none
  | fuel + 1, done, s =>
    match takeLittleEndian 3 s with
    | none => none
    | some (header, s) =>
      let size := header / 8
      let piece? : Taken (List UInt8) :=
        match header / 2 % 4, s with
        | 0, s => if size ≤ s.length then some (s.take size, s.drop size) else none
        | 1, b :: s => some (List.replicate size b, s)
        | _, _ => none
      match piece? with
      | none => none
      | some (piece, s) =>
        if header % 2 = 1 then some (piece :: done).reverse.flatten
        else readBlocks fuel (piece :: done) s

/-- The content of a frame. -/
def Frame.unwrap? : List UInt8 → Option (List UInt8)
  | 0x28 :: 0xB5 :: 0x2F :: 0xFD :: descriptor :: s =>
    readBlocks (s.length + 1) [] (s.drop (headerLength descriptor.toNat))
  | _ => none

/-- The codec of frames. -/
instance Frame.codec : Codec where
  wrap := Frame.wrap
  unwrap? := Frame.unwrap?

end ProbeGap
