import ProbeGap.Files.Path
import ProbeGap.Store.DumpText
import ProbeGap.Store.Frame

/-!
# Store files

A store is kept in a file, whose name tells the form: a snapshot, wrapped by a codec, if the
extension is `zst`, else a dump in JSON. The two forms are read and written here as
bytes; where the bytes come from and go to is not decided here.
-/

namespace ProbeGap

/-! ## §1. The form of a file -/

/-- Whether a path leads to a snapshot. -/
def isSnapshotPath (path : String) : Bool :=
  extension? path == some "zst"

/-! ## §2. Errors -/

/-- Why a store file could not be read or written. -/
inductive FileError where
  | snapshotNotOpened (path : String)
  | snapshotNotDecoded (path : String)
  | snapshotNotCreated (path : String)
  | dumpNotRead (path : String)
  | dumpNotParsed (path : String)
  | dumpNotWritten (path : String)
  deriving DecidableEq

/-- The message of an error. -/
def FileError.message : FileError → String
  | .snapshotNotOpened path => "Failed to open snapshot " ++ path
  | .snapshotNotDecoded path => "Failed to decode snapshot " ++ path
  | .snapshotNotCreated path => "Failed to create snapshot " ++ path
  | .dumpNotRead path => "Failed to read measurement dump from " ++ path
  | .dumpNotParsed path => "Failed to parse measurement dump " ++ path
  | .dumpNotWritten path => "Failed to write measurement dump to " ++ path

/-! ## §3. Reading and writing -/

/-- The bytes of a file as a list. -/
def byteList (bytes : ByteArray) : List UInt8 :=
  bytes.data.toList

/-- A list of bytes as the content of a file. -/
def fileOfBytes (bytes : List UInt8) : ByteArray :=
  ⟨bytes.toArray⟩

variable [Codec]

/-- The dump in a snapshot file. -/
def readSnapshot (path : String) (content : PathContent) : Except FileError Dump :=
  match content with
  | .nothing => .error (.snapshotNotOpened path)
  | .directory => .error (.snapshotNotDecoded path)
  | .file bytes =>
    match (Codec.unwrap? (byteList bytes)).bind Dump.decode? with
    | some dump => .ok dump
    | none => .error (.snapshotNotDecoded path)

/-- The dump in a JSON file. -/
def readDumpFile (path : String) (content : PathContent) : Except FileError Dump :=
  match content.text? with
  | none => .error (.dumpNotRead path)
  | some text =>
    match Dump.parse text with
    | .ok dump => .ok dump
    | .error _ => .error (.dumpNotParsed path)

/-- The dump in a file, in the form that its path tells. -/
def readStoreFile (path : String) (content : PathContent) : Except FileError Dump :=
  if isSnapshotPath path then readSnapshot path content else readDumpFile path content

/-- The store in a file. -/
def openStore (path : String) (content : PathContent) : Except FileError Store :=
  (readStoreFile path content).map Store.ofDump

/-- The bytes of a snapshot file. -/
def snapshotFile (d : Dump) : ByteArray :=
  fileOfBytes (Codec.wrap d.encode)

/-- The bytes of a JSON file. -/
def dumpFile (d : Dump) : ByteArray :=
  d.text.toUTF8

end ProbeGap
