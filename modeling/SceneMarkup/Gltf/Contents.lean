import SceneMarkup.Files.FileTree
import SceneMarkup.Gltf.Container
import SceneMarkup.Text.Address

namespace SceneMarkup.Gltf

open Files (FileTree Path)

/-!
# Contents of buffers

The bytes of a buffer stand in the container, in its address, or in a file whose
path starts from the directory of the asset.
-/

/-- Where an address says that bytes are. -/
inductive Address
  /-- In the address, written in base 64. -/
  | inside (text : String)
  /-- In a file. -/
  | file (path : Path)
  /-- In a file whose path starts from the directory of the asset. -/
  | beside (path : Path)
  /-- Somewhere else. -/
  | foreign
  deriving Repr, DecidableEq

namespace Address

/-- What follows `start` in a text that starts with it. -/
def after? (start text : String) : Option String :=
  if start.toList.isPrefixOf text.toList then some (String.ofList (text.toList.drop start.length))
  else none

/-- The mark between the type of bytes and the bytes. -/
def encodingMark : String := ";base64,"

/-- The bytes written in an address: after the first mark up to a second one, or all of it. -/
def written (text : String) : String :=
  match text.splitOn encodingMark with
  | _ :: second :: _ => second
  | _ => text

/-- Read an address; one without a colon is a path with escapes. -/
def ofText? (text : String) : Option Address :=
  if text.toList.contains ':' then
    match after? "data:" text, after? "file://" text, after? "file:" text with
    | some content, _, _ => some (.inside (written content))
    | none, some path, _ => some (.file ⟨path⟩)
    | none, none, some path => some (.file ⟨path⟩)
    | none, none, none => some .foreign
  else (Text.ofPercent? text).map fun path => .beside ⟨path⟩

end Address

/-- Read the file of a buffer. -/
def readBuffer (tree : FileTree) (path : Path) : Except Fault ByteArray :=
  (tree.read path).mapError fun _ => .unreadable

/-- The file that an address leads to; `directory` is where the asset stands. -/
def fileAt? (directory : Path) (text : String) : Option Path :=
  match Address.ofText? text with
  | some (.file path) => some path
  | some (.beside path) => some (directory.join path)
  | _ => none

/-- The bytes at an address; `directory` is where the asset stands. -/
def bytesAt (tree : FileTree) (directory : Path) (text : String) : Except Fault ByteArray :=
  match Address.ofText? text with
  | some (.inside content) =>
      match Text.ofBase64? content with
      | some bytes => .ok bytes.toByteArray
      | none => .error .brokenBytes
  | some (.file path) => readBuffer tree path
  | some (.beside path) => readBuffer tree (directory.join path)
  | some .foreign => .error .foreignAddress
  | none => .error .unreadable

/-- Fill up with zeros to a multiple of four bytes. -/
def filledUp (bytes : ByteArray) : ByteArray :=
  bytes ++ (List.replicate ((4 - bytes.size % 4) % 4) 0).toByteArray

/-- The bytes of one buffer, and what is left of the bytes in the container. -/
def contentOf (tree : FileTree) (directory : Path) (spare : Option ByteArray) (buffer : Buffer) :
    Except Fault (ByteArray × Option ByteArray) := do
  let (found, left) ←
    match buffer.uri, spare with
    | some uri, _ => (bytesAt tree directory uri).map fun bytes => (bytes, spare)
    | none, some bytes => .ok (bytes, none)
    | none, none => .error .missingBytes
  let content := filledUp found
  if content.size < buffer.byteLength then throw .shortBuffer
  return (content, left)

/-- The bytes of buffers in order; the bytes in the container belong to the first that asks. -/
def contentsOf (tree : FileTree) (directory : Path) :
    Option ByteArray → List Buffer → Except Fault (List ByteArray)
  | _, [] => .ok []
  | spare, buffer :: rest => do
      let (content, left) ← contentOf tree directory spare buffer
      return content :: (← contentsOf tree directory left rest)

/-- The bytes of all buffers of an asset that stands in `directory`. -/
def Asset.contents (asset : Asset) (tree : FileTree) (directory : Path) :
    Except Fault (Array ByteArray) :=
  (contentsOf tree directory asset.bytes asset.document.buffers.toList).map List.toArray

end SceneMarkup.Gltf
