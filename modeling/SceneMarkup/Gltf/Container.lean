import SceneMarkup.Gltf.Validity

namespace SceneMarkup.Gltf

open Json (Tree)

/-!
# Asset files

An asset file is a JSON text, or a container with a header and chunks: first the
JSON text, then the bytes that belong to it, if there are any.
-/

/-- Why a file gives no asset. -/
inductive Fault
  /-- A file cannot be read, or is too short to tell what it is. -/
  | unreadable
  /-- The header or a chunk of the container is cut off or has the wrong mark. -/
  | brokenContainer
  /-- The text is no JSON text, or says something that no asset says. -/
  | malformed
  /-- The document is not valid. -/
  | invalid
  /-- A buffer is to be found in the container, which has no bytes left. -/
  | missingBytes
  /-- The bytes written inside the document are not well written. -/
  | brokenBytes
  /-- A buffer is to be found at an address of an unknown kind. -/
  | foreignAddress
  /-- A buffer has fewer bytes than the document promises. -/
  | shortBuffer
  deriving Repr, DecidableEq

/-- A document and the bytes that come with it. -/
structure Asset where
  document : Document
  bytes : Option ByteArray

/-- The mark at the start of a container. -/
def containerMark : List UInt8 := [0x67, 0x6c, 0x54, 0x46]

/-- The mark of the chunk that holds the text. -/
def textMark : List UInt8 := [0x4a, 0x53, 0x4f, 0x4e]

/-- The mark of the chunk that holds the bytes. -/
def bytesMark : List UInt8 := [0x42, 0x49, 0x4e, 0x00]

/-- Bytes of the header of a container. -/
def headerSize : Nat := 12

/-- Bytes of the header of a chunk. -/
def chunkHeaderSize : Nat := 8

/-- The bytes from `start` on, at most `count` of them. -/
def slice (bytes : ByteArray) (start count : Nat) : ByteArray :=
  bytes.extract start (start + count)

/-- Four bytes as a number, the lowest byte first. -/
def wordAt (bytes : ByteArray) (start : Nat) : Nat :=
  (slice bytes start 4).toList.foldr (fun byte value => byte.toNat + 256 * value) 0

/-- Whether `mark` stands at `start`. -/
def hasMark (bytes : ByteArray) (start : Nat) (mark : List UInt8) : Bool :=
  (slice bytes start 4).toList == mark

/-- The content of the chunk at `start`, if it has the mark and is not cut off. -/
def chunkAt? (bytes : ByteArray) (start : Nat) (mark : List UInt8) : Option ByteArray :=
  let size := wordAt bytes start
  if start + chunkHeaderSize ≤ bytes.size ∧ hasMark bytes (start + 4) mark
      ∧ start + chunkHeaderSize + size ≤ bytes.size then
    some (slice bytes (start + chunkHeaderSize) size)
  else none

/-- The text and the bytes of a container; what follows the stated length is left out. -/
def openContainer (bytes : ByteArray) : Except Fault (ByteArray × Option ByteArray) :=
  let length := wordAt bytes 8
  if bytes.size < headerSize ∨ wordAt bytes 4 ≠ 2 ∨ length < headerSize ∨ bytes.size < length then
    .error .brokenContainer
  else
    let body := slice bytes headerSize (length - headerSize)
    match chunkAt? body 0 textMark with
    | none => .error .brokenContainer
    | some text =>
        let next := chunkHeaderSize + text.size
        if next = body.size then .ok (text, none)
        else
          match chunkAt? body next bytesMark with
          | some found => .ok (text, some found)
          | none => .error .brokenContainer

/-- Read a document and check that it is valid. -/
def Document.ofBytes (bytes : ByteArray) : Except Fault Document :=
  match (Tree.ofBytes? bytes).bind Document.ofTree? with
  | none => .error .malformed
  | some document => if document.isValid then .ok document else .error .invalid

/-- Read an asset file. -/
def Asset.ofBytes (bytes : ByteArray) : Except Fault Asset := do
  if bytes.size < 4 then throw .unreadable
  let (text, found) ←
    if hasMark bytes 0 containerMark then openContainer bytes else .ok (bytes, none)
  return ⟨← Document.ofBytes text, found⟩

end SceneMarkup.Gltf
