import ArrayBridge.Element
import ArrayBridge.ObjectId
import ArrayBridge.Shape.Basic

/-! Handles.

Foreign objects reach the host only as handles: words that name a slot of the
handle table and a generation of the slot. Each registered handle owns one
reference. A slot that is used again gets another generation, so a handle that
was removed does not become valid again. -/

namespace ArrayBridge

/-- A name for a foreign object: the slot in the lower half of a word and its
generation in the upper half. -/
structure Handle where
  raw : UInt64
  deriving DecidableEq, Inhabited

namespace Handle

def make (index generation : UInt32) : Handle := ⟨generation.toUInt64 <<< 32 ||| index.toUInt64⟩

def index (h : Handle) : UInt32 := h.raw.toUInt32

def generation (h : Handle) : UInt32 := (h.raw >>> 32).toUInt32

/-- The slot and the generation of a handle, as all its texts show them. -/
def position (h : Handle) : String :=
  toString h.index.toNat ++ "v" ++ toString h.generation.toNat

/-- The form of a handle in messages. -/
def text (h : Handle) : String := "#" ++ h.position

/-- The diagnostic form of a handle. -/
def debugText (h : Handle) : String := "Handle(" ++ h.position ++ ")"

end Handle

/-- A handle of an array and the memory that it keeps alive. -/
structure BufferDescriptor where
  handle : Handle
  /-- The address of the first element. -/
  address : Nat
  byteSize : Nat
  dtype : DType
  shape : Shape
  deriving DecidableEq, Inhabited

/-- The outcome of releasing a buffer. -/
inductive ReleaseStatus where
  | ok
  /-- The handle is not registered. -/
  | staleHandle
  /-- The address is not that of the handle's array. -/
  | bufferMismatch
  | runtimeReleased
  deriving DecidableEq, Inhabited

namespace ReleaseStatus

def code : ReleaseStatus → Int
  | ok => 0
  | staleHandle => 1
  | bufferMismatch => 2
  | runtimeReleased => 3

/-- The status of a code; a code without a meaning of its own is that of a stale
handle. -/
def ofCode (code : Int) : ReleaseStatus :=
  if code = 0 then ok
  else if code = 2 then bufferMismatch
  else if code = 3 then runtimeReleased
  else staleHandle

def isOk (status : ReleaseStatus) : Bool := status = ok

end ReleaseStatus

/-- The progress of an iterator as its handle knows it. -/
inductive IterationState where
  | created
  | yielding
  | exhausted
  deriving DecidableEq, Inhabited

def IterationState.name : IterationState → String
  | created => "Created"
  | yielding => "Yielding"
  | exhausted => "Exhausted"

/-- What a handle stands for. -/
inductive HandleKind where
  | object
  | iterator (state : IterationState)
  deriving DecidableEq, Inhabited

/-- A slot of the handle table. -/
structure HandleEntry where
  generation : UInt32
  object : Option ObjectId
  kind : HandleKind
  deriving DecidableEq, Inhabited

/-- The registered handles. -/
structure HandleTable where
  entries : Array HandleEntry
  /-- The free slots, the one that is used next first. -/
  free : List UInt32
  /-- The number of registered handles. -/
  live : Nat
  deriving DecidableEq, Inhabited

namespace HandleTable

def empty : HandleTable := ⟨#[], [], 0⟩

/-- The entry and the object of a registered handle. -/
def entry? (table : HandleTable) (h : Handle) : Option (ObjectId × HandleKind) :=
  match table.entries[h.index.toNat]? with
  | some ⟨generation, some object, kind⟩ =>
    if generation = h.generation then some (object, kind) else none
  | _ => none

def get? (table : HandleTable) (h : Handle) : Option ObjectId := (table.entry? h).map Prod.fst

def kind? (table : HandleTable) (h : Handle) : Option HandleKind := (table.entry? h).map Prod.snd

/-- The generation after a given one. Zero is skipped, so no handle is the word
zero. -/
def nextGeneration (generation : UInt32) : UInt32 :=
  if generation + 1 = 0 then 1 else generation + 1

/-- Registers an object, whose reference the table takes over. -/
def insert (table : HandleTable) (object : ObjectId) (kind : HandleKind) : Handle × HandleTable :=
  match table with
  | ⟨entries, [], live⟩ =>
    (.make entries.size.toUInt32 1, ⟨entries.push ⟨1, some object, kind⟩, [], live + 1⟩)
  | ⟨entries, index :: free, live⟩ =>
    let generation := nextGeneration (entries.getD index.toNat default).generation
    (.make index generation,
      ⟨entries.setIfInBounds index.toNat ⟨generation, some object, kind⟩, free, live + 1⟩)

/-- Changes what a registered handle stands for. -/
def setKind (table : HandleTable) (h : Handle) (kind : HandleKind) : HandleTable :=
  match table.entry? h with
  | some (object, _) =>
    { table with
      entries := table.entries.setIfInBounds h.index.toNat ⟨h.generation, some object, kind⟩ }
  | none => table

/-- Removes a registered handle and gives back the reference it owned. -/
def remove (table : HandleTable) (h : Handle) : Option ObjectId × HandleTable :=
  match table.entry? h with
  | some (object, kind) =>
    (some object,
      ⟨table.entries.setIfInBounds h.index.toNat ⟨h.generation, none, kind⟩,
        h.index :: table.free, table.live - 1⟩)
  | none => (none, table)

/-- The references of all registered handles in the order of their slots. -/
def objects (table : HandleTable) : List ObjectId :=
  table.entries.toList.filterMap HandleEntry.object

end HandleTable

end ArrayBridge
