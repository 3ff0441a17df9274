/-! Names of heap objects. -/

namespace ArrayBridge

/-- The name of a heap object: a slot and the generation of the slot. A slot
that is used again gets another generation, so a name that outlives its object
does not name a later one. -/
structure ObjectId where
  index : UInt32
  generation : UInt32
  deriving DecidableEq, Inhabited

namespace ObjectId

/-- The diagnostic form of the name, as it stands in error texts. -/
def text (id : ObjectId) : String :=
  "ObjId(" ++ toString id.index.toNat ++ "v" ++ toString id.generation.toNat ++ ")"

end ObjectId

end ArrayBridge
