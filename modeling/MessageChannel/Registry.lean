import MessageChannel.Event
import MessageChannel.Message.Class

namespace MessageChannel

structure Registration (μ : Type) where
  typeId : Int32
  name : String
  create : Int32 → μ

structure Candidate (μ : Type) where
  ident : String
  name : String
  fixedId : Option Int32
  create : Int32 → μ

structure Registry (μ : Type) where
  version : UInt32
  entries : List (Registration μ) := []
  /-- The ids of the names, the latest first. -/
  nameIds : List (String × Int32) := []
  /-- The ids of the types that were registered as such, by what identifies them. -/
  typeIds : List (String × Int32) := []
  nextId : Int32 := firstUserTypeId

namespace Registry

variable {μ : Type}

def packVersion (major minor patch : UInt32) : UInt32 :=
  (major &&& 0xff) <<< 16 ||| (minor &&& 0xff) <<< 8 ||| patch &&& 0xff

def find? (r : Registry μ) (typeId : Int32) : Option (Registration μ) :=
  r.entries.find? (·.typeId == typeId)

def contains (r : Registry μ) (typeId : Int32) : Bool := (r.find? typeId).isSome

def nameOf? (r : Registry μ) (typeId : Int32) : Option String := (r.find? typeId).map (·.name)

def idOfName? (r : Registry μ) (name : String) : Option Int32 := r.nameIds.lookup name

def idOfType? (r : Registry μ) (ident : String) : Option Int32 := r.typeIds.lookup ident

def size (r : Registry μ) : Nat := r.entries.length

def isEmpty (r : Registry μ) : Bool := r.entries.isEmpty

/-- The first id from a given one on that is not taken, if it comes within so many steps. -/
def firstFree (taken : Int32 → Bool) : Nat → Int32 → Int32
  | 0, typeId => typeId
  | steps + 1, typeId => if taken typeId then firstFree taken steps (typeId + 1) else typeId

/-- As many ids as there are entries may be taken, so one step for each finds a free one. -/
def freeId (r : Registry μ) : Int32 := firstFree r.contains r.entries.length r.nextId

/-- Puts in an entry and the id of its name. What had the id or the name before gives way. -/
def add (r : Registry μ) (typeId : Int32) (name : String) (create : Int32 → μ) : Registry μ :=
  { r with
    entries := r.entries.filter (·.typeId != typeId) ++ [⟨typeId, name, create⟩]
    nameIds := (name, typeId) :: r.nameIds }

def addFree (r : Registry μ) (name : String) (create : Int32 → μ) : Int32 × Registry μ :=
  (r.freeId, { r.add r.freeId name create with nextId := r.freeId + 1 })

def addType (r : Registry μ) (ident : String) (typeId : Int32) : Registry μ :=
  { r with typeIds := (ident, typeId) :: r.typeIds }

/-- Registers a type. A known name keeps its id; a type gets the id that it asks for if that is
free, and the next free one otherwise. -/
def register (r : Registry μ) (c : Candidate μ) : Int32 × List Event × Registry μ :=
  match r.idOfName? c.name with
  | some typeId =>
      (typeId, [], if (r.idOfType? c.ident).isSome then r else r.addType c.ident typeId)
  | none =>
      match c.fixedId with
      | none =>
          let (typeId, r) := r.addFree c.name c.create
          (typeId, [], r.addType c.ident typeId)
      | some fixed =>
          match r.nameOf? fixed with
          | none => (fixed, [], (r.add fixed c.name c.create).addType c.ident fixed)
          | some holder =>
              let (typeId, r) := r.addFree c.name c.create
              (typeId, [.idTaken fixed c.name holder], r.addType c.ident typeId)

/-- Registers a name with a creator of its own. A known name keeps its id and its creator. -/
def registerWith (r : Registry μ) (name : String) (create : Int32 → μ) : Int32 × Registry μ :=
  match r.idOfName? name with
  | some typeId => (typeId, r)
  | none => r.addFree name create

def create? (r : Registry μ) (typeId : Int32) : Option μ :=
  (r.find? typeId).map fun entry => entry.create typeId

def createByName? (r : Registry μ) (name : String) : Option μ := (r.idOfName? name).bind r.create?

/-- An empty message for an id of the peer's: by the name that the peer's table has for it, or
else by the id itself. Reserved ids mean the same on both sides. -/
def resolve? (r : Registry μ) (typeId : Int32) (peer : PeerTable) : Option μ :=
  if isReserved typeId then r.create? typeId
  else match peer.nameOf? typeId with
    | some name => r.createByName? name
    | none => r.create? typeId

def make (r : Registry μ) (ident : String) (build : Int32 → μ) : Except ChannelError μ :=
  match r.idOfType? ident with
  | some typeId => .ok (build typeId)
  | none => .error (.unregistered (-1))

/-- The table that a peer is sent: all types but the reserved ones. -/
def table (r : Registry μ) : PeerTable :=
  .ofEntries r.version (r.entries.filterMap fun entry =>
    if firstUserTypeId ≤ entry.typeId then some (entry.typeId.toUInt32, entry.name) else none)

def listing (r : Registry μ) : List (Int32 × String) :=
  (r.entries.map fun entry => (entry.typeId, entry.name)).mergeSort fun a b => a.1 ≤ b.1

/-- A registry that knows the table of types and raw messages. -/
def ofVersion [Message μ] (version : UInt32) : Registry μ :=
  let r : Registry μ := { version }
  let r := (r.add tableTypeId PeerTable.messageType.name (fun id => Message.ofTable id .empty)).addType
    PeerTable.messageType.ident tableTypeId
  r.add rawTypeId rawName (fun _ => Message.ofRaw {})

end Registry

end MessageChannel
