namespace MessageChannel

def headerTypeId : Int32 := 1

def tableTypeId : Int32 := 2

def rawTypeId : Int32 := 3

/-- The first id that is handed out on registration. The positive ids below it are reserved and
never negotiated. -/
def firstUserTypeId : Int32 := 16

def isReserved (typeId : Int32) : Bool := 1 ≤ typeId && typeId < firstUserTypeId

end MessageChannel
