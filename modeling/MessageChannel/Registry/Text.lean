import MessageChannel.Registry
import MessageChannel.Text.Quoted

namespace MessageChannel.Registry

variable {μ : Type}

def text (r : Registry μ) : String :=
  let types := r.listing.map fun (typeId, name) => s!"({typeId}, {quoted name})"
  s!"ProtoFactory \x7b version: {r.version}, types: " ++ "[" ++ ", ".intercalate types ++ "] \x7d"

end MessageChannel.Registry
