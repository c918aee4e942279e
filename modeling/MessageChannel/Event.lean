import MessageChannel.Header
import MessageChannel.Endpoint

namespace MessageChannel

inductive Event where
  | idTaken (typeId : Int32) (name holder : String)
  | sentTable (version : UInt32) (size : Nat)
  | sentTableTo (version : UInt32) (target : Endpoint)
  | sent (h : Header)
  | sentTo (h : Header) (target : Endpoint)
  | sendCanceled (index count : Nat)
  | sentSlices (length : UInt32) (typeId : Int32) (count : Nat)
  | lateCancel (typeId : Int32)
  | sentCancel (typeId : Int32)
  | cancelFailed (typeId : Int32) (error : ChannelError)
  | sendFailed (name : String) (error : ChannelError)
  | flagIgnored (name : String)
  | received (h : Header)
  | receivedFrom (h : Header) (sender : Endpoint)
  | peerCanceled (typeId : Int32)
  | versionMismatch (own peer : UInt32)
  | receivedTable (size : Nat)
  | unresolvedSlices (typeId : Int32) (length : UInt32)
  | unresolved (typeId : Int32)
  | transportReplaced (reconnect : Bool)
deriving DecidableEq, Repr

inductive Level where
  | debug
  | warn
  | error
deriving DecidableEq, Repr

def Level.text : Level → String
  | debug => "debug"
  | warn => "warn"
  | error => "error"

namespace Event

def level : Event → Level
  | idTaken .. | sentCancel _ | cancelFailed .. | sendFailed .. | flagIgnored _
  | versionMismatch .. => .warn
  | unresolvedSlices .. | unresolved _ => .error
  | _ => .debug

def text : Event → String
  | idTaken typeId name holder =>
      s!"type id {typeId} of {name} already taken by {holder}, assigning a new id"
  | sentTable version size => s!"sent protocol table version {version} with {size} types"
  | sentTableTo version target => s!"sent protocol table version {version} to {target.text}"
  | sent h => s!"sent {h.text}"
  | sentTo h target => s!"sent {h.text} to {target.text}"
  | sendCanceled index count => s!"send canceled after {index} of {count} slices"
  | sentSlices length typeId count => s!"sent {length} bytes of type {typeId} in {count} slices"
  | lateCancel typeId => s!"cancel for proto type {typeId} arrived after the last frame"
  | sentCancel typeId => s!"sent cancel for proto type {typeId}"
  | cancelFailed typeId error =>
      s!"failed to send cancel for proto type {typeId}: {error.message}"
  | sendFailed name error => s!"send {name} failed: {error.message}"
  | flagIgnored name => s!"{name} is ignored on recv"
  | received h => s!"recv {h.text}"
  | receivedFrom h sender => s!"recv {h.text} from {sender.text}"
  | peerCanceled typeId => s!"peer canceled proto type {typeId}"
  | versionMismatch own peer => s!"protocol factory version mismatch: local {own}, peer {peer}"
  | receivedTable size => s!"received protocol table with {size} types"
  | unresolvedSlices typeId length =>
      s!"slice header for unresolvable proto type {typeId}, consuming {length} bytes"
  | unresolved typeId => s!"received message of unresolvable proto type {typeId}"
  | transportReplaced reconnect => s!"stream transport replaced (reconnect: {reconnect})"

end Event

end MessageChannel
