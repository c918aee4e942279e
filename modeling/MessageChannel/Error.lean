import MessageChannel.FrameKind
import MessageChannel.Transport.IoError
import MessageChannel.Body.Format

namespace MessageChannel

/-- What is wrong with a header, or with the moment at which it comes. -/
inductive HeaderFault where
  | unknownKind (code : UInt16)
  | short (size : Nat)
  | completeInFlight
  | announcedInFlight
  | unannounced
  | shortDatagram (size : Nat)
  | lengthMismatch (declared carried : Nat)
  | notInDatagrams (kind : FrameKind)
  | note (text : String)
deriving DecidableEq, Repr

inductive DataFault where
  | sliceOutside (offset length total : Nat)
  | malformed (format : Format)
  | note (text : String)
deriving DecidableEq, Repr

inductive VersionFault where
  | legacy (data : Int32) (length : UInt32)
  | note (text : String)
deriving DecidableEq, Repr

inductive SerializationFault where
  | keyNotText
  | workerLost
  | note (text : String)
deriving DecidableEq, Repr

inductive UnsupportedOperation where
  | slicedDatagram
  | note (text : String)
deriving DecidableEq, Repr

inductive ChannelError where
  | invalidHeader (fault : HeaderFault)
  | unregistered (typeId : Int32)
  | invalidData (fault : DataFault)
  | unsupportedVersion (fault : VersionFault)
  | unrecognized (typeId : Int32)
  | timeout
  | noData
  | tooLarge (size limit : Nat)
  | serialization (fault : SerializationFault)
  | unsupported (operation : UnsupportedOperation)
  | connectionReset
  | canceled
  | io (error : IoError)
deriving DecidableEq, Repr

def HeaderFault.message : HeaderFault → String
  | unknownKind code => s!"unknown message type {code}"
  | short size => s!"need 10 header bytes, got {size}"
  | completeInFlight => "complete message received while a sliced message is in flight"
  | announcedInFlight => "slice header received while a sliced message is in flight"
  | unannounced => "slice received without a slice header"
  | shortDatagram size => s!"datagram of {size} bytes is shorter than a header"
  | lengthMismatch declared carried =>
      s!"header declares {declared} bytes, datagram carries {carried}"
  | notInDatagrams kind => s!"{kind.text} frames are not valid on datagram transports"
  | note text => text

def DataFault.message : DataFault → String
  | sliceOutside offset length total =>
      s!"slice offset {offset} length {length} exceeds payload size {total}"
  | malformed format => s!"not a {format.name} body of this type"
  | note text => text

def VersionFault.message : VersionFault → String
  | legacy data length => s!"legacy version header (data {data}, length {length})"
  | note text => text

def SerializationFault.message : SerializationFault → String
  | keyNotText => "key must be a string"
  | workerLost => "serializer thread failed"
  | note text => text

def UnsupportedOperation.message : UnsupportedOperation → String
  | slicedDatagram => "slice data is not supported on datagram transports"
  | note text => text

namespace ChannelError

def message : ChannelError → String
  | invalidHeader fault => s!"invalid message header: {fault.message}"
  | unregistered typeId => s!"proto type {typeId} is not registered"
  | invalidData fault => s!"invalid proto data: {fault.message}"
  | unsupportedVersion fault => s!"proto version is not supported: {fault.message}"
  | unrecognized typeId => s!"unrecognized message of proto type {typeId}"
  | timeout => "the operation timed out"
  | noData => "serializer returned no data"
  | tooLarge size limit => s!"message too large: {size} bytes (max {limit})"
  | serialization fault => s!"serialization failed: {fault.message}"
  | unsupported operation => s!"unsupported operation: {operation.message}"
  | connectionReset => "connection reset by peer"
  | canceled => "operation canceled"
  | io error => s!"I/O error: {error.message}"

end ChannelError

/-- The stable number of an outcome. Nine is not in use. -/
inductive ErrorCode where
  | ok
  | invalidHeader
  | unregistered
  | invalidData
  | unsupportedVersion
  | unrecognized
  | timeout
  | noData
  | tooLarge
  | serialization
  | unsupported
  | connectionReset
  | canceled
  | io
deriving DecidableEq, Repr

namespace ErrorCode

def all : List ErrorCode :=
  [ok, invalidHeader, unregistered, invalidData, unsupportedVersion, unrecognized, timeout, noData,
    tooLarge, serialization, unsupported, connectionReset, canceled, io]

def value : ErrorCode → Nat
  | ok => 0
  | invalidHeader => 1
  | unregistered => 2
  | invalidData => 3
  | unsupportedVersion => 4
  | unrecognized => 5
  | timeout => 6
  | noData => 7
  | tooLarge => 8
  | serialization => 10
  | unsupported => 11
  | connectionReset => 12
  | canceled => 13
  | io => 14

def name : ErrorCode → String
  | ok => "Ok"
  | invalidHeader => "InvalidMessageHeader"
  | unregistered => "InvalidProtoType"
  | invalidData => "InvalidProtoData"
  | unsupportedVersion => "ProtoVersionUnsupported"
  | unrecognized => "UnrecognizedMessage"
  | timeout => "Timeout"
  | noData => "NoData"
  | tooLarge => "MessageTooLarge"
  | serialization => "SerializationError"
  | unsupported => "UnsupportOperator"
  | connectionReset => "ConnectionReset"
  | canceled => "Canceled"
  | io => "Io"

def message : ErrorCode → String
  | ok => "ok"
  | invalidHeader => "invalid message header"
  | unregistered => "proto type is not registered"
  | invalidData => "payload could not be decoded"
  | unsupportedVersion => "proto version is not supported"
  | unrecognized => "unrecognized message type"
  | timeout => "operation timed out"
  | noData => "serializer produced no data"
  | tooLarge => "message is too large"
  | serialization => "serialization failed"
  | unsupported => "operation is not supported by this transport"
  | connectionReset => "connection reset by peer"
  | canceled => "operation canceled"
  | io => "transport I/O error"

def text (code : ErrorCode) : String := s!"{code.message} ({code.value})"

end ErrorCode

namespace ChannelError

def code : ChannelError → ErrorCode
  | invalidHeader _ => .invalidHeader
  | unregistered _ => .unregistered
  | invalidData _ => .invalidData
  | unsupportedVersion _ => .unsupportedVersion
  | unrecognized _ => .unrecognized
  | timeout => .timeout
  | noData => .noData
  | tooLarge _ _ => .tooLarge
  | serialization _ => .serialization
  | unsupported _ => .unsupported
  | connectionReset => .connectionReset
  | canceled => .canceled
  | io _ => .io

def isCanceled : ChannelError → Bool
  | canceled => true
  | _ => false

/-- A failure to read a body is invalid data whatever the message's own reader calls it. -/
def asInvalidData : ChannelError → ChannelError
  | invalidData fault => invalidData fault
  | error => invalidData (.note error.message)

end ChannelError

end MessageChannel
