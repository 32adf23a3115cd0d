import Slim.Proto.Message

/-!
# Errors of the data path

`DataPathError` keeps the variants the modelled functions return, with their display texts
(`toString`), which end up in negative acknowledgements. A Rust panic is not an error value:
fallible functions return `Except (Fault ε) α`, where `Fault.panic` stands for an `unwrap` or
`expect` on a missing value.
-/

namespace Slim

inductive DataPathError
  | ConnectionError
  | NegotiationError (reason : String)
  | UnknownMsgType
  | InvalidMessage (e : MessageError)
  | NoMatchEncoded (c0 c1 c2 : UInt64) (id : String)
  | SubscriptionNotFound (name : ProtoName)
  | SubscriptionIdNotFound (id : SubId)
  | IdNotFound (id : String)
  | ConnectionNotFound (conn : ConnId)
  | ConnectionIdNotFound (conn : ConnId)
  | InvalidDefaultGateway (conn : ConnId) (reason : String)
  | MalformedMessage (e : MessageError)
  | ProcessingError (e : MessageError)
  | ConnectionSendError
  | ConnectionTableAddError
  | MessageProcessingError (source : DataPathError) (msg : Message)
  | RemoteSubscriptionAckTimeout (retries : Nat)
  | RemoteSubscriptionAckError (error : String)
  | AlreadyClosedError
  | HeaderMacAwaitingLinkNegotiation (conn : ConnId)
  | TtlExpired
  deriving DecidableEq, Repr

namespace DataPathError

def hex (n : UInt64) : String := String.ofList (Nat.toDigits 16 n.toNat)

def toString : DataPathError → String
  | ConnectionError => "connection error"
  | NegotiationError reason => "link negotiation error " ++ reason
  | UnknownMsgType => "unknown message type"
  | InvalidMessage e => "invalid message: " ++ e.toString
  | NoMatchEncoded c0 c1 c2 id =>
    "no matching found for [" ++ hex c0 ++ ", " ++ hex c1 ++ ", " ++ hex c2 ++ ", " ++ id ++ "]"
  | SubscriptionNotFound _ => "subscription not found"
  | SubscriptionIdNotFound id => "subscription id not found: " ++ id.toNat.repr
  | IdNotFound id => "id not found: " ++ id
  | ConnectionNotFound conn => "connection not found: " ++ conn.toNat.repr
  | ConnectionIdNotFound conn => "connection id not found: " ++ conn.toNat.repr
  | InvalidDefaultGateway conn reason =>
    "invalid default gateway " ++ conn.toNat.repr ++ ": " ++ reason
  | MalformedMessage _ => "malformed message"
  | ProcessingError e => "message processing error: " ++ e.toString
  | ConnectionSendError => "connection send error"
  | ConnectionTableAddError => "error adding connection to connection table"
  | MessageProcessingError source _ => "message processing error: " ++ source.toString
  | RemoteSubscriptionAckTimeout retries =>
    "remote subscription ack timed out after " ++ retries.repr ++ " retries"
  | RemoteSubscriptionAckError _ => "remote subscription ack error"
  | AlreadyClosedError => "data path is already closed"
  | HeaderMacAwaitingLinkNegotiation conn =>
    "header MAC requires completed link negotiation on connection " ++ conn.toNat.repr
  | TtlExpired => "message TTL expired"

end DataPathError

/-- Why a call did not return a value. -/
inductive Fault (ε : Type)
  | err (e : ε)
  | panic (msg : String)
  deriving DecidableEq, Repr

end Slim
